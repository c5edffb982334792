import NearestWins.Proofs.Lineage

/-!
# Growing entries

An entry only grows: what was recorded first stays, and exclusions are added. `TableEntry.Within` compares
entries that have grown to different extents. `TableEntry.Absorbs` says that a declaration has nothing to
add to an entry. An entry absorbs what it has taken in, and goes on to do so as it grows.
-/

namespace NearestWins

/-- An entry says all that another one says, and the same where there is one value only. -/
structure TableEntry.Within (e e' : TableEntry) : Prop where
  version : ∀ v, e.version = some v → e'.version = some v
  scope : ∀ v, e.scope = some v → e'.scope = some v
  optional : ∀ v, e.optional = some v → e'.optional = some v
  localPath : ∀ v, e.localPath = some v → e'.localPath = some v
  exclusions : ∀ x ∈ e.exclusions.getD ∅, x ∈ e'.exclusions.getD ∅

namespace TableEntry

theorem Within.refl (e : TableEntry) : e.Within e :=
  ⟨fun _ h => h, fun _ h => h, fun _ h => h, fun _ h => h, fun _ h => h⟩

theorem Within.trans {a b c : TableEntry} (h : a.Within b) (h' : b.Within c) : a.Within c where
  version v hv := h'.version v (h.version v hv)
  scope v hv := h'.scope v (h.scope v hv)
  optional v hv := h'.optional v (h.optional v hv)
  localPath v hv := h'.localPath v (h.localPath v hv)
  exclusions x hx := h'.exclusions x (h.exclusions x hx)

theorem within_declare (policy : ScopeHandler) (e : TableEntry) (d : Dependency) :
    e.Within (e.declare policy d) := by
  have hor : ∀ {α : Type} (first second : Option α) (v : α),
      first = some v → first.or second = some v := by
    intro α first second v h
    exact Option.or_eq_some_iff.mpr (Or.inl h)
  constructor
  · exact hor _ _
  · exact hor _ _
  · exact hor _ _
  · exact hor _ _
  · intro x hx
    rw [getD_exclusions_declare, Std.ExtTreeSet.mem_union_iff]
    exact Or.inl hx

theorem within_foldl_declare (policy : ScopeHandler) (ds : List Dependency) (e : TableEntry) :
    e.Within (ds.foldl (declare policy) e) := by
  induction ds generalizing e with
  | nil => exact .refl e
  | cons d rest ih => exact (within_declare policy e d).trans (ih _)

/-! ## Absorption -/

/-- A declaration has nothing to add to an entry. -/
structure Absorbs (policy : ScopeHandler) (e : TableEntry) (d : Dependency) : Prop where
  version : e.version.or (OverrideTable.declaredText d.artifact.version) = e.version
  scope : e.scope.or (OverrideTable.declaredText d.scope) = e.scope
  optional : e.optional.or d.optional = e.optional
  localPath : e.localPath.or (OverrideTable.declaredPath policy d) = e.localPath
  exclusions : ∀ x ∈ d.exclusions, x ∈ e.exclusions.getD ∅

variable {policy : ScopeHandler} {e e' : TableEntry} {d : Dependency}

theorem Absorbs.declare_eq (h : e.Absorbs policy d) : e.declare policy d = e := by
  have hunion : e.exclusions.getD ∅ ∪ d.exclusions = e.exclusions.getD ∅ := by
    ext x
    rw [Std.ExtTreeSet.mem_union_iff]
    exact ⟨fun hx => hx.elim id (h.exclusions x), Or.inl⟩
  rw [declare, h.version, h.scope, h.optional, h.localPath, if_pos hunion]

/-- Whether it was of use or not, a declaration that was taken in has nothing to add any more. -/
theorem absorbs_declare (policy : ScopeHandler) (e : TableEntry) (d : Dependency) :
    (e.declare policy d).Absorbs policy d := by
  constructor
  · rw [declare, Option.or_assoc, Option.or_self]
  · rw [declare, Option.or_assoc, Option.or_self]
  · rw [declare, Option.or_assoc, Option.or_self]
  · rw [declare, Option.or_assoc, Option.or_self]
  · intro x hx
    rw [getD_exclusions_declare, Std.ExtTreeSet.mem_union_iff]
    exact Or.inr hx

theorem Absorbs.within (h : e.Absorbs policy d) (hgrows : e.Within e') : e'.Absorbs policy d := by
  have hor : ∀ {α : Type} {first grown declared : Option α}, first.or declared = first →
      (∀ v, first = some v → grown = some v) → grown.or declared = grown := by
    intro α first grown declared hfirst hgrown
    cases first with
    | none =>
      obtain rfl : declared = none := hfirst
      exact Option.or_none
    | some v =>
      rw [hgrown v rfl]
      rfl
  constructor
  · exact hor h.version hgrows.version
  · exact hor h.scope hgrows.scope
  · exact hor h.optional hgrows.optional
  · exact hor h.localPath hgrows.localPath
  · exact fun x hx => hgrows.exclusions x (h.exclusions x hx)

theorem absorbs_foldl_declare (policy : ScopeHandler) {ds : List Dependency} (hd : d ∈ ds)
    (e : TableEntry) : (ds.foldl (declare policy) e).Absorbs policy d := by
  obtain ⟨before, after, rfl⟩ := List.append_of_mem hd
  rw [List.foldl_append, List.foldl_cons]
  exact (absorbs_declare policy _ d).within (within_foldl_declare policy after _)

end TableEntry

namespace OverrideTable

variable (policy : ScopeHandler) (scheme : KeyScheme)

theorem within_declareAll (ds : List Dependency) (t : OverrideTable) (k : Key) :
    (t.entry k).Within ((t.declareAll policy scheme ds).1.entry k) := by
  rw [entry_declareAll]
  exact TableEntry.within_foldl_declare policy _ _

/-- A table absorbs, under their keys, the declarations that it has taken in. -/
theorem absorbs_declareAll {ds : List Dependency} {d : Dependency} (hd : d ∈ ds) (t : OverrideTable) :
    ((t.declareAll policy scheme ds).1.entry (scheme.key d.artifact)).Absorbs policy d := by
  rw [entry_declareAll]
  exact TableEntry.absorbs_foldl_declare policy (List.mem_filter.mpr ⟨hd, by simp⟩) _

variable {policy scheme}

theorem declare_eq_self {t : OverrideTable} {d : Dependency} {key : Key}
    (h : (t.entry key).Absorbs policy d) : (t.declare policy key d).1 = t := by
  refine ext_entry fun k => ?_
  rw [entry_declare]
  split
  next hk => exact (hk ▸ h).declare_eq
  next => rfl

theorem declareAll_eq_self {t : OverrideTable} {ds : List Dependency}
    (h : ∀ d ∈ ds, (t.entry (scheme.key d.artifact)).Absorbs policy d) :
    (t.declareAll policy scheme ds).1 = t := by
  induction ds with
  | nil => rfl
  | cons d rest ih =>
    rw [declareAll_cons, declare_eq_self (h d List.mem_cons_self)]
    exact ih fun other hother => h other (List.mem_cons_of_mem d hother)

end OverrideTable

namespace Snapshot

/-! ## Growth along a lineage -/

theorem within_take (s : Snapshot) (step : Step) (k : Key) :
    (s.table.entry k).Within ((s.take step).table.entry k) := by
  cases step with
  | rekey scheme => exact .refl _
  | derive managed =>
    rw [take, derive_value]
    split
    next => exact OverrideTable.within_declareAll s.policy s.scheme managed s.table k
    next => exact .refl _

/-- Along a lineage all entries grow, whatever schemes it goes through. -/
theorem within_follow (s : Snapshot) (steps : List Step) (k : Key) :
    (s.table.entry k).Within ((s.follow steps).table.entry k) := by
  induction steps generalizing s with
  | nil => exact .refl _
  | cons step rest ih => exact (s.within_take step k).trans (ih _)

theorem follow_policy (s : Snapshot) (steps : List Step) : (s.follow steps).policy = s.policy := by
  induction steps generalizing s with
  | nil => rfl
  | cons step rest ih =>
    have htake : (s.take step).policy = s.policy := by
      cases step with
      | rekey scheme => rfl
      | derive managed => exact derive_policy s managed
    rw [follow_cons, ih, htake]

end Snapshot

end NearestWins
