import Mathlib.Data.List.Forall2
import Mathlib.Data.List.Induction
import Mathlib.Data.List.Perm.Subperm
import NearestWins.Management.OverrideTable

/-!
# The entries of an override table

A table is five maps, but all that it says about a key is one `TableEntry`. Taking a declaration in
changes the entry of its own key and no other one, so the entry of a key after any declarations is a
fold of `TableEntry.declare` over those of them that have the key. On an entry that starts empty the fold
comes to `TableEntry.nearest`: the first version, scope, optionality and local path declared, and the union
of all exclusions.
-/

namespace NearestWins

/-! ## Maps -/

/-- Recording a first value only matters for its own key, and only if that holds none yet. -/
theorem getElem?_recordFirst {α : Type} (map : Std.ExtTreeMap Key α) (key : Key)
    (value : Option α) (k : Key) :
    (recordFirst map key value).1[k]? = map[k]?.or (if key = k then value else none) := by
  cases value with
  | none => simp [recordFirst]
  | some v =>
    rw [recordFirst]
    by_cases hc : map.contains key
    · obtain ⟨w, hw⟩ : ∃ w, map[key]? = some w := by
        rw [← Option.isSome_iff_exists, Std.ExtTreeMap.isSome_getElem?_eq_contains, hc]
      rw [if_pos hc]
      by_cases hk : key = k
      · subst hk
        simp [hw]
      · simp [hk]
    · have hnone : map[key]? = none := by
        rw [← Option.not_isSome_iff_eq_none, Std.ExtTreeMap.isSome_getElem?_eq_contains]
        exact hc
      rw [if_neg hc, Std.ExtTreeMap.getElem?_insert]
      by_cases hk : key = k
      · subst hk
        simp [hnone]
      · simp [hk]

/-- A union is no larger than its first part only if it is its first part. -/
theorem ExclusionSet.union_eq_left_iff_size_eq (a b : ExclusionSet) :
    (a ∪ b).size = a.size ↔ a ∪ b = a := by
  refine ⟨fun h => ?_, fun h => by rw [h]⟩
  have hnodup : a.toList.Nodup :=
    Std.ExtTreeSet.distinct_toList.imp fun hne heq => hne (by simp [heq])
  have hsubset : a.toList ⊆ (a ∪ b).toList := by
    intro e he
    simp only [Std.ExtTreeSet.mem_toList, Std.ExtTreeSet.mem_union_iff] at he ⊢
    exact Or.inl he
  have hlength : (a ∪ b).toList.length ≤ a.toList.length := by
    simp [h]
  have hperm := (List.subperm_of_subset hnodup hsubset).perm_of_length_le hlength
  exact (Std.ExtTreeSet.ext_toList hperm).symm

/-- Recording exclusions only matters for their own key, and only if they are not all there yet. -/
theorem getElem?_recordExclusions (map : Std.ExtTreeMap Key ExclusionSet) (key : Key)
    (exclusions : ExclusionSet) (k : Key) :
    (recordExclusions map key exclusions).1[k]? =
      if key = k ∧ map.getD k ∅ ∪ exclusions ≠ map.getD k ∅ then some (map.getD k ∅ ∪ exclusions)
      else map[k]? := by
  simp only [recordExclusions, ExclusionSet.union_eq_left_iff_size_eq]
  by_cases hk : key = k
  · subst hk
    split
    next h => simp [h]
    next h => simp [h]
  · split
    next => simp [hk]
    next => simp [hk, Std.ExtTreeMap.getElem?_insert]

/-! ## Entries -/

/-- What a table records under one key. -/
structure TableEntry where
  version : Option String := none
  scope : Option String := none
  optional : Option Bool := none
  localPath : Option String := none
  exclusions : Option ExclusionSet := none

/-- The entry of a key. -/
def OverrideTable.entry (t : OverrideTable) (k : Key) : TableEntry where
  version := t.versions[k]?
  scope := t.scopes[k]?
  optional := t.optionals[k]?
  localPath := t.localPaths[k]?
  exclusions := t.exclusions[k]?

namespace TableEntry

/-- An entry after one more declaration for its key. -/
def declare (policy : ScopeHandler) (e : TableEntry) (d : Dependency) : TableEntry where
  version := e.version.or (OverrideTable.declaredText d.artifact.version)
  scope := e.scope.or (OverrideTable.declaredText d.scope)
  optional := e.optional.or d.optional
  localPath := e.localPath.or (OverrideTable.declaredPath policy d)
  exclusions :=
    if e.exclusions.getD ∅ ∪ d.exclusions = e.exclusions.getD ∅ then e.exclusions
    else some (e.exclusions.getD ∅ ∪ d.exclusions)

/-- The union of the exclusions of declarations. -/
def allExclusions (ds : List Dependency) : ExclusionSet :=
  ds.foldl (fun all d => all ∪ d.exclusions) ∅

/-- What declarations for one key come to: the first version and the first scope that are not empty,
the first optionality, the first local path of a declaration in system scope, and all exclusions. -/
def nearest (policy : ScopeHandler) (ds : List Dependency) : TableEntry where
  version := (ds.map (·.artifact.version)).find? (· ≠ "")
  scope := (ds.map (·.scope)).find? (· ≠ "")
  optional := ds.findSome? (·.optional)
  localPath := (ds.filter (policy.isSystem ·.scope)).findSome? (policy.localPath ·.artifact)
  exclusions := if allExclusions ds = ∅ then none else some (allExclusions ds)

theorem mem_allExclusions (ds : List Dependency) (x : Exclusion) :
    x ∈ allExclusions ds ↔ ∃ d ∈ ds, x ∈ d.exclusions := by
  have hfold : ∀ all : ExclusionSet, x ∈ ds.foldl (fun all d => all ∪ d.exclusions) all ↔
      x ∈ all ∨ ∃ d ∈ ds, x ∈ d.exclusions := by
    induction ds with
    | nil => simp
    | cons d rest ih =>
      intro all
      rw [List.foldl_cons, ih]
      simp [or_assoc]
  simpa [allExclusions] using hfold ∅

theorem allExclusions_append (ds : List Dependency) (d : Dependency) :
    allExclusions (ds ++ [d]) = allExclusions ds ∪ d.exclusions := by
  simp [allExclusions]

theorem declare_nearest (policy : ScopeHandler) (ds : List Dependency) (d : Dependency) :
    (nearest policy ds).declare policy d = nearest policy (ds ++ [d]) := by
  have htext : ∀ text : String,
      [text].find? (· ≠ "") = OverrideTable.declaredText text := by
    intro text
    by_cases h : text = "" <;> simp [OverrideTable.declaredText, h]
  have hpath : ([d].filter (policy.isSystem ·.scope)).findSome? (policy.localPath ·.artifact) =
      OverrideTable.declaredPath policy d := by
    by_cases h : policy.isSystem d.scope <;> simp [OverrideTable.declaredPath, h]
  have hexclusions : (nearest policy ds).exclusions.getD ∅ = allExclusions ds := by
    by_cases h : allExclusions ds = ∅ <;> simp [nearest, h]
  rw [declare, hexclusions]
  simp only [nearest, List.map_append, List.find?_append, List.filter_append,
    List.findSome?_append, List.map_singleton, htext, hpath, allExclusions_append]
  congr 1
  · simp
  · by_cases h : allExclusions ds ∪ d.exclusions = allExclusions ds
    · simp [h]
    · have hne : allExclusions ds ∪ d.exclusions ≠ ∅ := by
        intro hempty
        have hboth := Std.ExtTreeSet.isEmpty_iff.mpr hempty
        rw [Std.ExtTreeSet.isEmpty_union, Bool.and_eq_true] at hboth
        exact h (hempty.trans (Std.ExtTreeSet.isEmpty_iff.mp hboth.1).symm)
      simp [h, hne]

/-- Whether exclusions were recorded before or not, those of the declaration are there after it. -/
theorem getD_exclusions_declare (policy : ScopeHandler) (e : TableEntry) (d : Dependency) :
    (e.declare policy d).exclusions.getD ∅ = e.exclusions.getD ∅ ∪ d.exclusions := by
  rw [declare]
  split
  next h => exact h.symm
  next h => rfl

/-- Exclusions are recorded if they were before, or if the declaration has one that was not there. -/
theorem isSome_exclusions_declare_iff {policy : ScopeHandler} {e : TableEntry} {d : Dependency} :
    (e.declare policy d).exclusions.isSome ↔
      e.exclusions.isSome ∨ ∃ x ∈ d.exclusions, x ∉ e.exclusions.getD ∅ := by
  rw [declare]
  by_cases h : ∃ x ∈ d.exclusions, x ∉ e.exclusions.getD ∅
  · obtain ⟨x, hx, hnew⟩ := h
    have hgrows : e.exclusions.getD ∅ ∪ d.exclusions ≠ e.exclusions.getD ∅ := by
      intro hsame
      rw [← hsame] at hnew
      exact hnew (Std.ExtTreeSet.mem_union_iff.mpr (Or.inr hx))
    rw [if_neg hgrows]
    exact ⟨fun _ => Or.inr ⟨x, hx, hnew⟩, fun _ => rfl⟩
  · have hsame : e.exclusions.getD ∅ ∪ d.exclusions = e.exclusions.getD ∅ := by
      ext x
      rw [Std.ExtTreeSet.mem_union_iff]
      exact ⟨fun hx => hx.elim id fun hx => by_contra fun hnew => h ⟨x, hx, hnew⟩, Or.inl⟩
    rw [if_pos hsame]
    exact ⟨Or.inl, fun hx => hx.elim id fun hx => absurd hx h⟩

/-- Declarations fold into an empty entry to what they come to. -/
theorem foldl_declare (policy : ScopeHandler) (ds : List Dependency) :
    ds.foldl (declare policy) {} = nearest policy ds := by
  induction ds using List.reverseRecOn with
  | nil => simp [nearest, allExclusions]
  | append_singleton ds d ih => rw [List.foldl_append, ih, List.foldl_cons, List.foldl_nil, declare_nearest]

end TableEntry

namespace OverrideTable

theorem entry_declare (policy : ScopeHandler) (key : Key) (d : Dependency) (t : OverrideTable)
    (k : Key) :
    (t.declare policy key d).1.entry k =
      if key = k then (t.entry k).declare policy d else t.entry k := by
  simp only [entry, declare, getElem?_recordFirst, getElem?_recordExclusions]
  by_cases h : key = k
  · subst h
    by_cases hsame : t.exclusions[key]?.getD ∅ ∪ d.exclusions = t.exclusions[key]?.getD ∅ <;>
      simp [TableEntry.declare, Std.ExtTreeMap.getD_eq_getD_getElem?, hsame]
  · simp [h]

/-- Taking declarations in folds those of each key into its entry. -/
theorem entry_declareAll (policy : ScopeHandler) (scheme : KeyScheme) (ds : List Dependency)
    (t : OverrideTable) (k : Key) :
    (t.declareAll policy scheme ds).1.entry k =
      (ds.filter (scheme.key ·.artifact = k)).foldl (TableEntry.declare policy) (t.entry k) := by
  induction ds generalizing t with
  | nil => rfl
  | cons d rest ih =>
    rw [declareAll, ih, entry_declare]
    by_cases h : scheme.key d.artifact = k <;> simp [h]

/-- Tables that take related declarations in, under the same keys, keep their entries related. -/
theorem rel_entry_declareAll {E : TableEntry → TableEntry → Prop}
    {R : Dependency → Dependency → Prop} {policy policy' : ScopeHandler} {scheme : KeyScheme}
    (hkey : ∀ d d', R d d' → scheme.key d.artifact = scheme.key d'.artifact)
    (hdeclare : ∀ e e', E e e' → ∀ d d', R d d' → E (e.declare policy d) (e'.declare policy' d'))
    {l l' : List Dependency} (hl : List.Forall₂ R l l') {t t' : OverrideTable} {k : Key}
    (h : E (t.entry k) (t'.entry k)) :
    E ((t.declareAll policy scheme l).1.entry k) ((t'.declareAll policy' scheme l').1.entry k) := by
  have hfilter : List.Forall₂ R (l.filter (scheme.key ·.artifact = k))
      (l'.filter (scheme.key ·.artifact = k)) := by
    refine List.rel_filter (fun d d' hd => ?_) hl
    simp only [decide_eq_true_eq, hkey d d' hd]
  rw [entry_declareAll, entry_declareAll]
  exact List.rel_foldl hdeclare h hfilter

@[simp] theorem entry_empty (k : Key) : ({} : OverrideTable).entry k = {} := by
  simp [entry]

/-- A table is told by its entries. -/
theorem ext_entry {t t' : OverrideTable} (h : ∀ k, t.entry k = t'.entry k) : t = t' := by
  have hversions : t.versions = t'.versions :=
    Std.ExtTreeMap.ext_getElem? fun k => congrArg TableEntry.version (h k)
  have hscopes : t.scopes = t'.scopes :=
    Std.ExtTreeMap.ext_getElem? fun k => congrArg TableEntry.scope (h k)
  have hoptionals : t.optionals = t'.optionals :=
    Std.ExtTreeMap.ext_getElem? fun k => congrArg TableEntry.optional (h k)
  have hlocalPaths : t.localPaths = t'.localPaths :=
    Std.ExtTreeMap.ext_getElem? fun k => congrArg TableEntry.localPath (h k)
  have hexclusions : t.exclusions = t'.exclusions :=
    Std.ExtTreeMap.ext_getElem? fun k => congrArg TableEntry.exclusions (h k)
  cases t
  cases t'
  congr

end OverrideTable

end NearestWins
