import Mathlib.Data.Nat.Count
import NearestWins.Proofs.EntryGrowth

/-!
# Counting admitted declarations

Whoever takes a declaration in is told whether it changed anything, and a derivation reports how many
declarations did. The answer is put together from five updates, of which the one for exclusions looks at
the sizes of two sets and not at their elements. `OverrideTable.GrowsTo` orders tables by what they record.
As a table only ever grows, one that is in the end what it was in the beginning has not changed in between.
Main statement: a derivation counts the declarations that changed the table when their turn came, and it
leaves the table as it is if and only if there are none.
-/

namespace NearestWins

/-! ## What is said about a change -/

theorem insert_ne_self {α : Type} {map : Std.ExtTreeMap Key α} {key : Key} {value : α}
    (h : map[key]? ≠ some value) : map.insert key value ≠ map := by
  intro hsame
  rw [← hsame, Std.ExtTreeMap.getElem?_insert_self] at h
  exact h rfl

theorem recordFirst_eq_self_iff {α : Type} (map : Std.ExtTreeMap Key α) (key : Key)
    (value : Option α) :
    (recordFirst map key value).1 = map ↔ (recordFirst map key value).2 = false := by
  cases value with
  | none => simp [recordFirst]
  | some v =>
    rw [recordFirst]
    split
    next => simp
    next habsent =>
      have hnew : map[key]? ≠ some v := by
        rw [Std.ExtTreeMap.getElem?_eq_none (by simpa using habsent)]
        exact (Option.some_ne_none v).symm
      simpa using insert_ne_self hnew

theorem recordExclusions_eq_self_iff (map : Std.ExtTreeMap Key ExclusionSet) (key : Key)
    (exclusions : ExclusionSet) :
    (recordExclusions map key exclusions).1 = map ↔
      (recordExclusions map key exclusions).2 = false := by
  simp only [recordExclusions, ExclusionSet.union_eq_left_iff_size_eq]
  split
  next => simp
  next hgrown =>
    -- Whether a set was recorded before or none, it was not the union.
    have hnew : map[key]? ≠ some (map.getD key ∅ ∪ exclusions) := by
      intro hsame
      refine hgrown ?_
      conv_rhs => rw [Std.ExtTreeMap.getD_eq_getD_getElem?, hsame, Option.getD_some]
    simpa using insert_ne_self hnew

/-- A declaration is said to change a table exactly if the table is another one with it. -/
theorem OverrideTable.declare_changes_iff (policy : ScopeHandler) (key : Key) (d : Dependency)
    (t : OverrideTable) : (t.declare policy key d).2 = true ↔ (t.declare policy key d).1 ≠ t := by
  have hsame : (t.declare policy key d).1 = t ↔ (t.declare policy key d).2 = false := by
    cases t
    simp only [declare, OverrideTable.mk.injEq, recordFirst_eq_self_iff,
      recordExclusions_eq_self_iff, Bool.or_eq_false_iff, and_assoc]
  rw [ne_eq, hsame, Bool.not_eq_false]

/-- The declarations that change nothing are those that the entry of their key absorbs. -/
theorem OverrideTable.declare_eq_self_iff {policy : ScopeHandler} {key : Key} {d : Dependency}
    {t : OverrideTable} : (t.declare policy key d).1 = t ↔ (t.entry key).Absorbs policy d := by
  refine ⟨fun hsame => ?_, declare_eq_self⟩
  have hentry := entry_declare policy key d t key
  rw [if_pos rfl, hsame] at hentry
  rw [hentry]
  exact TableEntry.absorbs_declare policy _ d

/-! ## Growth as an order -/

/-- An entry says all that another one says, and has not lost a record of exclusions either. -/
structure TableEntry.GrowsTo (e e' : TableEntry) : Prop extends e.Within e' where
  recorded : e.exclusions.isSome → e'.exclusions.isSome

namespace TableEntry

variable {a b c : TableEntry}

theorem GrowsTo.refl (e : TableEntry) : e.GrowsTo e :=
  ⟨.refl e, id⟩

theorem GrowsTo.trans (h : a.GrowsTo b) (h' : b.GrowsTo c) : a.GrowsTo c :=
  ⟨h.toWithin.trans h'.toWithin, h'.recorded ∘ h.recorded⟩

theorem GrowsTo.antisymm (h : a.GrowsTo b) (h' : b.GrowsTo a) : a = b := by
  have hversion : a.version = b.version := Option.ext fun v => ⟨h.version v, h'.version v⟩
  have hscope : a.scope = b.scope := Option.ext fun v => ⟨h.scope v, h'.scope v⟩
  have hoptional : a.optional = b.optional := Option.ext fun v => ⟨h.optional v, h'.optional v⟩
  have hlocalPath : a.localPath = b.localPath :=
    Option.ext fun v => ⟨h.localPath v, h'.localPath v⟩
  have hsets : a.exclusions.getD ∅ = b.exclusions.getD ∅ := by
    ext x
    exact ⟨h.exclusions x, h'.exclusions x⟩
  have hrecorded : a.exclusions.isSome = b.exclusions.isSome :=
    Bool.eq_iff_iff.mpr ⟨h.recorded, h'.recorded⟩
  have hexclusions : a.exclusions = b.exclusions := by
    revert hsets hrecorded
    cases a.exclusions <;> cases b.exclusions <;> simp
  cases a
  cases b
  congr

theorem growsTo_declare (policy : ScopeHandler) (e : TableEntry) (d : Dependency) :
    e.GrowsTo (e.declare policy d) :=
  ⟨within_declare policy e d, fun h => isSome_exclusions_declare_iff.mpr (Or.inl h)⟩

end TableEntry

namespace OverrideTable

/-- Under each key a table says all that another one says: nothing is lost and nothing is replaced, but
sets of exclusions may have become larger. -/
def GrowsTo (t t' : OverrideTable) : Prop :=
  ∀ k, (t.entry k).GrowsTo (t'.entry k)

variable {a b c : OverrideTable}

theorem GrowsTo.refl (t : OverrideTable) : t.GrowsTo t :=
  fun _ => .refl _

theorem GrowsTo.trans (h : a.GrowsTo b) (h' : b.GrowsTo c) : a.GrowsTo c :=
  fun k => (h k).trans (h' k)

theorem GrowsTo.antisymm (h : a.GrowsTo b) (h' : b.GrowsTo a) : a = b :=
  ext_entry fun k => (h k).antisymm (h' k)

theorem growsTo_declare (policy : ScopeHandler) (key : Key) (d : Dependency) (t : OverrideTable) :
    t.GrowsTo (t.declare policy key d).1 := by
  intro k
  rw [entry_declare]
  split
  next => exact TableEntry.growsTo_declare policy _ d
  next => exact .refl _

/-! ## Turns -/

variable (policy : ScopeHandler) (scheme : KeyScheme)

/-- The table after so many turns: at each turn the next declaration of a list is taken in. -/
def afterTurns (ds : List Dependency) (t : OverrideTable) (turns : Nat) : OverrideTable :=
  (ds.take turns).foldl (fun t d => (t.declare policy (scheme.key d.artifact) d).1) t

theorem afterTurns_zero (ds : List Dependency) (t : OverrideTable) :
    t.afterTurns policy scheme ds 0 = t := rfl

theorem afterTurns_cons (d : Dependency) (rest : List Dependency) (t : OverrideTable) (n : Nat) :
    t.afterTurns policy scheme (d :: rest) (n + 1) =
      (t.declare policy (scheme.key d.artifact) d).1.afterTurns policy scheme rest n := rfl

/-- After the last turn all declarations have been taken in. -/
theorem afterTurns_length (ds : List Dependency) (t : OverrideTable) :
    t.afterTurns policy scheme ds ds.length = (t.declareAll policy scheme ds).1 := by
  induction ds generalizing t with
  | nil => rfl
  | cons d rest ih => rw [List.length_cons, afterTurns_cons, ih, declareAll_cons]

theorem growsTo_afterTurns_succ (ds : List Dependency) (t : OverrideTable) (n : Nat) :
    (t.afterTurns policy scheme ds n).GrowsTo (t.afterTurns policy scheme ds (n + 1)) := by
  rw [afterTurns, afterTurns, List.take_add_one, List.foldl_append]
  cases ds[n]? with
  | none => exact .refl _
  | some d => exact growsTo_declare policy _ d _

/-- From turn to turn a table only grows. -/
theorem growsTo_afterTurns (ds : List Dependency) (t : OverrideTable) {m n : Nat} (h : m ≤ n) :
    (t.afterTurns policy scheme ds m).GrowsTo (t.afterTurns policy scheme ds n) := by
  induction h with
  | refl => exact .refl _
  | step _ ih => exact ih.trans (growsTo_afterTurns_succ policy scheme ds t _)

theorem growsTo_declareAll (ds : List Dependency) (t : OverrideTable) :
    t.GrowsTo (t.declareAll policy scheme ds).1 := by
  rw [← afterTurns_length]
  exact growsTo_afterTurns policy scheme ds t (Nat.zero_le _)

/-! ## The count -/

theorem admitted_declareAll_cons (d : Dependency) (rest : List Dependency) (t : OverrideTable) :
    (t.declareAll policy scheme (d :: rest)).2 =
      ((t.declare policy (scheme.key d.artifact) d).1.declareAll policy scheme rest).2 +
        if (t.declare policy (scheme.key d.artifact) d).1 ≠ t then 1 else 0 := by
  have hchanged : (t.declare policy (scheme.key d.artifact) d).2.toNat =
      if (t.declare policy (scheme.key d.artifact) d).1 ≠ t then 1 else 0 := by
    simp only [← declare_changes_iff]
    cases (t.declare policy (scheme.key d.artifact) d).2 <;> rfl
  rw [← hchanged, declareAll]

/-- The declarations that are counted are those that made a difference at their turn. -/
theorem admitted_declareAll (ds : List Dependency) (t : OverrideTable) :
    (t.declareAll policy scheme ds).2 =
      Nat.count (fun i => t.afterTurns policy scheme ds (i + 1) ≠ t.afterTurns policy scheme ds i)
        ds.length := by
  induction ds generalizing t with
  | nil => rfl
  | cons d rest ih =>
    rw [admitted_declareAll_cons, ih, List.length_cons, Nat.count_succ']
    rfl

/-- A table that is in the end what it was in the beginning was the same at every turn, since it only
grew. -/
theorem declareAll_eq_self_iff (ds : List Dependency) (t : OverrideTable) :
    (t.declareAll policy scheme ds).1 = t ↔ (t.declareAll policy scheme ds).2 = 0 := by
  induction ds generalizing t with
  | nil => exact ⟨fun _ => rfl, fun _ => rfl⟩
  | cons d rest ih =>
    rw [declareAll_cons, admitted_declareAll_cons]
    constructor
    · intro hsame
      -- The table after the first turn lies between the first and the last one, which are the same.
      have hfirst : (t.declare policy (scheme.key d.artifact) d).1 = t := by
        have hrest := growsTo_declareAll policy scheme rest
          (t.declare policy (scheme.key d.artifact) d).1
        rw [hsame] at hrest
        exact hrest.antisymm (growsTo_declare policy _ d t)
      rw [hfirst] at hsame
      rw [hfirst, (ih t).mp hsame, if_neg (not_not_intro rfl)]
    · intro hnone
      obtain ⟨hrest, hchanged⟩ := Nat.add_eq_zero_iff.mp hnone
      have hfirst : (t.declare policy (scheme.key d.artifact) d).1 = t := by
        by_contra hne
        rw [if_pos hne] at hchanged
        exact Nat.one_ne_zero hchanged
      rw [hfirst] at hrest ⊢
      exact (ih t).mpr hrest

end OverrideTable

namespace Snapshot

/-- While declarations are taken in, a derivation reports how many of them were admitted, if there are
any at all. -/
theorem derive_log {s : Snapshot} (hderiving : s.isDeriving) (managed : List Dependency) :
    (s.derive managed).log =
      if managed = [] then []
      else [.derived s.depth (deeper s.depth)
        (s.table.declareAll s.policy s.scheme managed).2 managed.length] := by
  rw [derive, if_pos hderiving]
  simp only [List.isEmpty_iff]

/-- A declaration is said to change a table if and only if it does, which is unless the entry of its key
absorbs it. So a derivation that takes declarations in reports as admitted those that changed the table at
their turn; from turn to turn the table loses nothing and only its sets of exclusions may change, by
growing; and the children have the table of the node if and only if none was admitted. -/
theorem admitted_count_exact :
    (∀ (policy : ScopeHandler) (key : Key) (d : Dependency) (t : OverrideTable),
      ((t.declare policy key d).2 = true ↔ (t.declare policy key d).1 ≠ t) ∧
        ((t.declare policy key d).1 = t ↔ (t.entry key).Absorbs policy d)) ∧
    ∀ (s : Snapshot) (managed : List Dependency), s.isDeriving →
      let child := (s.derive managed).value
      let table := s.table.afterTurns s.policy s.scheme managed
      let admitted := Nat.count (fun i => table (i + 1) ≠ table i) managed.length
      (s.derive managed).log =
          (if managed = [] then []
            else [.derived s.depth child.depth admitted managed.length]) ∧
        table 0 = s.table ∧ table managed.length = child.table ∧
        (∀ i j, i ≤ j → (table i).GrowsTo (table j)) ∧
        (child.table = s.table ↔ admitted = 0) := by
  refine ⟨fun policy key d t => ?_, fun s managed hderiving => ?_⟩
  · exact ⟨t.declare_changes_iff policy key d, OverrideTable.declare_eq_self_iff⟩
  intro child table admitted
  have hcount : (s.table.declareAll s.policy s.scheme managed).2 = admitted :=
    OverrideTable.admitted_declareAll s.policy s.scheme managed s.table
  have htable : child.table = (s.table.declareAll s.policy s.scheme managed).1 := by
    simp only [child, derive_value, if_pos hderiving]
  refine ⟨?_, OverrideTable.afterTurns_zero .., ?_, fun i j hij => ?_, ?_⟩
  · rw [derive_log hderiving, hcount, derive_depth]
  · rw [htable]
    exact OverrideTable.afterTurns_length s.policy s.scheme managed s.table
  · exact OverrideTable.growsTo_afterTurns s.policy s.scheme managed s.table hij
  · rw [htable, ← hcount]
    exact OverrideTable.declareAll_eq_self_iff s.policy s.scheme managed s.table

/-- One library is managed already. Of five declarations two are admitted: one for its scope and one more
exclusion, and one for another library. What comes again, comes too late or says nothing is not. -/
theorem admitted_count_exact_sample :
    let lib (name version scope : String) (excluded : List String) : Dependency :=
      { artifact := { groupId := "g", artifactId := name, version := version }
        scope := scope
        exclusions := .ofList (excluded.map (Exclusion.mk "g" · wildcard wildcard)) }
    let s := ((root .standard .legacy).derive [lib "a" "1" "" ["x"]]).value
    let idle := [lib "a" "2" "" ["x"], lib "b" "" "" []]
    let managed := idle ++ [lib "a" "" "test" ["x", "y"], lib "a" "3" "test" ["y"], lib "b" "1" "" []]
    let changes (ds : List Dependency) (i : Nat) : Prop :=
      s.table.afterTurns s.policy s.scheme ds (i + 1) ≠ s.table.afterTurns s.policy s.scheme ds i
    s.isDeriving ∧ (s.derive managed).log = [.derived 1 2 2 5] ∧
      (changes managed 2 ∧ changes managed 4 ∧ ∀ i < 5, changes managed i → i = 2 ∨ i = 4) ∧
      (s.derive managed).value.table ≠ s.table ∧ (s.derive idle).value.table = s.table := by
  intro lib s idle managed changes
  have hderiving : s.isDeriving := by decide
  obtain ⟨hlog, -, -, -, hsame⟩ := admitted_count_exact.2 s managed hderiving
  obtain ⟨-, -, -, -, hidle⟩ := admitted_count_exact.2 s idle hderiving
  have htwo : Nat.count (fun i => s.table.afterTurns s.policy s.scheme managed (i + 1) ≠
      s.table.afterTurns s.policy s.scheme managed i) managed.length = 2 := by
    decide +kernel
  have hnone : Nat.count (fun i => s.table.afterTurns s.policy s.scheme idle (i + 1) ≠
      s.table.afterTurns s.policy s.scheme idle i) idle.length = 0 := by
    decide +kernel
  rw [htwo] at hlog hsame
  refine ⟨hderiving, hlog, by decide +kernel, fun h => ?_, hidle.mpr hnone⟩
  exact absurd (hsame.mp h) (by decide)

end Snapshot

end NearestWins
