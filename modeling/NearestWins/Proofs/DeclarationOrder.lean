import NearestWins.Proofs.EntryGrowth

/-!
# The order of declarations

What a derivation takes in is told key by key: declarations for different keys do not see each other, and
one that was taken in has nothing to add when it comes again. Main statement: only the order of the
declarations for each single key matters to a derivation, and repeated declarations do not matter at all,
neither in the same list nor further down the lineage.
-/

namespace NearestWins

namespace OverrideTable

variable {policy : ScopeHandler} {scheme : KeyScheme}

theorem declareAll_congr {a b : List Dependency}
    (h : ∀ k, a.filter (scheme.key ·.artifact = k) = b.filter (scheme.key ·.artifact = k))
    (t : OverrideTable) :
    (t.declareAll policy scheme a).1 = (t.declareAll policy scheme b).1 := by
  refine ext_entry fun k => ?_
  rw [entry_declareAll, entry_declareAll, h k]

/-- A declaration that is repeated changes nothing, however much comes in between. -/
theorem declareAll_repeated {first : List Dependency} {d : Dependency} (hd : d ∈ first)
    (after : List Dependency) (t : OverrideTable) :
    (t.declareAll policy scheme (first ++ d :: after)).1 =
      (t.declareAll policy scheme (first ++ after)).1 := by
  have hrepeated := declare_eq_self (absorbs_declareAll policy scheme hd t)
  rw [declareAll_append, declareAll_append, declareAll_cons, hrepeated]

end OverrideTable

namespace Snapshot

theorem derive_congr {s : Snapshot} {a b : List Dependency}
    (h : (s.table.declareAll s.policy s.scheme a).1 = (s.table.declareAll s.policy s.scheme b).1) :
    (s.derive a).value = (s.derive b).value := by
  rw [derive_value, derive_value, h]

/-- What was taken in once is absorbed from there on, wherever its scheme is in force. -/
theorem table_derive_again {s : Snapshot} (hderiving : s.isDeriving) (managed : List Dependency)
    (steps : List Step) (hscheme : ((s.derive managed).value.follow steps).scheme = s.scheme) :
    let m := (s.derive managed).value.follow steps
    (m.derive managed).value.table = m.table := by
  intro m
  have hpolicy : m.policy = s.policy := by
    rw [follow_policy, derive_policy]
  have htaken : (s.derive managed).value.table =
      (s.table.declareAll s.policy s.scheme managed).1 := by
    rw [derive_value, if_pos hderiving]
  have habsorbs : ∀ d ∈ managed, (m.table.entry (m.scheme.key d.artifact)).Absorbs m.policy d := by
    intro d hd
    have hfirst := OverrideTable.absorbs_declareAll s.policy s.scheme hd s.table
    rw [← htaken] at hfirst
    rw [hscheme, hpolicy]
    exact hfirst.within (within_follow _ steps _)
  rw [derive_value]
  split
  next => exact OverrideTable.declareAll_eq_self habsorbs
  next => rfl

/-- Lists of declarations that are the same key by key derive the same snapshot, and so do lists of which
one repeats what the other says once. A list that was taken in leaves the table as it is when it is derived
again further down the lineage. -/
theorem declaration_order_irrelevant (s : Snapshot) :
    (∀ a b : List Dependency,
        (∀ k, a.filter (s.scheme.key ·.artifact = k) = b.filter (s.scheme.key ·.artifact = k)) →
        (s.derive a).value = (s.derive b).value) ∧
      (∀ (first after : List Dependency), ∀ d ∈ first,
        (s.derive (first ++ d :: after)).value = (s.derive (first ++ after)).value) ∧
      ∀ (managed : List Dependency) (steps : List Step), s.isDeriving →
        let m := (s.derive managed).value.follow steps
        m.scheme = s.scheme → (m.derive managed).value.table = m.table := by
  refine ⟨fun a b h => ?_, fun first after d hd => ?_, fun managed steps hderiving => ?_⟩
  · exact derive_congr (OverrideTable.declareAll_congr h s.table)
  · exact derive_congr (OverrideTable.declareAll_repeated hd after s.table)
  · exact table_derive_again hderiving managed steps

/-- Declarations for two artifacts change places, one of them is repeated, and both are derived once more
after a level at which something else is declared. -/
theorem declaration_order_irrelevant_sample :
    let lib (name version : String) : Dependency :=
      { artifact := { groupId := "g", artifactId := name, version := version } }
    let a := lib "a" "1"
    let b := lib "b" "2"
    let s := root .standard .legacy
    let m := (s.derive [a, b]).value.follow [.derive [lib "c" "3"]]
    (∀ k, [a, b].filter (s.scheme.key ·.artifact = k) = [b, a].filter (s.scheme.key ·.artifact = k)) ∧
      (s.derive [a, b]).value = (s.derive [b, a]).value ∧
      (s.derive ([a, b] ++ [a])).value = (s.derive ([a, b] ++ [])).value ∧
      s.isDeriving ∧ m.scheme = s.scheme ∧ (m.derive [a, b]).value.table = m.table := by
  intro lib a b s m
  obtain ⟨horder, hrepeated, hagain⟩ := declaration_order_irrelevant s
  have hkeys : ∀ k, [a, b].filter (s.scheme.key ·.artifact = k) =
      [b, a].filter (s.scheme.key ·.artifact = k) := by
    intro k
    have hne : s.scheme.key a.artifact ≠ s.scheme.key b.artifact := by decide
    by_cases ha : s.scheme.key a.artifact = k
    · simp [ha, ha ▸ Ne.symm hne]
    · simp [List.filter_cons, ha]
  have hderiving : s.isDeriving := by decide
  exact ⟨hkeys, horder _ _ hkeys, hrepeated [a, b] [] a List.mem_cons_self, hderiving, rfl,
    hagain [a, b] [.derive [lib "c" "3"]] hderiving rfl⟩

end Snapshot

end NearestWins
