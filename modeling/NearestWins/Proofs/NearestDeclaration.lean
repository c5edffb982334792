import NearestWins.Proofs.Application
import NearestWins.Proofs.Lineage

/-!
# The nearest declaration wins

What a snapshot answers after any run of derivations from the root. Main statement: its entries are
what the admitted declarations come to key by key, the first ones in the order of the run being those
nearest to the root, and they are what `manage` answers with, from the depth on at which overrides
are applied.
-/

namespace NearestWins.Snapshot

/-- Where overrides are applied, the answer for a dependency is the entry of its key, but for the
properties. -/
theorem getD_manage_entry {s : Snapshot} (d : Dependency) (h : s.isApplying) :
    let o := (s.manage d).value.getD {}
    let e := s.table.entry (s.scheme.key d.artifact)
    o.version = e.version ∧ o.scope = e.scope ∧ o.optional = e.optional ∧
      o.exclusions = e.exclusions := by
  rw [getD_manage d h]
  exact ⟨rfl, rfl, rfl, rfl⟩

/-- After any run of derivations from the root, each entry is what the admitted declarations for its
key come to; nothing is answered below the depth of application, and these entries from there on. -/
theorem nearest_declaration_wins (preset : Preset) (scheme : KeyScheme) (policy : ScopeHandler)
    (lists : List (List Dependency)) :
    let s := ((root preset policy).withScheme scheme).deriveAll lists
    let nearest k := TableEntry.nearest policy
      ((admitted preset.thresholds.deriveUntil lists).filter (scheme.key ·.artifact = k))
    s.depth = min lists.length unboundedDepth ∧ (∀ k, s.table.entry k = nearest k) ∧
      ∀ d, if s.depth < preset.thresholds.applyFrom then (s.manage d).value = none
        else
          let o := (s.manage d).value.getD {}
          let e := nearest (scheme.key d.artifact)
          o.version = e.version ∧ o.scope = e.scope ∧ o.optional = e.optional ∧
            o.exclusions = e.exclusions := by
  intro s nearest
  have hentry : ∀ k, s.table.entry k = nearest k := entry_deriveAll_root preset scheme policy lists
  have hscheme : s.scheme = scheme := deriveAll_scheme _ lists
  have happlying : s.isApplying = decide (preset.thresholds.applyFrom ≤ s.depth) := by
    rw [isApplying, deriveAll_thresholds]
    rfl
  refine ⟨depth_deriveAll_root preset scheme policy lists, hentry, fun d => ?_⟩
  split
  next h =>
    exact manage_of_not_applying d (by simpa [happlying] using h)
  next h =>
    have happlies : s.isApplying := by simpa [happlying] using h
    have hanswer := getD_manage_entry d happlies
    rwa [hscheme, hentry] at hanswer

end NearestWins.Snapshot
