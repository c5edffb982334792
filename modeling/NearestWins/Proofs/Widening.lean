import NearestWins.Proofs.Alignment
import NearestWins.Proofs.EntryGrowth

/-!
# Wider thresholds

Thresholds are wider if declarations are taken in down to a deeper level and overrides are applied from
a shallower level on. What was recorded first stays, so the snapshots of the wider run say all that those
of the narrower run say: the same ones as long as the narrower run takes declarations in, and more once it
has stopped. Main statement: widening the thresholds keeps what was managed and only adds exclusions, which
may leave out more nodes.
-/

namespace NearestWins

namespace Snapshot

/-! ## Snapshots of the two runs -/

/-- Two snapshots at the same depth, the second one of a run with wider thresholds. -/
structure Narrower (m m' : Snapshot) : Prop where
  depth : m'.depth = m.depth
  depth_le : m.depth ≤ unboundedDepth
  scheme : m'.scheme = m.scheme
  policy : m'.policy = m.policy
  deriveUntil : m.thresholds.deriveUntil ≤ m'.thresholds.deriveUntil
  applyFrom : m'.thresholds.applyFrom ≤ m.thresholds.applyFrom
  /-- The runs part only when the narrower one stops taking declarations in. -/
  table : m.isDeriving → m'.table = m.table
  entries : ∀ k, (m.table.entry k).Within (m'.table.entry k)

theorem le_deeper {depth : Nat} (h : depth ≤ unboundedDepth) : depth ≤ deeper depth := by
  rw [deeper]
  omega

namespace Narrower

variable {m m' : Snapshot}

theorem isDeriving (h : Narrower m m') (hderiving : m.isDeriving) : m'.isDeriving := by
  have hdepth := h.depth
  have hlimit := h.deriveUntil
  rw [isDeriving_iff] at hderiving ⊢
  omega

theorem isApplying (h : Narrower m m') (happlying : m.isApplying) : m'.isApplying := by
  have hdepth := h.depth
  have hlimit := h.applyFrom
  rw [isApplying_iff] at happlying ⊢
  omega

theorem derive (h : Narrower m m') (managed : List Dependency) :
    Narrower (m.derive managed).value (m'.derive managed).value := by
  have hsame : m.isDeriving → (m'.derive managed).value.table = (m.derive managed).value.table := by
    intro hderiving
    rw [derive_value, derive_value, if_pos hderiving, if_pos (h.isDeriving hderiving),
      h.table hderiving, h.policy, h.scheme]
  constructor
  · rw [derive_depth, derive_depth, h.depth]
  · rw [derive_depth]
    exact Nat.min_le_right _ _
  · rw [derive_scheme, derive_scheme, h.scheme]
  · rw [derive_policy, derive_policy, h.policy]
  · rw [derive_thresholds, derive_thresholds]
    exact h.deriveUntil
  · rw [derive_thresholds, derive_thresholds]
    exact h.applyFrom
  · intro hderiving
    -- A run that has stopped taking declarations in does not start again.
    have hdepth := le_deeper h.depth_le
    rw [isDeriving_iff, derive_depth, derive_thresholds] at hderiving
    exact hsame (isDeriving_iff.mpr (by omega))
  · intro k
    by_cases hderiving : m.isDeriving
    · rw [hsame hderiving]
      exact .refl _
    · have hgrows : (m'.table.entry k).Within ((m'.derive managed).value.table.entry k) := by
        rw [derive_value]
        split
        next => exact OverrideTable.within_declareAll _ _ managed _ k
        next => exact .refl _
      rw [derive_value, if_neg hderiving]
      exact (h.entries k).trans hgrows

theorem change (h : Narrower m m') (d : Dependency) :
    (∀ v, (m.change d).version = some v → (m'.change d).version = some v) ∧
      (∀ v, (m.change d).scope = some v → (m'.change d).scope = some v) ∧
      (∀ v, (m.change d).optional = some v → (m'.change d).optional = some v) ∧
      ∀ x ∈ (m.change d).exclusions.getD ∅, x ∈ (m'.change d).exclusions.getD ∅ := by
  by_cases happlying : m.isApplying
  · have hentry := h.entries (m.scheme.key d.artifact)
    have happlying' := h.isApplying happlying
    simp only [Snapshot.change, happlying, happlying', if_true, overrides, h.scheme]
    exact ⟨hentry.version, hentry.scope, hentry.optional, hentry.exclusions⟩
  · simp [Snapshot.change, happlying]

theorem aligned : Aligned Narrower Eq where
  derive h hl := by
    rw [List.forall₂_eq_eq_eq] at hl
    rw [← hl]
    exact h.derive _
  excludes hd x := by rw [hd]
  exclusions h hd x hx := by
    rw [← hd]
    rw [effective_eq_change] at hx ⊢
    simp only [Override.applyTo, Std.ExtTreeSet.mem_union_iff] at hx ⊢
    exact hx.imp id ((h.change _).2.2.2 x)

end Narrower

end Snapshot

/-- All that is managed in a record is managed in another one to the same value, and the other one has
at least its exclusions. -/
structure ResolvedNode.ManagedWithin (r r' : ResolvedNode) : Prop where
  version : r.managed.version →
    r'.managed.version ∧ r'.dependency.artifact.version = r.dependency.artifact.version
  scope : r.managed.scope → r'.managed.scope ∧ r'.dependency.scope = r.dependency.scope
  optional : r.managed.optional → r'.managed.optional ∧ r'.dependency.optional = r.dependency.optional
  exclusions : ∀ x ∈ r.dependency.exclusions, x ∈ r'.dependency.exclusions

namespace Snapshot

theorem Narrower.managedWithin {m m' : Snapshot} (h : Narrower m m') (d : Dependency) :
    (m.resolved d (m.manage d).value).ManagedWithin (m'.resolved d (m'.manage d).value) := by
  obtain ⟨hversion, hscope, hoptional, -⟩ := h.change d
  rw [resolved_manage, resolved_manage]
  constructor
  · intro hmanaged
    obtain ⟨v, hv⟩ := Option.isSome_iff_exists.mp hmanaged
    simp [effective_eq_change, Override.applyTo, Override.fields, hv, hversion v hv]
  · intro hmanaged
    obtain ⟨v, hv⟩ := Option.isSome_iff_exists.mp hmanaged
    simp [effective_eq_change, Override.applyTo, Override.fields, hv, hscope v hv]
  · intro hmanaged
    obtain ⟨v, hv⟩ := Option.isSome_iff_exists.mp hmanaged
    simp [effective_eq_change, Override.applyTo, Override.fields, hv, hoptional v hv]
  · exact Narrower.aligned.exclusions h rfl

/-- Widening the thresholds of a run from the root is monotone: what survives under the wider ones
survives under the narrower ones, and where both have a counterpart, all that is managed under the narrower
ones is managed under the wider ones to the same value, with at least the same exclusions. -/
theorem collect_wider {narrow wide : Thresholds} (hderive : narrow.deriveUntil ≤ wide.deriveUntil)
    (happly : wide.applyFrom ≤ narrow.applyFrom) (scheme : KeyScheme) (policy : ScopeHandler)
    (tree : Node) (traversal : Traversal) (place : List Nat) :
    let found (thresholds : Thresholds) :=
      ((root (.custom thresholds) policy).withScheme scheme).counterpart tree traversal place
    ((found wide).isSome → (found narrow).isSome) ∧
      ∀ r r', found narrow = some r → found wide = some r' → r.ManagedWithin r' := by
  intro found
  let run (thresholds : Thresholds) := (root (.custom thresholds) policy).withScheme scheme
  have hroot : Narrower (run narrow) (run wide) :=
    { depth := rfl
      depth_le := Nat.zero_le _
      scheme := rfl
      policy := rfl
      deriveUntil := hderive
      applyFrom := happly
      table := fun _ => rfl
      entries := fun k => .refl _ }
  obtain ⟨hsurvives, hrecords⟩ := counterpart_aligned Narrower.aligned hroot tree.matched_self
    traversal traversal place
  refine ⟨hsurvives, fun r r' hr hr' => ?_⟩
  obtain ⟨m, m', d, _, hm, rfl, hrecord, hrecord'⟩ := hrecords r r' hr hr'
  have hwithin := hm.managedWithin d
  rw [← hrecord, ← hrecord'] at hwithin
  exact ⟨hwithin.version, hwithin.scope, hwithin.optional, hwithin.exclusions⟩

/-- Applied from depth 2 on and derived from the root alone, management gives the lower node a version and
leaves nothing out. Applied everywhere and derived from one level more, it gives the node the same version
and an exclusion, and what is below is left out. -/
theorem collect_wider_sample :
    let lib (name version : String) (excluded : List String) : Dependency :=
      { artifact := { groupId := "g", artifactId := name, version := version }
        exclusions := .ofList (excluded.map (Exclusion.mk "g" · wildcard wildcard)) }
    let tree : Node :=
      { managed := [lib "b" "3" []]
        children := [
          { dependency := some (lib "a" "1" [])
            managed := [lib "b" "4" ["x"]]
            children := [
              { dependency := some (lib "b" "1" [])
                children := [{ dependency := some (lib "x" "1" []) }] }] }] }
    let narrow : Thresholds := ⟨1, 2⟩
    let wide : Thresholds := ⟨2, 0⟩
    let found (thresholds : Thresholds) :=
      ((root (.custom thresholds) .legacy).withScheme .full).counterpart tree .depthFirst
    narrow.deriveUntil ≤ wide.deriveUntil ∧ wide.applyFrom ≤ narrow.applyFrom ∧
      (found narrow [0, 0, 0]).isSome ∧ (found wide [0, 0, 0]).isNone ∧
      ∃ r r', found narrow [0, 0] = some r ∧ found wide [0, 0] = some r' ∧ r.managed.version ∧
        r.ManagedWithin r' := by
  intro lib tree narrow wide found
  obtain ⟨r, hr, hmanaged⟩ : ∃ r, found narrow [0, 0] = some r ∧ r.managed.version = true :=
    Option.map_eq_some_iff.mp (by decide +kernel)
  obtain ⟨r', hr'⟩ : ∃ r', found wide [0, 0] = some r' :=
    Option.isSome_iff_exists.mp (by decide +kernel)
  have hderive : narrow.deriveUntil ≤ wide.deriveUntil := by decide
  have happly : wide.applyFrom ≤ narrow.applyFrom := by decide
  have hwider := collect_wider hderive happly .full .legacy tree .depthFirst [0, 0]
  exact ⟨hderive, happly, by decide +kernel, by decide +kernel, r, r', hr, hr', hmanaged,
    hwider.2 r r' hr hr'⟩

end Snapshot

end NearestWins
