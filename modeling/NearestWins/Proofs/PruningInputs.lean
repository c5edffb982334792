import NearestWins.Proofs.Alignment

/-!
# What pruning looks at

Whether a node is left out depends on coordinates and exclusions alone. Versions, scopes,
optionality and properties take part in much of what is recorded and applied, and so does the scope
policy, but none of them finds its way into a key, into what an exclusion matches or into a set of
exclusions. `PrunesAlike` relates what agrees on all that pruning looks at, of dependencies and of
snapshots. Main statement: over trees that agree on it, whatever else they declare and whatever the
policies are, the same nodes survive and have the same exclusions.
-/

namespace NearestWins

/-- Two dependencies that no exclusion tells apart and that exclude the same. -/
structure Dependency.PrunesAlike (d d' : Dependency) : Prop where
  groupId : d'.artifact.groupId = d.artifact.groupId
  artifactId : d'.artifact.artifactId = d.artifact.artifactId
  classifier : d'.artifact.classifier = d.artifact.classifier
  extension : d'.artifact.extension = d.artifact.extension
  exclusions : d'.exclusions = d.exclusions

namespace Dependency.PrunesAlike

variable {d d' : Dependency}

theorem symm (h : d.PrunesAlike d') : d'.PrunesAlike d :=
  ⟨h.groupId.symm, h.artifactId.symm, h.classifier.symm, h.extension.symm, h.exclusions.symm⟩

theorem key (h : d.PrunesAlike d') (scheme : KeyScheme) :
    scheme.key d.artifact = scheme.key d'.artifact := by
  cases scheme with
  | full => rw [KeyScheme.key, KeyScheme.key, h.groupId, h.artifactId, h.classifier, h.extension]
  | groupArtifact => rw [KeyScheme.key, KeyScheme.key, h.groupId, h.artifactId]

theorem excludes (h : d.PrunesAlike d') (x : Exclusion) :
    x.excludes d.artifact = x.excludes d'.artifact := by
  rw [Exclusion.excludes, Exclusion.excludes, h.groupId, h.artifactId, h.classifier, h.extension]

end Dependency.PrunesAlike

namespace Snapshot

/-- Two snapshots in step that have recorded the same exclusions. Their policies may differ: they only
decide on local paths. -/
def PrunesAlike : Snapshot → Snapshot → Prop :=
  InStep fun e e' => e'.exclusions = e.exclusions

namespace PrunesAlike

variable {m m' : Snapshot} {d d' : Dependency}

theorem symm (h : m.PrunesAlike m') : m'.PrunesAlike m :=
  ⟨h.depth.symm, h.thresholds.symm, h.scheme.symm, fun k => (h.entries k).symm⟩

theorem derive {l l' : List Dependency} (h : m.PrunesAlike m')
    (hl : List.Forall₂ Dependency.PrunesAlike l l') :
    (m.derive l).value.PrunesAlike (m'.derive l').value := by
  refine InStep.derive h (fun d d' hd => hd.key m.scheme) (fun e e' he d d' hd => ?_) hl
  rw [TableEntry.declare, TableEntry.declare, he, hd.exclusions]

theorem effective (h : m.PrunesAlike m') (hd : d.PrunesAlike d') :
    (m'.effective d').exclusions = (m.effective d).exclusions := by
  have hchange : (m'.change d').exclusions = (m.change d).exclusions := by
    rw [change, change, InStep.isApplying h]
    split
    next =>
      have hentry := h.entries (m.scheme.key d.artifact)
      rw [overrides, overrides, h.scheme, ← hd.key m.scheme]
      exact hentry
    next => rfl
  rw [effective_eq_change, effective_eq_change, Override.applyTo, Override.applyTo, hchange,
    hd.exclusions]

theorem aligned : Aligned PrunesAlike Dependency.PrunesAlike where
  derive h hl := h.derive hl
  excludes hd x := hd.excludes x
  exclusions h hd x hx := by
    rw [h.effective hd]
    exact hx

end PrunesAlike

/-- Pruning looks at coordinates and exclusions alone: over two trees of the same shape that agree
on them, with any other declarations and under any two policies, the same nodes survive, and with
the same exclusions. -/
theorem survivors_determined_by_coordinates (preset : Preset) (scheme : KeyScheme)
    (policy policy' : ScopeHandler) {tree tree' : Node}
    (h : Node.Matched Dependency.PrunesAlike tree tree') (traversal : Traversal) (place : List Nat) :
    let found := ((root preset policy).withScheme scheme).counterpart tree traversal place
    let found' := ((root preset policy').withScheme scheme).counterpart tree' traversal place
    (found.isSome ↔ found'.isSome) ∧
      ∀ r r', found = some r → found' = some r' → r'.dependency.exclusions = r.dependency.exclusions := by
  intro found found'
  have hroot : ((root preset policy).withScheme scheme).PrunesAlike
      ((root preset policy').withScheme scheme) := ⟨rfl, rfl, rfl, fun _ => rfl⟩
  have hback := Node.Matched.symm (fun _ _ hd => hd.symm) h
  obtain ⟨hleft, hrecords⟩ := counterpart_aligned PrunesAlike.aligned hroot h traversal traversal place
  obtain ⟨hright, -⟩ :=
    counterpart_aligned PrunesAlike.aligned hroot.symm hback traversal traversal place
  refine ⟨⟨hright, hleft⟩, fun r r' hr hr' => ?_⟩
  obtain ⟨m, m', d, d', hm, hd, hrecord, hrecord'⟩ := hrecords r r' hr hr'
  have hexclusions := hm.effective hd
  rw [resolved_manage] at hrecord hrecord'
  have hdependency : r.dependency = m.effective d := congrArg ResolvedNode.dependency hrecord
  have hdependency' : r'.dependency = m'.effective d' := congrArg ResolvedNode.dependency hrecord'
  rw [hdependency, hdependency', hexclusions]

/-- A managed exclusion leaves the lowest node out, whatever versions and scopes the two trees
declare, and although only the second one is in system scope anywhere. -/
theorem survivors_determined_by_coordinates_sample :
    let lib (name version scope : String) (excluded : List String) : Dependency :=
      { artifact := { groupId := "g", artifactId := name, version := version }
        scope := scope
        exclusions := .ofList (excluded.map (Exclusion.mk "g" · wildcard wildcard)) }
    let tree (version scope : String) : Node :=
      { managed := [lib "b" version scope ["x"]]
        children := [
          { dependency := some (lib "a" version scope [])
            children := [
              { dependency := some (lib "b" "" "" [])
                children := [{ dependency := some (lib "x" version scope []) }] }] }] }
    let policy' : ScopeHandler := .labelSet (.ofList ["local"]) "path"
    let found := ((root .standard .legacy).withScheme .full).counterpart (tree "1" "test") .depthFirst
    let found' := ((root .standard policy').withScheme .full).counterpart (tree "2" "local") .depthFirst
    Node.Matched Dependency.PrunesAlike (tree "1" "test") (tree "2" "local") ∧
      (found [0, 0, 0]).isNone ∧ ((found [0, 0, 0]).isSome ↔ (found' [0, 0, 0]).isSome) ∧
      ∃ r r', found [0, 0] = some r ∧ found' [0, 0] = some r' ∧ r.system = false ∧ r'.system = true ∧
        r'.dependency.exclusions = r.dependency.exclusions := by
  intro lib tree policy' found found'
  have hlib : ∀ name version version' scope scope' excluded,
      (lib name version scope excluded).PrunesAlike (lib name version' scope' excluded) := by
    intro name version version' scope scope' excluded
    exact ⟨rfl, rfl, rfl, rfl, rfl⟩
  have hlowest : Node.Matched Dependency.PrunesAlike { dependency := some (lib "x" "1" "test" []) }
      { dependency := some (lib "x" "2" "local" []) } :=
    .node (.some (hlib _ _ _ _ _ _)) .nil .nil
  have hmatched : Node.Matched Dependency.PrunesAlike (tree "1" "test") (tree "2" "local") :=
    .node .none (.cons (hlib _ _ _ _ _ _) .nil)
      (.cons (.node (.some (hlib _ _ _ _ _ _)) .nil
        (.cons (.node (.some (hlib _ _ _ _ _ _)) .nil (.cons hlowest .nil)) .nil)) .nil)
  obtain ⟨r, hr, hsystem⟩ : ∃ r, found [0, 0] = some r ∧ r.system = false :=
    Option.map_eq_some_iff.mp (by decide +kernel)
  obtain ⟨r', hr', hsystem'⟩ : ∃ r', found' [0, 0] = some r' ∧ r'.system = true :=
    Option.map_eq_some_iff.mp (by decide +kernel)
  have hlower := survivors_determined_by_coordinates .standard .full .legacy policy' hmatched
    .depthFirst [0, 0, 0]
  have hupper := survivors_determined_by_coordinates .standard .full .legacy policy' hmatched
    .depthFirst [0, 0]
  exact ⟨hmatched, by decide +kernel, hlower.1, r, r', hr, hr', hsystem, hsystem',
    hupper.2 r r' hr hr'⟩

end Snapshot

end NearestWins
