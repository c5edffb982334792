import NearestWins.Collect.ResolvedNode
import NearestWins.Management.Snapshot

/-!
# Resolving one node

A node is resolved with the snapshot of its parent's children and the exclusions of its ancestors.
It is left out when it carries no dependency or when an ancestor excludes it; otherwise its
dependency is managed, and the exclusions that it then has join those its own descendants inherit.

Expanding a tree takes nothing but resolving nodes and deriving snapshots. The expansions get both
as `Operations`, so that what is noted each time is no matter of theirs.
-/

namespace NearestWins

/-- A node resolved on its own, with the exclusions that hold below it. -/
structure Resolution where
  /-- The node, without children yet. -/
  node : ResolvedNode
  /-- The exclusions that hold below the node. -/
  inherited : ExclusionSet

/-- A declared value, if it is not the one after management. -/
def premanaged (declared effective : String) : Option String :=
  if effective = declared then none else some declared

/-- The resolved node of a dependency under given overrides. -/
def Snapshot.resolved (s : Snapshot) (declared : Dependency) (change : Option Override) :
    ResolvedNode :=
  let effective := change.elim declared (·.applyTo declared)
  { dependency := effective
    premanagedVersion := premanaged declared.artifact.version effective.artifact.version
    premanagedScope := premanaged declared.scope effective.scope
    depth := s.depth
    managed := change.elim {} Override.fields
    system := s.policy.isSystemDependency effective }

/-- Resolves a node below ancestors with these exclusions, or leaves it out. -/
def Snapshot.resolve (s : Snapshot) (excluded : ExclusionSet) (node : Node) :
    Logged (Option Resolution) :=
  match node.dependency with
  | none => pure none
  | some declared =>
    match excluded.firstMatch declared.artifact with
    | some exclusion =>
      { value := none, log := [.excluding declared.artifact exclusion] }
    | none => do
      let change ← s.manage declared
      let resolved := s.resolved declared change
      pure (some ⟨resolved, excluded ∪ resolved.dependency.exclusions⟩)

/-- How nodes are resolved and snapshots derived, with what is noted each time. -/
structure Operations (ε : Type) where
  /-- Resolves a node below ancestors with these exclusions, or leaves it out. -/
  resolve : Snapshot → ExclusionSet → Node → Traced ε (Option Resolution)
  /-- Derives the snapshot for the children of a node with these declarations. -/
  derive : Snapshot → List Dependency → Traced ε Snapshot

namespace Operations

/-- The operations that note the events they report. -/
def reporting : Operations Event where
  resolve := Snapshot.resolve
  derive := Snapshot.derive

@[simp] theorem resolve_reporting : reporting.resolve = Snapshot.resolve := rfl

@[simp] theorem derive_reporting : reporting.derive = Snapshot.derive := rfl

end Operations

end NearestWins
