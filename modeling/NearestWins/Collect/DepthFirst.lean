import NearestWins.Collect.Resolve

/-!
# Depth-first expansion

The plain way to expand a tree: derive the snapshot for the children of a node, then resolve them
one after the other, each with all that is below it.
-/

namespace NearestWins

namespace Operations

variable {ε : Type}

mutual

/-- The resolved children of a node that has this snapshot, below these exclusions. -/
def expand (ops : Operations ε) (s : Snapshot) (excluded : ExclusionSet) :
    Node → Traced ε (List ResolvedNode)
  | ⟨_, managed, children⟩ => do
    let childSnapshot ← ops.derive s managed
    ops.expandAll childSnapshot excluded children

/-- The resolved nodes of siblings under one snapshot. -/
def expandAll (ops : Operations ε) (s : Snapshot) (excluded : ExclusionSet) :
    List Node → Traced ε (List ResolvedNode)
  | [] => pure []
  | node :: rest => do
    match ← ops.resolve s excluded node with
    | none => ops.expandAll s excluded rest
    | some ⟨resolved, inherited⟩ =>
      let below ← ops.expand s inherited node
      let others ← ops.expandAll s excluded rest
      pure ({ resolved with children := below } :: others)

end

end Operations

/-- The resolved children of a node, found depth-first, with the events of finding them. -/
def Snapshot.expand (s : Snapshot) (excluded : ExclusionSet) (node : Node) :
    Logged (List ResolvedNode) :=
  Operations.reporting.expand s excluded node

end NearestWins
