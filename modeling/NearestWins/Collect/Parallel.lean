import NearestWins.Collect.Resolve

/-!
# Parallel expansion

Siblings share the snapshot of their parent and nothing else, so each of them can be expanded by a
task of its own. The results are joined in the order of the siblings, whichever task ends first; the
notes of a task stay together.
-/

namespace NearestWins

variable {ε : Type}

/-- Waits for the tasks in order and keeps the nodes that survived. -/
def joinTasks : List (Task (Traced ε (Option ResolvedNode))) → Traced ε (List ResolvedNode)
  | [] => pure []
  | task :: rest => do
    let node ← task.get
    let others ← joinTasks rest
    pure (node.toList ++ others)

namespace Operations

mutual

/-- Resolves a node together with all that is below it, the children at once. -/
def expandTask (ops : Operations ε) (s : Snapshot) (excluded : ExclusionSet) :
    Node → Traced ε (Option ResolvedNode)
  | node@⟨_, managed, children⟩ => do
    match ← ops.resolve s excluded node with
    | none => pure none
    | some ⟨resolved, inherited⟩ =>
      let childSnapshot ← ops.derive s managed
      let below ← joinTasks (ops.spawnAll childSnapshot inherited children)
      pure (some { resolved with children := below })

/-- One task for each sibling. -/
def spawnAll (ops : Operations ε) (s : Snapshot) (excluded : ExclusionSet) :
    List Node → List (Task (Traced ε (Option ResolvedNode)))
  | [] => []
  | node :: rest =>
    Task.spawn (fun _ => ops.expandTask s excluded node) :: ops.spawnAll s excluded rest

end

/-- The resolved children of a node, all of them at once. -/
def expandParallel (ops : Operations ε) (s : Snapshot) (excluded : ExclusionSet) (node : Node) :
    Traced ε (List ResolvedNode) := do
  let childSnapshot ← ops.derive s node.managed
  joinTasks (ops.spawnAll childSnapshot excluded node.children)

end Operations

end NearestWins
