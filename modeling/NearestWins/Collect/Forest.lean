import NearestWins.Collect.BreadthFirst
import NearestWins.Collect.DepthFirst
import NearestWins.Collect.Parallel

/-!
# Resolved forests

Expanding a whole tree from a root snapshot: the children of the root in one of three orders. The
orders differ in when a node is resolved, not in what it is resolved to.
-/

namespace NearestWins

/-- The resolved forest below the root of a tree, in the order of a traversal. -/
def Operations.expansion {ε : Type} (ops : Operations ε) (s : Snapshot) (tree : Node) :
    Traversal → Traced ε (List ResolvedNode)
  | .depthFirst => ops.expand s ∅ tree
  | .breadthFirst => ops.expandBreadthFirst s tree
  | .parallel => ops.expandParallel s ∅ tree

/-- Collects the resolved forest below the root of a tree. -/
def Snapshot.collect (s : Snapshot) (tree : Node) (traversal : Traversal) :
    Logged (List ResolvedNode) := do
  Logged.report (.collecting tree.descendants traversal s.depth)
  Operations.reporting.expansion s tree traversal

end NearestWins
