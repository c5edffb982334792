import NearestWins.Proofs.Frontier

/-!
# The orders of traversal agree

A forest is collected in one of three orders. Main statement: the order does not matter to the forest.
-/

namespace NearestWins.Snapshot

/-- Whatever the order, the collected forest is the depth-first expansion of the root. -/
theorem value_collect (s : Snapshot) (tree : Node) (traversal : Traversal) :
    (s.collect tree traversal).value = (s.expand ∅ tree).value := by
  cases traversal with
  | depthFirst => rfl
  | breadthFirst => exact s.value_expandBreadthFirst tree
  | parallel => exact s.value_expandParallel ∅ tree

/-- Snapshots that resolve nodes alike collect the same forests. -/
theorem ResolvingAlike.value_collect {S : Snapshot → Snapshot → Prop} (A : ResolvingAlike S)
    {m m' : Snapshot} (h : S m m') (tree : Node) (traversal : Traversal) :
    (m'.collect tree traversal).value = (m.collect tree traversal).value := by
  rw [Snapshot.value_collect, Snapshot.value_collect, value_expand, value_expand]
  exact A.filterMap_expandNode (A.derive tree.managed h) ∅ tree.children

/-- Any two orders of traversal collect the same forest. -/
theorem collect_order_irrelevant (s : Snapshot) (tree : Node) (first second : Traversal) :
    (s.collect tree first).value = (s.collect tree second).value := by
  rw [value_collect, value_collect]

end NearestWins.Snapshot
