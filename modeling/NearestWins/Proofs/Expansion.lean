import NearestWins.Collect.Forest

/-!
# The value of an expansion

The three expansions report their events in different orders. What they compute is a matter of
single nodes: `Snapshot.expandNode` says what becomes of one node with everything below it, and the
expansion of siblings keeps those of them that survive, in their order.
-/

namespace NearestWins

instance : Inhabited ResolvedNode :=
  ⟨{ dependency := { artifact := { groupId := "", artifactId := "" } }, depth := 0, system := false }⟩

/-- A resolved node without its children. -/
def ResolvedNode.alone (node : ResolvedNode) : ResolvedNode :=
  { node with children := [] }

theorem ResolvedNode.alone_with_children (node : ResolvedNode) :
    { node.alone with children := node.children } = node := by
  cases node
  rfl

theorem ExclusionSet.firstMatch_eq_none_iff {set : ExclusionSet} {a : Artifact} :
    set.firstMatch a = none ↔ ∀ e ∈ set, e.excludes a = false := by
  simp [firstMatch, List.find?_eq_none]

namespace Snapshot

open Operations hiding expand

/-- A node with all that survives below it, or `none` when the node is left out. -/
def expandNode (s : Snapshot) (excluded : ExclusionSet) (node : Node) : Option ResolvedNode :=
  (s.resolve excluded node).value.map fun r =>
    { r.node with children := (s.expand r.inherited node).value }

/-- A node that carries a dependency is resolved if no inherited exclusion matches, to what management
makes of the dependency, whose exclusions then join the inherited ones. -/
theorem value_resolve (s : Snapshot) (excluded : ExclusionSet) {node : Node} {d : Dependency}
    (hd : node.dependency = some d) :
    (s.resolve excluded node).value =
      if (excluded.firstMatch d.artifact).isNone then
        some ⟨s.resolved d (s.manage d).value,
          excluded ∪ (s.resolved d (s.manage d).value).dependency.exclusions⟩
      else none := by
  rw [resolve, hd]
  cases h : excluded.firstMatch d.artifact with
  | none => simp [h]
  | some x => simp [h]

/-- So a node survives if it carries a dependency that no inherited exclusion is met by. -/
theorem resolve_eq_some_iff {s : Snapshot} {excluded : ExclusionSet} {node : Node}
    {r : Resolution} :
    (s.resolve excluded node).value = some r ↔
      ∃ d, node.dependency = some d ∧ (∀ e ∈ excluded, e.excludes d.artifact = false) ∧
        r = ⟨s.resolved d (s.manage d).value,
          excluded ∪ (s.resolved d (s.manage d).value).dependency.exclusions⟩ := by
  cases hd : node.dependency with
  | none => simp [resolve, hd]
  | some d =>
    rw [value_resolve s excluded hd]
    simp only [← ExclusionSet.firstMatch_eq_none_iff, Option.some.injEq, exists_eq_left']
    cases excluded.firstMatch d.artifact with
    | none => simp [eq_comm]
    | some e => simp

theorem resolve_alone {s : Snapshot} {excluded : ExclusionSet} {node : Node} {r : Resolution}
    (h : (s.resolve excluded node).value = some r) : r.node.alone = r.node := by
  obtain ⟨d, _, _, rfl⟩ := resolve_eq_some_iff.mp h
  rfl

theorem value_expandAll (s : Snapshot) (excluded : ExclusionSet) (nodes : List Node) :
    (reporting.expandAll s excluded nodes).value = nodes.filterMap (s.expandNode excluded) := by
  induction nodes with
  | nil => rfl
  | cons node rest ih =>
    rw [expandAll, resolve_reporting, Traced.value_bind, List.filterMap_cons, expandNode, ← ih]
    cases (s.resolve excluded node).value with
    | none => rfl
    | some r => rfl

/-- The expansion below a node is that of its children under the snapshot derived at the node. -/
theorem value_expand (s : Snapshot) (excluded : ExclusionSet) (node : Node) :
    (s.expand excluded node).value =
      node.children.filterMap ((s.derive node.managed).value.expandNode excluded) := by
  obtain ⟨_, managed, children⟩ := node
  rw [Snapshot.expand, Operations.expand, derive_reporting, Traced.value_bind, value_expandAll]

mutual

theorem value_expandTask (s : Snapshot) (excluded : ExclusionSet) :
    ∀ node, (reporting.expandTask s excluded node).value = s.expandNode excluded node
  | ⟨dependency, managed, children⟩ => by
    rw [expandTask, resolve_reporting, derive_reporting, Traced.value_bind, expandNode]
    cases (s.resolve excluded ⟨dependency, managed, children⟩).value with
    | none => rfl
    | some r =>
      have below := value_joinTasks_spawnAll (s.derive managed).value r.inherited children
      simp only [Traced.value_bind, Traced.value_pure, Option.map_some, value_expand, below]

/-- Joining one task for each sibling keeps the siblings that survive, in their order. -/
theorem value_joinTasks_spawnAll (s : Snapshot) (excluded : ExclusionSet) :
    ∀ nodes, (joinTasks (reporting.spawnAll s excluded nodes)).value =
      nodes.filterMap (s.expandNode excluded)
  | [] => rfl
  | node :: rest => by
    have first := value_expandTask s excluded node
    have others := value_joinTasks_spawnAll s excluded rest
    rw [spawnAll, joinTasks, Traced.value_bind, Traced.value_bind, Traced.value_pure, others,
      List.filterMap_cons, ← first]
    cases h : (reporting.expandTask s excluded node).value with
    | none => simp [Task.spawn, h]
    | some resolved => simp [Task.spawn, h]

end

/-- Parallel expansion computes what depth-first expansion computes. -/
theorem value_expandParallel (s : Snapshot) (excluded : ExclusionSet) (node : Node) :
    (reporting.expandParallel s excluded node).value = (s.expand excluded node).value := by
  rw [expandParallel, derive_reporting, Traced.value_bind, value_joinTasks_spawnAll, value_expand]

/-! ## Snapshots that expand alike -/

/-- A relation between snapshots that derivation keeps and under which they resolve nodes alike. -/
structure ResolvingAlike (S : Snapshot → Snapshot → Prop) : Prop where
  derive : ∀ {m m'} managed, S m m' → S (m.derive managed).value (m'.derive managed).value
  resolve : ∀ {m m'} excluded node, S m m' →
    (m'.resolve excluded node).value = (m.resolve excluded node).value

variable {S : Snapshot → Snapshot → Prop}

mutual

theorem ResolvingAlike.expandNode (A : ResolvingAlike S) {m m' : Snapshot} (h : S m m')
    (excluded : ExclusionSet) :
    ∀ node : Node, m'.expandNode excluded node = m.expandNode excluded node
  | ⟨dependency, managed, children⟩ => by
    have hchildren := fun inherited =>
      A.filterMap_expandNode (A.derive managed h) inherited children
    rw [Snapshot.expandNode, Snapshot.expandNode, A.resolve excluded _ h]
    simp only [value_expand, hchildren]

/-- Snapshots that resolve nodes alike expand siblings alike. -/
theorem ResolvingAlike.filterMap_expandNode (A : ResolvingAlike S) {m m' : Snapshot} (h : S m m')
    (excluded : ExclusionSet) : ∀ nodes : List Node,
      nodes.filterMap (m'.expandNode excluded) = nodes.filterMap (m.expandNode excluded)
  | [] => rfl
  | node :: rest => by
    have hnode := A.expandNode h excluded node
    have hrest := A.filterMap_expandNode h excluded rest
    rw [List.filterMap_cons, List.filterMap_cons, hnode, hrest]

end

end Snapshot

end NearestWins
