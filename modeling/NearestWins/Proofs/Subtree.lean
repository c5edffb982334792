import NearestWins.Proofs.Counterpart

/-!
# Subtrees on their own

A subtree can be expanded without what its ancestors exclude, and pruned afterwards. Pruning first
looks at declared artifacts, pruning afterwards at those after management; exclusions do not tell
them apart. Main statement: what a child of the root has below it in a collected forest is what it
has when it is collected on its own, under the snapshot of its siblings, less all that its
exclusions leave out.
-/

namespace NearestWins

mutual

/-- The same node without what is left out below it. -/
def ResolvedNode.pruneBelow (excluded : ExclusionSet) : ResolvedNode → ResolvedNode
  | ⟨dependency, version, scope, depth, managed, system, children⟩ =>
    ⟨dependency, version, scope, depth, managed, system, ResolvedNode.prune excluded children⟩

/-- A forest without the nodes that meet one of some exclusions and without all that is below them. -/
def ResolvedNode.prune (excluded : ExclusionSet) : List ResolvedNode → List ResolvedNode
  | [] => []
  | node :: rest =>
    if (excluded.firstMatch node.dependency.artifact).isNone then
      node.pruneBelow excluded :: ResolvedNode.prune excluded rest
    else ResolvedNode.prune excluded rest

end

namespace ResolvedNode

variable {excluded : ExclusionSet}

theorem pruneBelow_eq (r : ResolvedNode) :
    r.pruneBelow excluded = { r with children := prune excluded r.children } := by
  cases r
  rw [pruneBelow]

mutual

theorem walk_pruneBelow_sublist : ∀ r : ResolvedNode,
    ((r.pruneBelow excluded).walk.map alone).Sublist (r.walk.map alone)
  | ⟨dependency, version, scope, depth, managed, system, children⟩ => by
    have hchildren := walkAll_prune_sublist children
    rw [pruneBelow, walk, walk, List.map_cons, List.map_cons]
    exact hchildren.cons_cons _

/-- Pruning leaves all that it keeps as it is, but for the children. -/
theorem walkAll_prune_sublist : ∀ forest : List ResolvedNode,
    ((walkAll (prune excluded forest)).map alone).Sublist ((walkAll forest).map alone)
  | [] => by
    rw [prune]
  | node :: rest => by
    have hnode := walk_pruneBelow_sublist node
    have hrest := walkAll_prune_sublist rest
    rw [prune, walkAll, List.map_append]
    split
    next =>
      rw [walkAll, List.map_append]
      exact hnode.append hrest
    next => exact hrest.trans (List.sublist_append_right _ _)

end

end ResolvedNode

theorem ExclusionSet.isNone_firstMatch_union (first second : ExclusionSet) (a : Artifact) :
    ((first ∪ second).firstMatch a).isNone ↔
      (first.firstMatch a).isNone ∧ (second.firstMatch a).isNone := by
  simp only [Option.isNone_iff_eq_none, firstMatch_eq_none_iff, Std.ExtTreeSet.mem_union_iff]
  constructor
  · intro h
    exact ⟨fun x hx => h x (Or.inl hx), fun x hx => h x (Or.inr hx)⟩
  · rintro ⟨hfirst, hsecond⟩ x hx
    exact hx.elim (hfirst x) (hsecond x)

namespace Snapshot

theorem firstMatch_effective (s : Snapshot) (set : ExclusionSet) (d : Dependency) :
    set.firstMatch (s.effective d).artifact = set.firstMatch d.artifact := by
  simp only [ExclusionSet.firstMatch, excludes_effective]

/-- With more exclusions, a node is resolved to the same record, if that meets none of them. -/
theorem resolve_union (s : Snapshot) (outer inner : ExclusionSet) (node : Node) :
    (s.resolve (outer ∪ inner) node).value =
      ((s.resolve inner node).value.filter fun r =>
        (outer.firstMatch r.node.dependency.artifact).isNone).map fun r =>
          { r with inherited := outer ∪ r.inherited } := by
  cases hd : node.dependency with
  | none => simp [resolve, hd]
  | some d =>
    have hboth := ExclusionSet.isNone_firstMatch_union outer inner d.artifact
    have hassoc : ∀ below : ExclusionSet, outer ∪ inner ∪ below = outer ∪ (inner ∪ below) := by
      intro below
      ext x
      simp [or_assoc]
    have hartifact : outer.firstMatch (s.resolved d (s.manage d).value).dependency.artifact =
        outer.firstMatch d.artifact := s.firstMatch_effective outer d
    rw [value_resolve s _ hd, value_resolve s _ hd]
    by_cases hinner : (inner.firstMatch d.artifact).isNone
    · rw [if_pos hinner, Option.filter_some, hartifact]
      by_cases houter : (outer.firstMatch d.artifact).isNone
      · rw [if_pos (hboth.mpr ⟨houter, hinner⟩), if_pos houter, Option.map_some, hassoc]
      · rw [if_neg fun h => houter (hboth.mp h).1, if_neg houter, Option.map_none]
    · rw [if_neg fun h => hinner (hboth.mp h).2, if_neg hinner]
      rfl

mutual

theorem expandNode_union (s : Snapshot) (outer inner : ExclusionSet) : ∀ node : Node,
    s.expandNode (outer ∪ inner) node =
      ((s.expandNode inner node).filter fun r =>
        (outer.firstMatch r.dependency.artifact).isNone).map (ResolvedNode.pruneBelow outer)
  | ⟨dependency, managed, children⟩ => by
    rw [expandNode, expandNode, resolve_union]
    cases (s.resolve inner ⟨dependency, managed, children⟩).value with
    | none => rfl
    | some r =>
      have hchildren :=
        filterMap_expandNode_union (s.derive managed).value outer r.inherited children
      by_cases h : (outer.firstMatch r.node.dependency.artifact).isNone
      · simp [Option.filter_some, h, value_expand, hchildren, ResolvedNode.pruneBelow_eq]
      · simp [Option.filter_some, h]

/-- Expanding siblings below more exclusions is expanding them below fewer and pruning afterwards. -/
theorem filterMap_expandNode_union (s : Snapshot) (outer inner : ExclusionSet) :
    ∀ nodes : List Node, nodes.filterMap (s.expandNode (outer ∪ inner)) =
      ResolvedNode.prune outer (nodes.filterMap (s.expandNode inner))
  | [] => by
    rw [List.filterMap_nil, List.filterMap_nil, ResolvedNode.prune]
  | node :: rest => by
    have hnode := expandNode_union s outer inner node
    have hrest := filterMap_expandNode_union s outer inner rest
    rw [List.filterMap_cons, List.filterMap_cons, hnode, hrest]
    cases s.expandNode inner node with
    | none => rfl
    | some r =>
      by_cases h : (outer.firstMatch r.dependency.artifact).isNone
      · simp [Option.filter_some, h, ResolvedNode.prune]
      · simp [Option.filter_some, h, ResolvedNode.prune]

end

/-- What is below any node of a tree is what the node has on its own, less all that is excluded on its
root path. -/
theorem forestBelow_eq_prune (s : Snapshot) (tree : Node) (above : List Node) (node : Node)
    (traversal : Traversal) :
    s.forestBelow tree (above ++ [node]) node.children =
      ResolvedNode.prune (s.inherited tree (above ++ [node]))
        ((s.below tree above).collect node traversal).value := by
  have hnone : s.inherited tree (above ++ [node]) = s.inherited tree (above ++ [node]) ∪ ∅ := by
    ext x
    simp
  have hpruned := filterMap_expandNode_union (s.below tree (above ++ [node]))
    (s.inherited tree (above ++ [node])) ∅ node.children
  rw [← hnone] at hpruned
  rw [forestBelow, hpruned, below_concat, value_collect, value_expand]

/-- What a surviving child of the root has below it is what it has when it is collected on its own
under the snapshot derived at the root, less the nodes that its exclusions meet and all that is
below them. What remains keeps all its fields. -/
theorem collect_subtree (s : Snapshot) (tree : Node) (traversal traversal' : Traversal) {i : Nat}
    {child : Node} {r : ResolvedNode} (hchild : tree.children[i]? = some child)
    (hr : s.counterpart tree traversal [i] = some r) :
    let forest := ((s.derive tree.managed).value.collect child traversal').value
    r.children = ResolvedNode.prune r.dependency.exclusions forest ∧
      ((ResolvedNode.walkAll r.children).map ResolvedNode.alone).Sublist
        ((ResolvedNode.walkAll forest).map ResolvedNode.alone) := by
  intro forest
  have halong : tree.along ([] ++ [i]) = some ([] ++ [child]) :=
    Node.along_concat.mpr ⟨[], child, rfl, hchild, rfl⟩
  have hsome : (s.counterpart tree traversal ([] ++ [i])).isSome :=
    Option.isSome_iff_exists.mpr ⟨r, hr⟩
  obtain ⟨above, node, habove, hnode, hsurvives⟩ := isSome_counterpart_concat.mp hsome
  obtain rfl : above = [] := by simpa [Node.along, eq_comm] using habove
  obtain rfl : node = child := by simpa [Node.childrenAfter, hchild, eq_comm] using hnode
  obtain ⟨-, d, hd, -⟩ := survives_concat.mp hsurvives
  have hrecord := alone_counterpart halong hd hr
  rw [resolved_manage] at hrecord
  have hdependency : r.dependency = (s.below tree []).effective d :=
    congrArg ResolvedNode.dependency hrecord
  have hexclusions : s.inherited tree ([] ++ [node]) = r.dependency.exclusions := by
    have hroot : s.inherited tree [] = ∅ := rfl
    rw [inherited_concat hd, hroot, hdependency]
    ext x
    simp
  have hpruned : r.children = ResolvedNode.prune r.dependency.exclusions forest := by
    rw [children_counterpart halong hr, forestBelow_eq_prune s tree [] node traversal', hexclusions]
    rfl
  refine ⟨hpruned, ?_⟩
  rw [hpruned]
  exact ResolvedNode.walkAll_prune_sublist forest

/-- The first child excludes the second of the nodes below it. On its own it has both of them, and
one node more below each. -/
theorem collect_subtree_sample :
    let lib (name : String) (excluded : List String) : Dependency :=
      { artifact := { groupId := "g", artifactId := name, version := "1" }
        exclusions := .ofList (excluded.map (Exclusion.mk "g" · wildcard wildcard)) }
    let leaf (name : String) : Node := { dependency := some (lib name []) }
    let child : Node :=
      { dependency := some (lib "a" ["x"])
        children := [
          { dependency := some (lib "b" []), children := [leaf "c"] },
          { dependency := some (lib "x" []), children := [leaf "y"] }] }
    let tree : Node := { managed := [lib "c" []], children := [child] }
    let s := root .standard .legacy
    let forest := ((s.derive tree.managed).value.collect child .depthFirst).value
    let names (nodes : List ResolvedNode) :=
      (ResolvedNode.walkAll nodes).map (·.dependency.artifact.artifactId)
    tree.children[0]? = some child ∧ names forest = ["b", "c", "x", "y"] ∧
      ∃ r, s.counterpart tree .depthFirst [0] = some r ∧ names r.children = ["b", "c"] ∧
        r.children = ResolvedNode.prune r.dependency.exclusions forest := by
  intro lib leaf child tree s forest names
  obtain ⟨r, hr, hnames⟩ : ∃ r, s.counterpart tree .depthFirst [0] = some r ∧
      names r.children = ["b", "c"] :=
    Option.map_eq_some_iff.mp (by decide +kernel)
  obtain ⟨hpruned, -⟩ := collect_subtree s tree .depthFirst .depthFirst rfl hr
  exact ⟨rfl, by decide +kernel, r, hr, hnames, hpruned⟩

end Snapshot

end NearestWins
