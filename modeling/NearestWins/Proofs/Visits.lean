import NearestWins.Proofs.Walk

/-!
# Visits

To visit a node is to resolve it. Expanding a tree visits the children of the root and those of every
node that survives, and no others: what is below a node that is left out is never looked at.
`Snapshot.visits` lists the visits at a node and below it by recursion on the tree, depth-first. Main
statement: the visits below the root are those on the root paths of which all nodes but the last
survive, one visit for each of these paths.
-/

namespace NearestWins

/-- A node with what it is resolved with: the snapshot of its siblings and the exclusions of its
ancestors. -/
structure Visit where
  /-- The snapshot of the node and its siblings. -/
  snapshot : Snapshot
  /-- The exclusions that hold for the node. -/
  excluded : ExclusionSet
  /-- The node. -/
  node : Node

/-- What the visited node is resolved to, if it survives. -/
def Visit.survivor (v : Visit) : Option Resolution :=
  (v.snapshot.resolve v.excluded v.node).value

mutual

/-- The visits of a node and of what is below it. -/
def Snapshot.visits (s : Snapshot) (excluded : ExclusionSet) : Node → List Visit
  | node@⟨_, managed, children⟩ =>
    ⟨s, excluded, node⟩ ::
      match (s.resolve excluded node).value with
      | none => []
      | some r => (s.derive managed).value.visitsAll r.inherited children

/-- The visits of siblings and of what is below them. -/
def Snapshot.visitsAll (s : Snapshot) (excluded : ExclusionSet) : List Node → List Visit
  | [] => []
  | node :: rest => s.visits excluded node ++ s.visitsAll excluded rest

end

namespace Snapshot

/-- The root paths of the nodes that are visited: all nodes above the last one survive. -/
def visitedPaths (s : Snapshot) (tree : Node) : List (List Node) :=
  tree.rootPaths.filter fun path => s.Survives tree path.dropLast

/-- The visit of the last node of a root path. -/
def visitOn (s : Snapshot) (tree : Node) (path : List Node) : Visit where
  snapshot := s.below tree path.dropLast
  excluded := s.inherited tree path.dropLast
  node := path.getLastD tree

variable {s : Snapshot} {tree : Node} {above : List Node}

theorem visits_eq (s : Snapshot) (excluded : ExclusionSet) (node : Node) :
    s.visits excluded node = ⟨s, excluded, node⟩ ::
      (s.resolve excluded node).value.elim [] fun r =>
        (s.derive node.managed).value.visitsAll r.inherited node.children := by
  obtain ⟨_, managed, children⟩ := node
  rw [visits]
  cases (s.resolve excluded _).value <;> rfl

theorem visitsAll_eq_flatMap (s : Snapshot) (excluded : ExclusionSet) (nodes : List Node) :
    s.visitsAll excluded nodes = nodes.flatMap (s.visits excluded) := by
  induction nodes with
  | nil => rfl
  | cons node rest ih => rw [visitsAll, ih, List.flatMap_cons]

theorem visitOn_concat (s : Snapshot) (tree : Node) (above : List Node) (node : Node) :
    s.visitOn tree (above ++ [node]) = ⟨s.below tree above, s.inherited tree above, node⟩ := by
  simp [visitOn]

/-- A visited node survives if its root path does. -/
theorem isSome_survivor_visitOn (h : s.Survives tree above) (node : Node) :
    (s.visitOn tree (above ++ [node])).survivor.isSome ↔ s.Survives tree (above ++ [node]) := by
  rw [visitOn_concat, Visit.survivor, resolve_below h]
  split
  next hnode => simpa [hnode] using isSome_recordOn hnode (by simp)
  next hnode => simp [hnode]

/-! ## Visits along paths -/

/-- The root paths from a node on lead through all nodes above it before they end. -/
theorem above_dropLast_of_mem_pathsFromAll {path : List Node} {nodes : List Node}
    (h : path ∈ Node.pathsFromAll above nodes) : above <+: path.dropLast := by
  induction nodes with
  | nil =>
    rw [Node.pathsFromAll] at h
    exact absurd h List.not_mem_nil
  | cons node rest ih =>
    rw [Node.pathsFromAll] at h
    rcases List.mem_append.mp h with hnode | hrest
    · obtain ⟨further, rfl⟩ := Node.above_of_mem_pathsFrom node hnode
      simp [List.dropLast_append_of_ne_nil]
    · exact ih hrest

/-- Nothing is visited below a node that is left out. -/
theorem filter_pathsFromAll_eq_nil (h : ¬ s.Survives tree above) (nodes : List Node) :
    (Node.pathsFromAll above nodes).filter (fun path => s.Survives tree path.dropLast) = [] := by
  refine List.filter_eq_nil_iff.mpr fun path hpath hsurvives => h ?_
  exact (of_decide_eq_true hsurvives).of_above (above_dropLast_of_mem_pathsFromAll hpath)

mutual

theorem visits_below {above : List Node} (h : s.Survives tree above) :
    ∀ node : Node, (s.below tree above).visits (s.inherited tree above) node =
      ((node.pathsFrom above).filter fun path => s.Survives tree path.dropLast).map (s.visitOn tree)
  | ⟨dependency, managed, children⟩ => by
    rw [visits_eq, Node.pathsFrom, List.filter_cons_of_pos (by simpa using h), List.map_cons,
      visitOn_concat, resolve_below h]
    congr 1
    split
    next hnode =>
      obtain ⟨r, hr⟩ := Option.isSome_iff_exists.mp (isSome_recordOn hnode (by simp))
      rw [hr, Option.map_some, Option.elim_some, ← below_concat]
      exact visitsAll_below hnode children
    next hnode =>
      rw [filter_pathsFromAll_eq_nil hnode]
      rfl

/-- Below a surviving path, one node is visited for each root path of which all nodes but the last
survive. -/
theorem visitsAll_below {above : List Node} (h : s.Survives tree above) :
    ∀ nodes : List Node, (s.below tree above).visitsAll (s.inherited tree above) nodes =
      ((Node.pathsFromAll above nodes).filter fun path => s.Survives tree path.dropLast).map
        (s.visitOn tree)
  | [] => rfl
  | node :: rest => by
    have hnode := visits_below h node
    have hrest := visitsAll_below h rest
    rw [visitsAll, Node.pathsFromAll, List.filter_append, List.map_append, hnode, hrest]

end

/-- The visits below the root are those on the visited paths. -/
theorem visitsAll_root (s : Snapshot) (tree : Node) :
    (s.derive tree.managed).value.visitsAll ∅ tree.children =
      (s.visitedPaths tree).map (s.visitOn tree) :=
  visitsAll_below (survives_nil s tree) tree.children

end Snapshot

end NearestWins
