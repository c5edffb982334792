import NearestWins.Proofs.RootPath

/-!
# Walking a collected forest

`Node.rootPaths` lists the root paths of all nodes of a tree, each node before those below it. Main
statement: walking a collected forest goes through the records of those that survive, in this order.
-/

namespace NearestWins

mutual

/-- The root paths of a node and of all nodes below it, the node itself first. -/
def Node.pathsFrom (above : List Node) : Node → List (List Node)
  | node@⟨_, _, children⟩ => (above ++ [node]) :: Node.pathsFromAll (above ++ [node]) children

/-- The root paths of siblings and of all nodes below them. -/
def Node.pathsFromAll (above : List Node) : List Node → List (List Node)
  | [] => []
  | node :: rest => node.pathsFrom above ++ Node.pathsFromAll above rest

end

/-- The root paths of all nodes below the root, depth-first. -/
def Node.rootPaths (tree : Node) : List (List Node) :=
  Node.pathsFromAll [] tree.children

mutual

/-- All root paths from a node on lead through it. -/
theorem Node.above_of_mem_pathsFrom {path above : List Node} :
    ∀ node : Node, path ∈ node.pathsFrom above → above ++ [node] <+: path
  | ⟨dependency, managed, children⟩, h => by
    rw [Node.pathsFrom] at h
    rcases List.mem_cons.mp h with rfl | hbelow
    · exact List.prefix_refl _
    · exact Node.above_of_mem_pathsFromAll children hbelow

theorem Node.above_of_mem_pathsFromAll {path above : List Node} :
    ∀ nodes : List Node, path ∈ Node.pathsFromAll above nodes → above <+: path
  | [], h => by
    rw [Node.pathsFromAll] at h
    exact absurd h List.not_mem_nil
  | node :: rest, h => by
    rw [Node.pathsFromAll] at h
    rcases List.mem_append.mp h with hnode | hrest
    · exact (List.prefix_append above [node]).trans (Node.above_of_mem_pathsFrom node hnode)
    · exact Node.above_of_mem_pathsFromAll rest hrest

end

theorem Node.ne_nil_of_mem_pathsFromAll {path above : List Node} {nodes : List Node}
    (h : path ∈ Node.pathsFromAll above nodes) : path ≠ [] := by
  induction nodes with
  | nil =>
    rw [Node.pathsFromAll] at h
    exact absurd h List.not_mem_nil
  | cons node rest ih =>
    rw [Node.pathsFromAll] at h
    rcases List.mem_append.mp h with hnode | hrest
    · rintro rfl
      have hlength := (Node.above_of_mem_pathsFrom node hnode).length_le
      simp at hlength
    · exact ih hrest

theorem ResolvedNode.walk_eq (r : ResolvedNode) : r.walk = r :: walkAll r.children := by
  cases r
  rw [walk]

namespace Snapshot

variable {s : Snapshot} {tree : Node}

/-- The records of the surviving paths among some. -/
def recordsOn (s : Snapshot) (tree : Node) (paths : List (List Node)) : List ResolvedNode :=
  (paths.filter fun path => s.Survives tree path).filterMap (s.recordOn tree)

theorem recordsOn_append (s : Snapshot) (tree : Node) (a b : List (List Node)) :
    s.recordsOn tree (a ++ b) = s.recordsOn tree a ++ s.recordsOn tree b := by
  rw [recordsOn, List.filter_append, List.filterMap_append]
  rfl

/-- A path that survives and does not end at the root has a record. -/
theorem isSome_recordOn {path : List Node} (h : s.Survives tree path) (hne : path ≠ []) :
    (s.recordOn tree path).isSome := by
  rcases List.eq_nil_or_concat' path with rfl | ⟨above, node, rfl⟩
  · exact absurd rfl hne
  · obtain ⟨d, hd, -⟩ := (survives_concat.mp h).2
    rw [recordOn_concat, hd]
    rfl

mutual

/-- Walking what a node below a surviving path is expanded to. -/
theorem walk_expandNode {above : List Node} (h : s.Survives tree above) :
    ∀ node : Node, (ResolvedNode.walkAll
      ((s.below tree above).expandNode (s.inherited tree above) node).toList).map
        ResolvedNode.alone = s.recordsOn tree (node.pathsFrom above)
  | ⟨dependency, managed, children⟩ => by
    rw [expandNode_below h]
    split
    next hnode =>
      have hchildren := walkAll_forestBelow hnode children
      obtain ⟨d, hd, -⟩ := (survives_concat.mp hnode).2
      obtain rfl : dependency = some d := hd
      rw [recordOn_concat, Node.pathsFrom, recordsOn,
        List.filter_cons_of_pos (by simpa using hnode), List.filterMap_cons, recordOn_concat]
      simp only [Option.map_some, Option.toList_some, ResolvedNode.walkAll, ResolvedNode.walk_eq,
        List.append_nil, List.map_cons, hchildren]
      rfl
    next hnode =>
      have hnone : (Node.pathsFrom above ⟨dependency, managed, children⟩).filter
          (fun path => s.Survives tree path) = [] := by
        refine List.filter_eq_nil_iff.mpr fun path hpath hsurvives => hnode ?_
        exact (of_decide_eq_true hsurvives).of_above (Node.above_of_mem_pathsFrom _ hpath)
      rw [recordsOn, hnone]
      rfl

theorem walkAll_forestBelow {above : List Node} (h : s.Survives tree above) :
    ∀ nodes : List Node, (ResolvedNode.walkAll (s.forestBelow tree above nodes)).map
      ResolvedNode.alone = s.recordsOn tree (Node.pathsFromAll above nodes)
  | [] => rfl
  | node :: rest => by
    have hnode := walk_expandNode h node
    have hrest := walkAll_forestBelow h rest
    rw [Node.pathsFromAll, recordsOn_append, ← hnode, ← hrest, forestBelow, List.filterMap_cons,
      forestBelow]
    cases (s.below tree above).expandNode (s.inherited tree above) node with
    | none => rfl
    | some r =>
      simp only [Option.toList_some, ResolvedNode.walkAll, List.append_nil, List.map_append]

end

/-- Walking a collected forest goes through the records of the surviving root paths. -/
theorem walkAll_collect (s : Snapshot) (tree : Node) (traversal : Traversal) :
    (ResolvedNode.walkAll (s.collect tree traversal).value).map ResolvedNode.alone =
      s.recordsOn tree tree.rootPaths := by
  rw [value_collect_eq_forestBelow]
  exact walkAll_forestBelow (survives_nil s tree) tree.children

end Snapshot

end NearestWins
