import NearestWins.Proofs.RootPath

/-!
# Counterparts

Nodes with equal content may occur at many places of a tree, so a node is identified by its place: the
numbers of the children to follow from the root down to it. Below, `Snapshot.landing` goes down a place
as long as the path survives, and counts the surviving siblings that come before each node of it; this
is the place at which the node is found in the collected forest. Main statement: the collected forest
consists of the counterparts of the nodes whose root path survives, each with the record that its root
path determines.
-/

namespace NearestWins

/-! ## Places -/

/-- The children of the last node of a path, or those of the root. -/
def Node.childrenAfter (tree : Node) (path : List Node) : List Node :=
  (path.getLast?.getD tree).children

/-- The root path of the node at a place, if the place is inside the tree. -/
def Node.along (tree : Node) (place : List Nat) : Option (List Node) :=
  place.foldlM (fun path i => (tree.childrenAfter path)[i]?.map fun node => path ++ [node]) []

/-- The nodes below a place of a forest, which is all below the empty place. -/
def ResolvedNode.childrenAt (forest : List ResolvedNode) (place : List Nat) : List ResolvedNode :=
  place.foldl (fun nodes j => nodes[j]?.elim [] ResolvedNode.children) forest

/-- The node at a place of a forest. There is none at the empty place. -/
def ResolvedNode.nodeAt (forest : List ResolvedNode) (place : List Nat) : Option ResolvedNode :=
  place.getLast?.bind fun j => (childrenAt forest place.dropLast)[j]?

/-- The same node with the exclusions of its dependency left away. -/
def ResolvedNode.withoutExclusions (r : ResolvedNode) : ResolvedNode :=
  { r with dependency := { r.dependency with exclusions := ∅ } }

@[simp] theorem Node.childrenAfter_concat (tree : Node) (above : List Node) (node : Node) :
    tree.childrenAfter (above ++ [node]) = node.children := by
  simp [childrenAfter]

theorem Node.along_concat {tree : Node} {place : List Nat} {i : Nat} {path : List Node} :
    tree.along (place ++ [i]) = some path ↔
      ∃ above node, tree.along place = some above ∧ (tree.childrenAfter above)[i]? = some node ∧
        path = above ++ [node] := by
  simp only [along, List.foldlM_append, List.foldlM_cons, List.foldlM_nil, Option.bind_eq_bind,
    bind_pure, Option.bind_eq_some_iff, Option.map_eq_some_iff]
  constructor
  · rintro ⟨above, habove, node, hnode, rfl⟩
    exact ⟨above, node, habove, hnode, rfl⟩
  · rintro ⟨above, node, habove, hnode, rfl⟩
    exact ⟨above, habove, node, hnode, rfl⟩

@[simp] theorem ResolvedNode.nodeAt_concat (forest : List ResolvedNode) (place : List Nat)
    (j : Nat) : nodeAt forest (place ++ [j]) = (childrenAt forest place)[j]? := by
  simp [nodeAt]

theorem ResolvedNode.childrenAt_concat (forest : List ResolvedNode) (place : List Nat) (j : Nat) :
    childrenAt forest (place ++ [j]) = (nodeAt forest (place ++ [j])).elim [] children := by
  simp [childrenAt]

/-! ## Survivors among siblings -/

/-- What becomes of an element is found behind what became of the elements before it. -/
theorem getElem?_filterMap_countP {α β : Type} {f : α → Option β} {l : List α} {i : Nat} {a : α}
    {b : β} (ha : l[i]? = some a) (hb : f a = some b) :
    (l.filterMap f)[(l.take i).countP fun x => (f x).isSome]? = some b := by
  obtain ⟨hi, rfl⟩ := List.getElem?_eq_some_iff.mp ha
  have hsplit : l = l.take i ++ l[i] :: l.drop (i + 1) := by simp
  have hlength : ((l.take i).filterMap f).length = (l.take i).countP fun x => (f x).isSome :=
    List.length_filterMap_eq_countP
  have hfilter : l.filterMap f =
      (l.take i).filterMap f ++ b :: (l.drop (i + 1)).filterMap f := by
    conv_lhs => rw [hsplit]
    rw [List.filterMap_append, List.filterMap_cons_some hb]
  rw [hfilter, ← hlength]
  simp

theorem exists_of_getElem?_filterMap {α β : Type} {f : α → Option β} {l : List α} {j : Nat} {b : β}
    (h : (l.filterMap f)[j]? = some b) :
    ∃ i a, l[i]? = some a ∧ f a = some b ∧ ((l.take i).countP fun x => (f x).isSome) = j := by
  obtain ⟨hj, hb⟩ := List.getElem?_eq_some_iff.mp h
  have hsplit : l.filterMap f =
      (l.filterMap f).take j ++ (l.filterMap f)[j] :: (l.filterMap f).drop (j + 1) := by simp
  obtain ⟨before, others, rfl, hbefore, hothers⟩ := List.filterMap_eq_append_iff.mp hsplit
  obtain ⟨skipped, a, after, rfl, hskipped, ha, -⟩ := List.filterMap_eq_cons_iff.mp hothers
  refine ⟨(before ++ skipped).length, a, by simp, by rw [ha, hb], ?_⟩
  have htake : (before ++ (skipped ++ a :: after)).take (before ++ skipped).length =
      before ++ skipped := by
    rw [← List.append_assoc, List.take_left']
    rfl
  have hlength : (before.filterMap f).length = j := by
    rw [hbefore, List.length_take]
    omega
  rw [htake, ← List.length_filterMap_eq_countP, List.filterMap_append,
    List.filterMap_eq_nil_iff.mpr hskipped, List.append_nil, hlength]

namespace Snapshot

/-- The number of surviving siblings before one of the children of the last node of a path. -/
def rank (s : Snapshot) (tree : Node) (path : List Node) (i : Nat) : Nat :=
  ((tree.childrenAfter path).take i).countP fun node => s.Survives tree (path ++ [node])

/-- The root path of a surviving node, with the place of the node in the collected forest. -/
def landing (s : Snapshot) (tree : Node) (place : List Nat) : Option (List Node × List Nat) :=
  place.foldlM (fun (path, q) i =>
    ((tree.childrenAfter path)[i]?.filter fun node => s.Survives tree (path ++ [node])).map
      fun node => (path ++ [node], q ++ [s.rank tree path i])) ([], [])

variable {s : Snapshot} {tree : Node} {place : List Nat}

theorem landing_concat {i : Nat} {path : List Node} {q : List Nat} :
    s.landing tree (place ++ [i]) = some (path, q) ↔
      ∃ above r node, s.landing tree place = some (above, r) ∧
        (tree.childrenAfter above)[i]? = some node ∧ s.Survives tree (above ++ [node]) ∧
        path = above ++ [node] ∧ q = r ++ [s.rank tree above i] := by
  simp only [landing, List.foldlM_append, List.foldlM_cons, List.foldlM_nil, Option.bind_eq_bind,
    bind_pure, Option.bind_eq_some_iff, Option.map_eq_some_iff, Option.filter_eq_some_iff,
    decide_eq_true_eq, Prod.mk.injEq, Prod.exists]
  constructor
  · rintro ⟨above, r, hlanding, node, ⟨hnode, hsurvives⟩, rfl, rfl⟩
    exact ⟨above, r, node, hlanding, hnode, hsurvives, rfl, rfl⟩
  · rintro ⟨above, r, node, hlanding, hnode, hsurvives, rfl, rfl⟩
    exact ⟨above, r, hlanding, node, ⟨hnode, hsurvives⟩, rfl, rfl⟩

/-- A landing goes along the root path of the place, and that path survives. -/
theorem along_of_landing {path : List Node} {q : List Nat}
    (h : s.landing tree place = some (path, q)) :
    tree.along place = some path ∧ s.Survives tree path := by
  induction place using List.reverseRecOn generalizing path q with
  | nil =>
    obtain ⟨rfl, rfl⟩ : path = [] ∧ q = [] := by simpa [landing, eq_comm] using h
    exact ⟨rfl, survives_nil s tree⟩
  | append_singleton place i ih =>
    obtain ⟨above, r, node, hlanding, hnode, hsurvives, rfl, rfl⟩ := landing_concat.mp h
    exact ⟨Node.along_concat.mpr ⟨above, node, (ih hlanding).1, hnode, rfl⟩, hsurvives⟩

theorem exists_landing {path : List Node} (h : tree.along place = some path)
    (hsurvives : s.Survives tree path) : ∃ q, s.landing tree place = some (path, q) := by
  induction place using List.reverseRecOn generalizing path with
  | nil =>
    obtain rfl : path = [] := by simpa [Node.along, eq_comm] using h
    exact ⟨[], rfl⟩
  | append_singleton place i ih =>
    obtain ⟨above, node, habove, hnode, rfl⟩ := Node.along_concat.mp h
    obtain ⟨r, hr⟩ := ih habove (hsurvives.of_above (List.prefix_append _ _))
    exact ⟨_, landing_concat.mpr ⟨above, r, node, hr, hnode, hsurvives, rfl, rfl⟩⟩

/-- Among the children of a surviving path, the rank counts those that are expanded to something. -/
theorem rank_eq_countP {path : List Node} (h : s.Survives tree path) (i : Nat) :
    s.rank tree path i = ((tree.childrenAfter path).take i).countP fun node =>
      ((s.below tree path).expandNode (s.inherited tree path) node).isSome := by
  refine List.countP_congr fun node _ => ?_
  rw [expandNode_below h]
  by_cases hnode : s.Survives tree (path ++ [node])
  · obtain ⟨d, hd, -⟩ := (survives_concat.mp hnode).2
    simp [hnode, recordOn_concat, hd]
  · simp [hnode]

/-- A surviving child of a surviving path is found behind its surviving siblings. -/
theorem getElem?_forestBelow_rank {above : List Node} {node : Node} {i : Nat}
    (h : s.Survives tree above) (hnode : (tree.childrenAfter above)[i]? = some node)
    (hsurvives : s.Survives tree (above ++ [node])) :
    ∃ r, (s.forestBelow tree above (tree.childrenAfter above))[s.rank tree above i]? = some r ∧
      r.children = s.forestBelow tree (above ++ [node]) node.children ∧
      s.recordOn tree (above ++ [node]) = some r.alone := by
  obtain ⟨d, hd, -⟩ := (survives_concat.mp hsurvives).2
  let manager := s.below tree above
  let record := manager.resolved d (manager.manage d).value
  have hrecord : s.recordOn tree (above ++ [node]) = some record := by
    rw [recordOn_concat, hd, Option.map_some]
  refine ⟨{ record with children := s.forestBelow tree (above ++ [node]) node.children }, ?_, rfl,
    hrecord⟩
  rw [forestBelow, rank_eq_countP h]
  refine getElem?_filterMap_countP hnode ?_
  rw [expandNode_below h, if_pos hsurvives, hrecord, Option.map_some]

theorem childrenAt_of_landing {path : List Node} {q : List Nat}
    (h : s.landing tree place = some (path, q)) :
    ResolvedNode.childrenAt (s.forestBelow tree [] tree.children) q =
      s.forestBelow tree path (tree.childrenAfter path) := by
  induction place using List.reverseRecOn generalizing path q with
  | nil =>
    obtain ⟨rfl, rfl⟩ : path = [] ∧ q = [] := by simpa [landing, eq_comm] using h
    rfl
  | append_singleton place i ih =>
    obtain ⟨above, r, node, hlanding, hnode, hsurvives, rfl, rfl⟩ := landing_concat.mp h
    have habove := (along_of_landing hlanding).2
    obtain ⟨record, hfound, hchildren, -⟩ := getElem?_forestBelow_rank habove hnode hsurvives
    rw [ResolvedNode.childrenAt_concat, ResolvedNode.nodeAt_concat, ih hlanding, hfound,
      Node.childrenAfter_concat, ← hchildren]
    rfl

/-- At its landing, a place has its record. -/
theorem nodeAt_of_landing {above : List Node} {node : Node} {q : List Nat}
    (h : s.landing tree place = some (above ++ [node], q)) :
    ∃ r, ResolvedNode.nodeAt (s.forestBelow tree [] tree.children) q = some r ∧
      s.recordOn tree (above ++ [node]) = some r.alone := by
  rcases List.eq_nil_or_concat' place with rfl | ⟨place, i, rfl⟩
  · simp [landing] at h
  · obtain ⟨above', r, node', hlanding, hnode, hsurvives, heq, rfl⟩ := landing_concat.mp h
    obtain ⟨rfl, hlast⟩ := List.append_inj' heq rfl
    obtain rfl : node = node' := by simpa using hlast
    have habove := (along_of_landing hlanding).2
    obtain ⟨record, hfound, -, hrecord⟩ := getElem?_forestBelow_rank habove hnode hsurvives
    refine ⟨record, ?_, hrecord⟩
    rw [ResolvedNode.nodeAt_concat, childrenAt_of_landing hlanding, hfound]

/-- Whatever is found in the collected forest has landed there. -/
theorem exists_landing_of_nodeAt {q : List Nat} {r : ResolvedNode}
    (h : ResolvedNode.nodeAt (s.forestBelow tree [] tree.children) q = some r) :
    ∃ place path, s.landing tree place = some (path, q) := by
  induction q using List.reverseRecOn generalizing r with
  | nil => simp [ResolvedNode.nodeAt] at h
  | append_singleton q j ih =>
    rw [ResolvedNode.nodeAt_concat] at h
    -- The parent has landed: it is the root, or it is found in the forest as well.
    obtain ⟨place, path, hlanding⟩ : ∃ place path, s.landing tree place = some (path, q) := by
      rcases List.eq_nil_or_concat' q with rfl | ⟨q, k, rfl⟩
      · exact ⟨[], [], rfl⟩
      · rw [ResolvedNode.childrenAt_concat] at h
        cases hparent : ResolvedNode.nodeAt (s.forestBelow tree [] tree.children) (q ++ [k]) with
        | none => simp [hparent] at h
        | some parent => exact ih hparent
    have hpath := (along_of_landing hlanding).2
    rw [childrenAt_of_landing hlanding] at h
    obtain ⟨i, node, hnode, hexpand, hcount⟩ := exists_of_getElem?_filterMap h
    have hsurvives : s.Survives tree (path ++ [node]) := by
      by_contra hleft
      rw [expandNode_below hpath, if_neg hleft] at hexpand
      cases hexpand
    rw [← rank_eq_countP hpath] at hcount
    exact ⟨place ++ [i], path ++ [node],
      landing_concat.mpr ⟨path, q, node, hlanding, hnode, hsurvives, rfl, by rw [hcount]⟩⟩

/-- A surviving node is counted for the siblings behind it. -/
theorem rank_lt_rank {above : List Node} {node : Node} {i i' : Nat}
    (hnode : (tree.childrenAfter above)[i]? = some node)
    (hsurvives : s.Survives tree (above ++ [node])) (h : i < i') :
    s.rank tree above i < s.rank tree above i' := by
  have hcounted : s.rank tree above (i + 1) = s.rank tree above i + 1 := by
    rw [rank, List.take_add_one, List.countP_append, hnode]
    simp [hsurvives, rank]
  have hmono : s.rank tree above (i + 1) ≤ s.rank tree above i' :=
    (List.take_sublist_take_left h).countP_le
  omega

/-! ## The collected forest -/

/-- A collected forest consists of the counterparts of surviving nodes. -/
structure Counterparts (s : Snapshot) (tree : Node) (forest : List ResolvedNode)
    (counterpart : List Nat → Option (List Nat)) : Prop where
  /-- The children of the root come to lie at the top of the forest. -/
  root : counterpart [] = some []
  /-- A node has a counterpart exactly when its root path survives. -/
  survives : ∀ place,
    (counterpart place).isSome ↔ ∃ path, tree.along place = some path ∧ s.Survives tree path
  /-- A counterpart is a child of the counterpart of the parent. -/
  parent : ∀ place i q, counterpart (place ++ [i]) = some q →
    ∃ r j, counterpart place = some r ∧ q = r ++ [j]
  /-- The counterparts of siblings are in the order of the siblings. -/
  order : ∀ place i i' r r' j j', counterpart (place ++ [i]) = some (r ++ [j]) →
    counterpart (place ++ [i']) = some (r' ++ [j']) → (i < i' ↔ j < j')
  /-- The forest has no other nodes. -/
  onto : ∀ q r, ResolvedNode.nodeAt forest q = some r → ∃ place, counterpart place = some q
  /-- The record of a counterpart is what the root path determines. -/
  record : ∀ place above node q, tree.along place = some (above ++ [node]) →
    counterpart place = some q →
    ∃ d r, node.dependency = some d ∧ ResolvedNode.nodeAt forest q = some r ∧
      s.recordOn tree (above ++ [node]) = some r.alone ∧
      r.dependency = ((s.deriveAll ((tree :: above).map Node.managed)).manage d).value.elim d
        (·.applyTo d) ∧
      r.depth = min (s.depth + (above ++ [node]).length) unboundedDepth ∧
      r.system = s.policy.isSystem r.dependency.scope

/-- The places at which surviving nodes land are those of their counterparts. -/
theorem counterparts_landing (s : Snapshot) (tree : Node) :
    s.Counterparts tree (s.forestBelow tree [] tree.children)
      fun place => (s.landing tree place).map Prod.snd where
  root := rfl
  survives place := by
    rw [Option.isSome_map, Option.isSome_iff_exists]
    constructor
    · rintro ⟨⟨path, q⟩, h⟩
      exact ⟨path, along_of_landing h⟩
    · rintro ⟨path, hpath, hsurvives⟩
      obtain ⟨q, h⟩ := exists_landing hpath hsurvives
      exact ⟨(path, q), h⟩
  parent place i q h := by
    obtain ⟨⟨path, q⟩, hlanding, rfl⟩ := Option.map_eq_some_iff.mp h
    obtain ⟨above, r, node, habove, -, -, -, rfl⟩ := landing_concat.mp hlanding
    exact ⟨r, _, Option.map_eq_some_iff.mpr ⟨(above, r), habove, rfl⟩, rfl⟩
  order place i i' r r' j j' h h' := by
    obtain ⟨⟨path, q⟩, hlanding, rfl⟩ := Option.map_eq_some_iff.mp h
    obtain ⟨⟨path', q'⟩, hlanding', rfl⟩ := Option.map_eq_some_iff.mp h'
    obtain ⟨above, _, node, habove, hnode, hsurvives, rfl, hq⟩ := landing_concat.mp hlanding
    obtain ⟨above', _, node', habove', hnode', hsurvives', rfl, hq'⟩ := landing_concat.mp hlanding'
    obtain ⟨rfl, -⟩ : above = above' ∧ _ := by simpa [habove] using habove'
    obtain rfl : j = s.rank tree above i := by simpa using (List.append_inj' hq rfl).2
    obtain rfl : j' = s.rank tree above i' := by simpa using (List.append_inj' hq' rfl).2
    refine ⟨rank_lt_rank hnode hsurvives, fun hlt => ?_⟩
    rcases Nat.lt_trichotomy i i' with hi | rfl | hi
    · exact hi
    · exact absurd hlt (Nat.lt_irrefl _)
    · exact absurd (rank_lt_rank hnode' hsurvives' hi) (Nat.lt_asymm hlt)
  onto q r h := by
    obtain ⟨place, path, hlanding⟩ := exists_landing_of_nodeAt h
    exact ⟨place, Option.map_eq_some_iff.mpr ⟨(path, q), hlanding, rfl⟩⟩
  record place above node q hplace h := by
    obtain ⟨⟨path, q⟩, hlanding, rfl⟩ := Option.map_eq_some_iff.mp h
    obtain ⟨halong, hsurvives⟩ := along_of_landing hlanding
    obtain rfl : path = above ++ [node] := by simpa [hplace, eq_comm] using halong
    obtain ⟨r, hr, hrecord⟩ := nodeAt_of_landing hlanding
    obtain ⟨d, hd, hfields⟩ := recordOn_fields hrecord
    exact ⟨d, r, hd, hr, hrecord, hfields⟩

/-! ## Single counterparts -/

/-- What the node at a place of the tree is resolved to in the collected forest, if it survives. -/
def counterpart (s : Snapshot) (tree : Node) (traversal : Traversal) (place : List Nat) :
    Option ResolvedNode :=
  (s.landing tree place).bind fun landed =>
    ResolvedNode.nodeAt (s.collect tree traversal).value landed.2

theorem counterpart_nil (s : Snapshot) (tree : Node) (traversal : Traversal) :
    s.counterpart tree traversal [] = none := rfl

/-- A node has a counterpart if its root path survives. -/
theorem isSome_counterpart_concat {traversal : Traversal} {i : Nat} :
    (s.counterpart tree traversal (place ++ [i])).isSome ↔
      ∃ above node, tree.along place = some above ∧ (tree.childrenAfter above)[i]? = some node ∧
        s.Survives tree (above ++ [node]) := by
  rw [counterpart, value_collect_eq_forestBelow]
  constructor
  · intro h
    obtain ⟨r, hr⟩ := Option.isSome_iff_exists.mp h
    obtain ⟨⟨path, q⟩, hlanding, -⟩ := Option.bind_eq_some_iff.mp hr
    obtain ⟨above, _, node, habove, hnode, hsurvives, -, -⟩ := landing_concat.mp hlanding
    exact ⟨above, node, (along_of_landing habove).1, hnode, hsurvives⟩
  · rintro ⟨above, node, habove, hnode, hsurvives⟩
    have halong := Node.along_concat.mpr ⟨above, node, habove, hnode, rfl⟩
    obtain ⟨q, hlanding⟩ := exists_landing halong hsurvives
    obtain ⟨r, hr, -⟩ := nodeAt_of_landing hlanding
    rw [hlanding, Option.bind_some, hr]
    rfl

/-- The record of a counterpart is what management makes of the dependency of the node. -/
theorem alone_counterpart {traversal : Traversal} {above : List Node} {node : Node} {d : Dependency}
    {r : ResolvedNode} (halong : tree.along place = some (above ++ [node]))
    (hd : node.dependency = some d) (h : s.counterpart tree traversal place = some r) :
    r.alone = (s.below tree above).resolved d ((s.below tree above).manage d).value := by
  rw [counterpart, value_collect_eq_forestBelow] at h
  obtain ⟨⟨path, q⟩, hlanding, hr⟩ := Option.bind_eq_some_iff.mp h
  obtain rfl : path = above ++ [node] := by
    simpa [halong, eq_comm] using (along_of_landing hlanding).1
  obtain ⟨r', hr', hrecord⟩ := nodeAt_of_landing hlanding
  obtain rfl : r' = r := by simpa [hr'] using hr
  simpa [recordOn_concat, hd, eq_comm] using hrecord

/-- Below a counterpart lies the forest below the root path of its node. -/
theorem children_counterpart {traversal : Traversal} {above : List Node} {node : Node}
    {r : ResolvedNode} (halong : tree.along place = some (above ++ [node]))
    (h : s.counterpart tree traversal place = some r) :
    r.children = s.forestBelow tree (above ++ [node]) node.children := by
  rw [counterpart, value_collect_eq_forestBelow] at h
  obtain ⟨⟨path, q⟩, hlanding, hr⟩ := Option.bind_eq_some_iff.mp h
  obtain rfl : path = above ++ [node] := by
    simpa [halong, eq_comm] using (along_of_landing hlanding).1
  have hchildren := childrenAt_of_landing hlanding
  rw [Node.childrenAfter_concat] at hchildren
  rcases List.eq_nil_or_concat' q with rfl | ⟨q, j, rfl⟩
  · cases hr
  · rw [ResolvedNode.childrenAt_concat, hr, Option.elim_some] at hchildren
    exact hchildren

/-! ## What the collected forest depends on -/

/-- The collected forest is determined by root paths: it consists of the counterparts of the nodes
whose root path survives. What a node declares for those below it changes nothing about the node, its
own exclusions change nothing but its exclusions, and the dependency of the root changes nothing. -/
theorem collect_determined_by_root_paths (s : Snapshot) (tree : Node) (traversal : Traversal) :
    (∃ counterpart, s.Counterparts tree (s.collect tree traversal).value counterpart) ∧
      (∀ above node managed children,
        let other : Node := { node with managed := managed, children := children }
        (s.Survives tree (above ++ [other]) ↔ s.Survives tree (above ++ [node])) ∧
          s.recordOn tree (above ++ [other]) = s.recordOn tree (above ++ [node])) ∧
      (∀ above node exclusions,
        let other : Node :=
          { node with dependency := node.dependency.map ({ · with exclusions := exclusions }) }
        (s.Survives tree (above ++ [other]) ↔ s.Survives tree (above ++ [node])) ∧
          (s.recordOn tree (above ++ [other])).map ResolvedNode.withoutExclusions =
            (s.recordOn tree (above ++ [node])).map ResolvedNode.withoutExclusions) ∧
      ∀ dependency, (s.collect { tree with dependency := dependency } traversal).value =
        (s.collect tree traversal).value := by
  refine ⟨?_, fun above node managed children => ⟨?_, ?_⟩,
    fun above node exclusions => ⟨?_, ?_⟩, fun dependency => ?_⟩
  · rw [value_collect_eq_forestBelow]
    exact ⟨_, s.counterparts_landing tree⟩
  · rw [survives_concat, survives_concat]
  · rw [recordOn_concat, recordOn_concat]
  · rw [survives_concat, survives_concat]
    cases node.dependency <;> simp
  · rw [recordOn_concat, recordOn_concat]
    cases node.dependency with
    | none => rfl
    | some d =>
      have hsame : ((s.below tree above).manage { d with exclusions := exclusions }).value =
          ((s.below tree above).manage d).value := by
        rw [manage_value, manage_value]
        rfl
      simp only [Option.map_some, hsame]
      cases ((s.below tree above).manage d).value <;> rfl
  · rw [value_collect, value_collect, value_expand, value_expand]

end Snapshot

end NearestWins
