import Mathlib.Data.List.Infix
import NearestWins.Proofs.Application
import NearestWins.Proofs.Lineage
import NearestWins.Proofs.Traversal

/-!
# Root paths

The root path of a node lists the nodes from a child of the root down to the node itself. It
determines all that becomes of the node: `Snapshot.below` is the snapshot derived along a path,
`Snapshot.recordOn` what the last node of a path is resolved to, and `Snapshot.Survives` says that no
node of the path is left out. None of them refers to the expansion of a tree. Main statement: a forest
is collected by going down the tree along the paths that survive, with the record of each.
-/

namespace NearestWins.Snapshot

/-- The snapshot for the children of the last node of a path, or for those of the root. -/
def below (s : Snapshot) (tree : Node) (path : List Node) : Snapshot :=
  s.deriveAll ((tree :: path).map Node.managed)

/-- What the last node of a path is resolved to, without its children. -/
def recordOn (s : Snapshot) (tree : Node) (path : List Node) : Option ResolvedNode :=
  let manager := s.below tree path.dropLast
  (path.getLast?.bind Node.dependency).map fun d => manager.resolved d (manager.manage d).value

/-- The dependency that the last node of a path has after management. The root has none. -/
def effectiveOn (s : Snapshot) (tree : Node) (path : List Node) : Option Dependency :=
  (path.getLast?.bind Node.dependency).map (s.below tree path.dropLast).effective

/-- No node of a path is left out: each carries a dependency, and its artifact meets none of the
exclusions that the nodes above it have after management. -/
def Survives (s : Snapshot) (tree : Node) (path : List Node) : Prop :=
  ∀ above node, above ++ [node] <+: path → ∃ d, node.dependency = some d ∧
    ∀ higher, higher <+: above → ∀ e ∈ s.effectiveOn tree higher,
      ∀ x ∈ e.exclusions, x.excludes d.artifact = false

/-- The exclusions that hold below a path: those that its nodes have after management. -/
def inherited (s : Snapshot) (tree : Node) (path : List Node) : ExclusionSet :=
  TableEntry.allExclusions (path.inits.filterMap (s.effectiveOn tree))

/-- The forest that siblings below a path are expanded to. -/
def forestBelow (s : Snapshot) (tree : Node) (path nodes : List Node) : List ResolvedNode :=
  nodes.filterMap ((s.below tree path).expandNode (s.inherited tree path))

variable {s : Snapshot} {tree : Node} {above : List Node} {node : Node}

/-! ## One node further down -/

theorem below_concat (s : Snapshot) (tree : Node) (above : List Node) (node : Node) :
    s.below tree (above ++ [node]) = ((s.below tree above).derive node.managed).value := by
  rw [below, ← List.cons_append, List.map_append, deriveAll_append]
  rfl

theorem effectiveOn_concat (s : Snapshot) (tree : Node) (above : List Node) (node : Node) :
    s.effectiveOn tree (above ++ [node]) = node.dependency.map (s.below tree above).effective := by
  simp [effectiveOn]

theorem recordOn_concat (s : Snapshot) (tree : Node) (above : List Node) (node : Node) :
    s.recordOn tree (above ++ [node]) =
      node.dependency.map fun d =>
        (s.below tree above).resolved d ((s.below tree above).manage d).value := by
  simp [recordOn]

/-- The record on a path: the declaration under the overrides that the snapshot above it answers, at
the depth of that snapshot, in system scope if the scope after management is one. -/
theorem recordOn_fields {r : ResolvedNode} (h : s.recordOn tree (above ++ [node]) = some r) :
    ∃ d, node.dependency = some d ∧
      r.dependency = ((s.below tree above).manage d).value.elim d (·.applyTo d) ∧
      r.depth = min (s.depth + (above ++ [node]).length) unboundedDepth ∧
      r.system = s.policy.isSystem r.dependency.scope := by
  rw [recordOn_concat] at h
  obtain ⟨d, hd, rfl⟩ := Option.map_eq_some_iff.mp h
  have hdepth : (s.below tree above).depth =
      min (s.depth + (above ++ [node]).length) unboundedDepth := by
    rw [below, depth_deriveAll _ (by simp), List.length_map, List.length_append]
    rfl
  have hpolicy : (s.below tree above).policy = s.policy := deriveAll_policy _ _
  refine ⟨d, hd, rfl, hdepth, ?_⟩
  rw [← hpolicy]
  rfl

theorem mem_inherited {path : List Node} {x : Exclusion} :
    x ∈ s.inherited tree path ↔
      ∃ higher, higher <+: path ∧ ∃ e ∈ s.effectiveOn tree higher, x ∈ e.exclusions := by
  simp only [inherited, TableEntry.mem_allExclusions, List.mem_filterMap, List.mem_inits]
  constructor
  · rintro ⟨e, ⟨higher, hhigher, he⟩, hx⟩
    exact ⟨higher, hhigher, e, he, hx⟩
  · rintro ⟨higher, hhigher, e, he, hx⟩
    exact ⟨e, ⟨higher, hhigher, he⟩, hx⟩

/-- Below a node its exclusions after management join those inherited by it. -/
theorem inherited_concat {d : Dependency} (hd : node.dependency = some d) :
    s.inherited tree (above ++ [node]) =
      s.inherited tree above ∪ ((s.below tree above).effective d).exclusions := by
  have hlast : [above ++ [node]].filterMap (s.effectiveOn tree) =
      [(s.below tree above).effective d] := by
    simp [effectiveOn_concat, hd]
  have hinits : (above ++ [node]).inits = above.inits ++ [above ++ [node]] := by
    simp [List.inits_append]
  rw [inherited, hinits, List.filterMap_append, hlast]
  exact TableEntry.allExclusions_append _ _

theorem survives_nil (s : Snapshot) (tree : Node) : s.Survives tree [] := by
  intro above node h
  simp at h

/-- Every part of a surviving path that begins at the root survives too. -/
theorem Survives.of_above {path : List Node} (h : s.Survives tree path) (hbegins : above <+: path) :
    s.Survives tree above :=
  fun higher node hnode => h higher node (hnode.trans hbegins)

/-- A path survives if the nodes above its last one do, and the last one is not left out. -/
theorem survives_concat :
    s.Survives tree (above ++ [node]) ↔
      s.Survives tree above ∧ ∃ d, node.dependency = some d ∧
        ∀ x ∈ s.inherited tree above, x.excludes d.artifact = false := by
  have hkept : ∀ d : Dependency, (∀ x ∈ s.inherited tree above, x.excludes d.artifact = false) ↔
      ∀ higher, higher <+: above → ∀ e ∈ s.effectiveOn tree higher,
        ∀ x ∈ e.exclusions, x.excludes d.artifact = false := by
    intro d
    constructor
    · intro h higher hhigher e he x hx
      exact h x (mem_inherited.mpr ⟨higher, hhigher, e, he, hx⟩)
    · intro h x hx
      obtain ⟨higher, hhigher, e, he, hx⟩ := mem_inherited.mp hx
      exact h higher hhigher e he x hx
  simp only [hkept]
  constructor
  · intro h
    exact ⟨h.of_above (List.prefix_append _ _), h above node (List.prefix_refl _)⟩
  · rintro ⟨habove, hlast⟩ higher n hn
    rcases List.prefix_concat_iff.mp hn with heq | hbegins
    · obtain ⟨rfl, hnode⟩ := List.append_inj' heq rfl
      obtain rfl : n = node := by simpa using hnode
      exact hlast
    · exact habove higher n hbegins

instance decidableSurvives (s : Snapshot) (tree : Node) (path : List Node) :
    Decidable (s.Survives tree path) :=
  decidable_of_iff
    (∀ p ∈ path.inits, ∀ node ∈ p.getLast?, (node.dependency.any fun d =>
      ((s.inherited tree p.dropLast).firstMatch d.artifact).isNone) = true) <| by
    induction path using List.reverseRecOn with
    | nil => simp [survives_nil]
    | append_singleton above node ih =>
      simp only [survives_concat, ← ih, List.inits_append]
      simp [or_imp, forall_and, ExclusionSet.firstMatch_eq_none_iff, Option.any_eq_true]

/-! ## Expansion along paths -/

/-- A node below a surviving path is resolved to its record, if its own path survives. -/
theorem resolve_below (h : s.Survives tree above) (node : Node) :
    ((s.below tree above).resolve (s.inherited tree above) node).value =
      if s.Survives tree (above ++ [node]) then
        (s.recordOn tree (above ++ [node])).map fun r => ⟨r, s.inherited tree (above ++ [node])⟩
      else none := by
  split
  next hnode =>
    obtain ⟨d, hd, hkept⟩ := (survives_concat.mp hnode).2
    have hresolve := (resolve_eq_some_iff (s := s.below tree above)).mpr ⟨d, hd, hkept, rfl⟩
    rw [hresolve, recordOn_concat, hd, inherited_concat hd]
    rfl
  next hnode =>
    refine Option.eq_none_iff_forall_ne_some.mpr fun r hr => hnode ?_
    obtain ⟨d, hd, hkept, -⟩ := resolve_eq_some_iff.mp hr
    exact survives_concat.mpr ⟨h, d, hd, hkept⟩

/-- So it is expanded to its record with the forest below it, if its own path survives. -/
theorem expandNode_below (h : s.Survives tree above) (node : Node) :
    (s.below tree above).expandNode (s.inherited tree above) node =
      if s.Survives tree (above ++ [node]) then
        (s.recordOn tree (above ++ [node])).map fun r =>
          { r with children := s.forestBelow tree (above ++ [node]) node.children }
      else none := by
  rw [expandNode, resolve_below h]
  split
  next =>
    rw [Option.map_map, forestBelow, below_concat]
    simp only [Function.comp_def, value_expand]
  next => rfl

/-- A surviving sibling is expanded to its record with the forest below it. -/
theorem forestBelow_cons_of_survives {d : Dependency} (h : s.Survives tree (above ++ [node]))
    (hd : node.dependency = some d) (rest : List Node) :
    s.forestBelow tree above (node :: rest) =
      { (s.below tree above).resolved d ((s.below tree above).manage d).value with
        children := s.forestBelow tree (above ++ [node]) node.children } ::
          s.forestBelow tree above rest := by
  obtain ⟨habove, -⟩ := survives_concat.mp h
  rw [forestBelow, List.filterMap_cons, expandNode_below habove, if_pos h, recordOn_concat, hd]
  rfl

/-- A sibling that is left out leaves no trace. -/
theorem forestBelow_cons_of_not_survives (habove : s.Survives tree above)
    (h : ¬ s.Survives tree (above ++ [node])) (rest : List Node) :
    s.forestBelow tree above (node :: rest) = s.forestBelow tree above rest := by
  rw [forestBelow, List.filterMap_cons, expandNode_below habove, if_neg h]
  rfl

/-- Whatever the order of traversal, the collected forest is the one below the empty path. -/
theorem value_collect_eq_forestBelow (s : Snapshot) (tree : Node) (traversal : Traversal) :
    (s.collect tree traversal).value = s.forestBelow tree [] tree.children := by
  rw [value_collect, value_expand]
  rfl

end NearestWins.Snapshot
