import NearestWins.Proofs.RecordedCalls
import NearestWins.Proofs.WorkQueue

/-!
# What a collection decides

Equal results do not say that equal work was done for them. In every order of traversal a visit leads to
the same calls, the node is resolved and, if it survives, the snapshot for its children is derived; the
orders differ in which visit comes when. Main statement: the logs of all orders are permutations of each
other but for the opening event, every child of the root or of a surviving node is resolved once, the
declarations of the root and of every survivor are derived from once, and nothing else is resolved or
derived.
-/

namespace NearestWins

open Operations

/-- The calls of a visit. -/
def Visit.calls (v : Visit) : List Call :=
  .resolve v :: v.survivor.elim [] fun _ => [.derive v.snapshot v.node.managed]

/-- The visit that a call makes, if it resolves a node. -/
def Call.visit? : Call → Option Visit
  | .resolve v => some v
  | .derive .. => none

/-- The snapshot and the declarations that a call derives from, if it does. -/
def Call.derivation? : Call → Option (Snapshot × List Dependency)
  | .resolve _ => none
  | .derive s managed => some (s, managed)

theorem Visit.filterMap_visit?_calls (v : Visit) : v.calls.filterMap Call.visit? = [v] := by
  rw [calls]
  cases v.survivor <;> rfl

theorem Visit.filterMap_derivation?_calls (v : Visit) :
    v.calls.filterMap Call.derivation? =
      if v.survivor.isSome then [(v.snapshot, v.node.managed)] else [] := by
  rw [calls]
  cases v.survivor <;> rfl

/-! ## The calls of the expansions -/

namespace Snapshot

/-- At and below a node, the calls are those of its own visit and then, if it survives, of the visits
below it. -/
theorem calls_visits (s : Snapshot) (excluded : ExclusionSet) (node : Node) :
    (s.visits excluded node).flatMap Visit.calls = .resolve ⟨s, excluded, node⟩ ::
      (s.resolve excluded node).value.elim [] fun r => .derive s node.managed ::
        ((s.derive node.managed).value.visitsAll r.inherited node.children).flatMap Visit.calls := by
  rw [visits_eq, List.flatMap_cons, Visit.calls, Visit.survivor]
  cases (s.resolve excluded node).value with
  | none => rfl
  | some r => rfl

mutual

theorem log_expand (s : Snapshot) (excluded : ExclusionSet) :
    ∀ node : Node, (recording.expand s excluded node).log = .derive s node.managed ::
      ((s.derive node.managed).value.visitsAll excluded node.children).flatMap Visit.calls
  | ⟨_, managed, children⟩ => by
    have hchildren := log_expandAll (s.derive managed).value excluded children
    rw [Operations.expand, derive_recording, Traced.log_bind, hchildren]
    rfl

/-- Depth-first, the calls are those of one visit after the other. -/
theorem log_expandAll (s : Snapshot) (excluded : ExclusionSet) :
    ∀ nodes : List Node,
      (recording.expandAll s excluded nodes).log = (s.visitsAll excluded nodes).flatMap Visit.calls
  | [] => rfl
  | node :: rest => by
    have hnode := fun inherited => log_expand s inherited node
    have hrest := log_expandAll s excluded rest
    rw [Operations.expandAll, resolve_recording, Traced.log_bind, visitsAll, List.flatMap_append,
      calls_visits]
    cases (s.resolve excluded node).value with
    | none => simp [hrest]
    | some r => simp [hnode, hrest]

end

mutual

theorem log_expandTask (s : Snapshot) (excluded : ExclusionSet) :
    ∀ node : Node,
      (recording.expandTask s excluded node).log = (s.visits excluded node).flatMap Visit.calls
  | ⟨dependency, managed, children⟩ => by
    have hchildren := fun inherited =>
      log_joinTasks (s.derive managed).value inherited children
    rw [Operations.expandTask, resolve_recording, Traced.log_bind, calls_visits]
    cases (s.resolve excluded ⟨dependency, managed, children⟩).value with
    | none => rfl
    | some r => simp [derive_recording, hchildren]

/-- In parallel, the calls of siblings are joined in the order of the siblings. -/
theorem log_joinTasks (s : Snapshot) (excluded : ExclusionSet) :
    ∀ nodes : List Node, (joinTasks (recording.spawnAll s excluded nodes)).log =
      (s.visitsAll excluded nodes).flatMap Visit.calls
  | [] => rfl
  | node :: rest => by
    have hnode := log_expandTask s excluded node
    have hrest := log_joinTasks s excluded rest
    rw [Operations.spawnAll, joinTasks, visitsAll, List.flatMap_append, ← hnode, ← hrest]
    simp [Task.spawn]

end

end Snapshot

namespace Frontier

/-- A round with its calls leads where the round with its events leads. -/
theorem value_step_recording (f : Frontier) (first : Pending) (rest : List Pending) :
    (recording.step f first rest).value = (f.step first rest).value :=
  congrArg Traced.value (recording_translates.step f first rest)

/-- The calls of a round are those of the visit that it makes. -/
theorem log_step (f : Frontier) (first : Pending) (rest : List Pending) :
    (recording.step f first rest).log = first.visit.calls := by
  rw [Operations.step, resolve_recording, Traced.log_bind, Visit.calls, Visit.survivor, Pending.visit]
  cases (first.snapshot.resolve first.excluded first.node).value with
  | none => rfl
  | some r => rfl

/-- The calls of a run are those of the visits that its rounds make, in their order. -/
theorem log_run {f last : Frontier} {taken : List Pending} (h : Rounds f taken last)
    (hlast : last.pending = []) :
    (recording.run f).log = (taken.map Pending.visit).flatMap Visit.calls := by
  induction h with
  | none => rw [run_of_nil _ hlast, List.map_nil, Traced.log_pure, List.flatMap_nil]
  | round hpending _ ih =>
    rw [run_of_cons _ hpending, Traced.log_bind, log_step, value_step_recording, ih hlast,
      List.map_cons, List.flatMap_cons]

end Frontier

namespace Snapshot

/-- The calls of a collection: the declarations of the root are derived from, and each visited path is
visited. -/
def callsOf (s : Snapshot) (tree : Node) : List Call :=
  .derive s tree.managed :: ((s.visitedPaths tree).map (s.visitOn tree)).flatMap Visit.calls

theorem log_expandBreadthFirst (s : Snapshot) (tree : Node) :
    (recording.expandBreadthFirst s tree).log.Perm (s.callsOf tree) := by
  obtain ⟨⟨taken, hrounds⟩, hempty⟩ := Frontier.exists_rounds_run (Frontier.start s tree)
  have hperm := hrounds.visits_perm_start
  rw [hempty, List.flatMap_nil, List.append_nil] at hperm
  have hcalls : (recording.expandBreadthFirst s tree).log =
      .derive s tree.managed :: (recording.run (Frontier.start s tree)).log := by
    rw [Operations.expandBreadthFirst, derive_recording]
    simp [Frontier.start]
  rw [hcalls, Frontier.log_run hrounds hempty]
  exact (hperm.flatMap_right Visit.calls).cons _

/-- In every order of traversal the calls are the same, up to their order. -/
theorem log_expansion (s : Snapshot) (tree : Node) (traversal : Traversal) :
    (recording.expansion s tree traversal).log.Perm (s.callsOf tree) := by
  rw [callsOf, ← visitsAll_root]
  cases traversal with
  | depthFirst => exact .of_eq (log_expand s ∅ tree)
  | breadthFirst => rw [visitsAll_root]; exact s.log_expandBreadthFirst tree
  | parallel =>
    rw [expansion, expandParallel, derive_recording, Traced.log_bind, log_joinTasks]
    exact .refl _

/-! ## Resolved and derived once -/

/-- The root paths of the root and of the nodes that survive. -/
def survivingPaths (s : Snapshot) (tree : Node) : List (List Node) :=
  ([] :: tree.rootPaths).filter fun path => s.Survives tree path

/-- The snapshot that the last node of a path has, or the root, with the declarations of the node. -/
def derivationOn (s : Snapshot) (tree : Node) (path : List Node) : Snapshot × List Dependency :=
  (s.deriveAll ((tree :: path).dropLast.map Node.managed), (path.getLastD tree).managed)

theorem derivationOn_concat (s : Snapshot) (tree : Node) (above : List Node) (node : Node) :
    s.derivationOn tree (above ++ [node]) = (s.below tree above, node.managed) := by
  rw [derivationOn, ← List.cons_append, List.dropLast_concat, below]
  simp

/-- On each visited path the last node is resolved, and nothing else is. -/
theorem filterMap_visit?_callsOf (s : Snapshot) (tree : Node) :
    (s.callsOf tree).filterMap Call.visit? = (s.visitedPaths tree).map (s.visitOn tree) := by
  rw [callsOf, List.filterMap_cons_none rfl, List.filterMap_flatMap]
  simp only [Visit.filterMap_visit?_calls, List.flatMap_singleton']

/-- Of the paths that are visited, those are derived on that survive to the end. -/
theorem derivations_visited (s : Snapshot) (tree : Node) (paths : List (List Node))
    (hne : ∀ path ∈ paths, path ≠ []) :
    ((((paths.filter fun path => s.Survives tree path.dropLast).map (s.visitOn tree)).flatMap
      Visit.calls).filterMap Call.derivation?) =
        (paths.filter fun path => s.Survives tree path).map (s.derivationOn tree) := by
  induction paths with
  | nil => rfl
  | cons path rest ih =>
    have hrest := ih fun path hpath => hne path (List.mem_cons_of_mem _ hpath)
    obtain ⟨above, node, rfl⟩ : ∃ above node, path = above ++ [node] :=
      (List.eq_nil_or_concat' path).resolve_left (hne path (List.mem_cons_self ..))
    by_cases habove : s.Survives tree above
    · have hsurvives := isSome_survivor_visitOn habove node
      rw [List.filter_cons_of_pos (by simpa using habove), List.map_cons, List.flatMap_cons,
        List.filterMap_append, Visit.filterMap_derivation?_calls, hrest]
      by_cases hnode : s.Survives tree (above ++ [node])
      · rw [if_pos (hsurvives.mpr hnode), List.filter_cons_of_pos (by simpa using hnode),
          List.map_cons, derivationOn_concat, visitOn_concat]
        rfl
      · rw [if_neg (mt hsurvives.mp hnode), List.filter_cons_of_neg (by simpa using hnode)]
        rfl
    · have hnode : ¬ s.Survives tree (above ++ [node]) :=
        fun h => habove (h.of_above (List.prefix_append _ _))
      rw [List.filter_cons_of_neg (by simpa using habove),
        List.filter_cons_of_neg (by simpa using hnode), hrest]

/-- The declarations of the root and of every survivor are derived from, and no others are. -/
theorem filterMap_derivation?_callsOf (s : Snapshot) (tree : Node) :
    (s.callsOf tree).filterMap Call.derivation? =
      (s.survivingPaths tree).map (s.derivationOn tree) := by
  have hne : ∀ path ∈ tree.rootPaths, path ≠ [] := fun _ => Node.ne_nil_of_mem_pathsFromAll
  have hroot : Call.derivation? (.derive s tree.managed) = some (s.derivationOn tree []) := rfl
  rw [callsOf, List.filterMap_cons_some hroot, visitedPaths, derivations_visited s tree _ hne,
    survivingPaths, List.filter_cons_of_pos (by simpa using survives_nil s tree), List.map_cons]

/-- All traversals make the same decisions, each once. The logs of two of them are permutations of each
other behind the opening event. Run with each call noted in place of its events, an expansion notes the calls
that report the events of the collection. Up to their order these are one resolution of each child of the root
and of a surviving node, and one derivation from the declarations of the root and of each survivor; what is
below a node that is left out is neither resolved nor derived. -/
theorem traversals_decide_once (s : Snapshot) (tree : Node) :
    (∀ first second : Traversal, ∃ events others,
      (s.collect tree first).log = .collecting tree.descendants first s.depth :: events ∧
      (s.collect tree second).log = .collecting tree.descendants second s.depth :: others ∧
      events.Perm others) ∧
    ∀ traversal, let run := recording.expansion s tree traversal
      (s.collect tree traversal = do
        Logged.report (.collecting tree.descendants traversal s.depth)
        run.translate Call.log) ∧
      (run.log.filterMap Call.visit?).Perm ((s.visitedPaths tree).map (s.visitOn tree)) ∧
      (run.log.filterMap Call.derivation?).Perm
        ((s.survivingPaths tree).map (s.derivationOn tree)) := by
  constructor
  · intro first second
    have hlog : ∀ traversal, (s.collect tree traversal).log =
        .collecting tree.descendants traversal s.depth ::
          (recording.expansion s tree traversal).log.flatMap Call.log := by
      intro traversal
      rw [collect_eq_translate]
      rfl
    have hcalls := (s.log_expansion tree first).trans (s.log_expansion tree second).symm
    exact ⟨_, _, hlog first, hlog second, hcalls.flatMap_right Call.log⟩
  · intro traversal run
    have hcalls := s.log_expansion tree traversal
    refine ⟨s.collect_eq_translate tree traversal, ?_, ?_⟩
    · rw [← filterMap_visit?_callsOf]
      exact hcalls.filterMap _
    · rw [← filterMap_derivation?_callsOf]
      exact hcalls.filterMap _

end Snapshot

end NearestWins
