import NearestWins.Collect.Forest
import NearestWins.Proofs.Frontier
import NearestWins.Proofs.Visits

/-!
# Recorded calls

An expansion decides about a tree by two operations: it resolves nodes and derives snapshots. Either may
happen without leaving an event in the log, so the log does not say how often they are called.
`Operations.recording` are the same two operations, but what is noted is the call itself, in the order of
the calls. Main statement: an expansion keeps what can be said about its operations. If the notes of some
operations are those of others translated, then so are the notes of the expansions, for every order of
traversal; in particular the events of a collection are those that its recorded calls report.
-/

namespace NearestWins

/-! ## Translated notes -/

namespace Traced

variable {ε δ α β : Type}

/-- The value with each note replaced by others. -/
def translate (words : ε → List δ) (x : Traced ε α) : Traced δ α := ⟨x.value, x.log.flatMap words⟩

@[simp] theorem translate_pure (words : ε → List δ) (a : α) :
    (pure a : Traced ε α).translate words = pure a := rfl

@[simp] theorem translate_bind (words : ε → List δ) (x : Traced ε α) (f : α → Traced ε β) :
    (x >>= f).translate words = x.translate words >>= fun a => (f a).translate words :=
  congrArg (Traced.mk (f x.value).value) List.flatMap_append

/-- What comes after a value depends on the value only. -/
theorem bind_congr {x : Traced ε α} {f g : α → Traced ε β} (h : f x.value = g x.value) :
    x >>= f = x >>= g :=
  congrArg (fun y : Traced ε β => (⟨y.value, x.log ++ y.log⟩ : Traced ε β)) h

end Traced

namespace Operations

variable {ε δ : Type}

/-- Operations do what others do, and their notes are those of the others translated. -/
structure Translates (words : ε → List δ) (ops : Operations ε) (ops' : Operations δ) : Prop where
  resolve : ∀ s excluded node,
    (ops.resolve s excluded node).translate words = ops'.resolve s excluded node
  derive : ∀ s managed, (ops.derive s managed).translate words = ops'.derive s managed

namespace Translates

variable {words : ε → List δ} {ops : Operations ε} {ops' : Operations δ}

mutual

theorem expand (T : Translates words ops ops') (s : Snapshot) (excluded : ExclusionSet) :
    ∀ node, (ops.expand s excluded node).translate words = ops'.expand s excluded node
  | ⟨_, managed, children⟩ => by
    have hchildren := fun child => T.expandAll child excluded children
    rw [Operations.expand, Operations.expand, Traced.translate_bind, T.derive]
    simp only [hchildren]

theorem expandAll (T : Translates words ops ops') (s : Snapshot) (excluded : ExclusionSet) :
    ∀ nodes, (ops.expandAll s excluded nodes).translate words = ops'.expandAll s excluded nodes
  | [] => rfl
  | node :: rest => by
    have hnode := fun inherited => T.expand s inherited node
    have hrest := T.expandAll s excluded rest
    rw [Operations.expandAll, Operations.expandAll, Traced.translate_bind, T.resolve]
    refine congrArg (ops'.resolve s excluded node >>= ·) (funext fun r => ?_)
    cases r with
    | none => exact hrest
    | some r => simp only [Traced.translate_bind, Traced.translate_pure, hnode, hrest]

end

theorem step (T : Translates words ops ops') (f : Frontier) (first : Pending) (rest : List Pending) :
    (ops.step f first rest).translate words = ops'.step f first rest := by
  rw [Operations.step, Operations.step, Traced.translate_bind, T.resolve]
  refine congrArg (ops'.resolve first.snapshot first.excluded first.node >>= ·) (funext fun r => ?_)
  cases r with
  | none => rfl
  | some r => simp only [Traced.translate_bind, Traced.translate_pure, T.derive]

theorem run (T : Translates words ops ops') (f : Frontier) :
    (ops.run f).translate words = ops'.run f := by
  induction hw : Frontier.weight f.pending using Nat.strongRecOn generalizing f with
  | ind w ih =>
    cases hpending : f.pending with
    | nil => rw [run_of_nil _ hpending, run_of_nil _ hpending, Traced.translate_pure]
    | cons first rest =>
      have hlt : Frontier.weight (ops'.step f first rest).value.pending < w := by
        rw [← hw, hpending]
        exact ops'.weight_step_lt f first rest
      rw [run_of_cons _ hpending, run_of_cons _ hpending, Traced.translate_bind, T.step]
      exact Traced.bind_congr (ih _ hlt _ rfl)

theorem expandBreadthFirst (T : Translates words ops ops') (s : Snapshot) (node : Node) :
    (ops.expandBreadthFirst s node).translate words = ops'.expandBreadthFirst s node := by
  rw [Operations.expandBreadthFirst, Operations.expandBreadthFirst, Traced.translate_bind, T.derive]
  simp only [Traced.translate_bind, Traced.translate_pure, T.run]

mutual

theorem expandTask (T : Translates words ops ops') (s : Snapshot) (excluded : ExclusionSet) :
    ∀ node, (ops.expandTask s excluded node).translate words = ops'.expandTask s excluded node
  | ⟨dependency, managed, children⟩ => by
    have hchildren := fun child inherited => T.joinTasks child inherited children
    rw [Operations.expandTask, Operations.expandTask, Traced.translate_bind, T.resolve]
    refine congrArg (ops'.resolve s excluded ⟨dependency, managed, children⟩ >>= ·)
      (funext fun r => ?_)
    cases r with
    | none => rfl
    | some r => simp only [Traced.translate_bind, Traced.translate_pure, T.derive, hchildren]

theorem joinTasks (T : Translates words ops ops') (s : Snapshot) (excluded : ExclusionSet) :
    ∀ nodes, (NearestWins.joinTasks (ops.spawnAll s excluded nodes)).translate words =
      NearestWins.joinTasks (ops'.spawnAll s excluded nodes)
  | [] => rfl
  | node :: rest => by
    have hnode := T.expandTask s excluded node
    have hrest := T.joinTasks s excluded rest
    rw [spawnAll, spawnAll, NearestWins.joinTasks, NearestWins.joinTasks]
    simp only [Traced.translate_bind, Traced.translate_pure, Task.spawn, hnode, hrest]

end

theorem expandParallel (T : Translates words ops ops') (s : Snapshot) (excluded : ExclusionSet)
    (node : Node) :
    (ops.expandParallel s excluded node).translate words = ops'.expandParallel s excluded node := by
  rw [Operations.expandParallel, Operations.expandParallel, Traced.translate_bind, T.derive]
  simp only [T.joinTasks]

/-- In every order of traversal, the notes of an expansion are translated as those of its operations
are. -/
theorem expansion (T : Translates words ops ops') (s : Snapshot) (tree : Node) (traversal : Traversal) :
    (ops.expansion s tree traversal).translate words = ops'.expansion s tree traversal := by
  cases traversal with
  | depthFirst => exact T.expand s ∅ tree
  | breadthFirst => exact T.expandBreadthFirst s tree
  | parallel => exact T.expandParallel s ∅ tree

end Translates

end Operations

/-! ## Calls as notes -/

/-- A call of one of the two operations that decide about a tree. -/
inductive Call
  /-- A node is resolved. -/
  | resolve (visit : Visit)
  /-- The snapshot for the children of a node is derived. -/
  | derive (snapshot : Snapshot) (managed : List Dependency)

/-- The events that a call reports. -/
def Call.log : Call → List Event
  | .resolve v => (v.snapshot.resolve v.excluded v.node).log
  | .derive s managed => (s.derive managed).log

namespace Operations

/-- The operations that note each call. -/
def recording : Operations Call where
  resolve s excluded node := ⟨(s.resolve excluded node).value, [.resolve ⟨s, excluded, node⟩]⟩
  derive s managed := ⟨(s.derive managed).value, [.derive s managed]⟩

theorem resolve_recording (s : Snapshot) (excluded : ExclusionSet) (node : Node) :
    recording.resolve s excluded node =
      ⟨(s.resolve excluded node).value, [.resolve ⟨s, excluded, node⟩]⟩ := rfl

theorem derive_recording (s : Snapshot) (managed : List Dependency) :
    recording.derive s managed = ⟨(s.derive managed).value, [.derive s managed]⟩ := rfl

/-- The events are what the calls report. -/
theorem recording_translates : Translates Call.log recording reporting where
  resolve s excluded node := by
    rw [resolve_recording, Traced.translate, List.flatMap_singleton, Call.log, resolve_reporting]
  derive s managed := by
    rw [derive_recording, Traced.translate, List.flatMap_singleton, Call.log, derive_reporting]

end Operations

/-- A collection opens with one event, and all others are reported by the recorded calls. -/
theorem Snapshot.collect_eq_translate (s : Snapshot) (tree : Node) (traversal : Traversal) :
    s.collect tree traversal = (do
      Logged.report (.collecting tree.descendants traversal s.depth)
      (Operations.recording.expansion s tree traversal).translate Call.log) := by
  rw [collect, Operations.recording_translates.expansion]

end NearestWins
