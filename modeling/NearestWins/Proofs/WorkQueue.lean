import NearestWins.Proofs.Frontier
import NearestWins.Proofs.Visits

/-!
# The work queue

A round of the queue visits its first pending node and puts the children of the node, if it survives, at
the end. The visits that were made and those that the pending nodes still stand for are therefore
together always the same, so the queue runs dry after one round for each of them. Main statement:
between any two rounds the arena is well-formed, the rounds end when all visits are made, and assembly
then takes the whole arena out without coming to a slot that is missing or empty.
-/

namespace NearestWins

/-- The visit of a pending node. -/
def Pending.visit (p : Pending) : Visit := ⟨p.snapshot, p.excluded, p.node⟩

/-- The visits of a pending node and of what is below it. -/
def Pending.visits (p : Pending) : List Visit := p.snapshot.visits p.excluded p.node

namespace Frontier

variable {f : Frontier} {taken : List Pending}

theorem flatMap_visits_queueChildren (parent : Option Nat) (s : Snapshot) (excluded : ExclusionSet)
    (children : List Node) :
    (queueChildren parent s excluded children).flatMap Pending.visits =
      s.visitsAll excluded children := by
  rw [queueChildren, List.flatMap_map, Snapshot.visitsAll_eq_flatMap]
  rfl

/-- A round makes the first of the visits that are pending and keeps the others. -/
theorem visits_step {first : Pending} {rest : List Pending} (hpending : f.pending = first :: rest) :
    (f.pending.flatMap Pending.visits).Perm
      (first.visit :: (f.step first rest).value.pending.flatMap Pending.visits) := by
  have hfirst : first.visits = first.visit ::
      (first.snapshot.resolve first.excluded first.node).value.elim [] fun r =>
        (first.snapshot.derive first.node.managed).value.visitsAll r.inherited first.node.children :=
    Snapshot.visits_eq _ _ _
  rw [hpending, List.flatMap_cons, hfirst, step_value, List.cons_append]
  cases (first.snapshot.resolve first.excluded first.node).value with
  | none => exact .refl _
  | some r =>
    refine .cons _ ?_
    rw [Option.elim_some, List.flatMap_append, flatMap_visits_queueChildren]
    exact List.perm_append_comm

/-- The visits made in rounds and those still pending after them are those pending before. -/
theorem Rounds.visits_perm {last : Frontier} (h : Rounds f taken last) :
    (f.pending.flatMap Pending.visits).Perm
      (taken.map Pending.visit ++ last.pending.flatMap Pending.visits) := by
  induction h with
  | none => exact .refl _
  | round hpending _ ih => exact (visits_step hpending).trans (ih.cons _)

/-- From the start on, the visits made and those pending are together those on the visited paths. -/
theorem Rounds.visits_perm_start {s : Snapshot} {tree : Node} (h : Rounds (start s tree) taken f) :
    (taken.map Pending.visit ++ f.pending.flatMap Pending.visits).Perm
      ((s.visitedPaths tree).map (s.visitOn tree)) := by
  have hstart : (start s tree).pending.flatMap Pending.visits =
      (s.visitedPaths tree).map (s.visitOn tree) := by
    rw [start, flatMap_visits_queueChildren, Snapshot.visitsAll_root]
  exact hstart ▸ h.visits_perm.symm

/-- The queue is empty after one round for each visited path, and not before. -/
theorem Rounds.pending_eq_nil_iff {s : Snapshot} {tree : Node} (h : Rounds (start s tree) taken f) :
    f.pending = [] ↔ taken.length = (s.visitedPaths tree).length := by
  have hlength := h.visits_perm_start.length_eq
  rw [List.length_append, List.length_map, List.length_map] at hlength
  constructor
  · intro hnil
    simpa [hnil] using hlength
  · intro hcount
    have hnone : f.pending.flatMap Pending.visits = [] := List.length_eq_zero_iff.mp (by omega)
    refine List.eq_nil_iff_forall_not_mem.mpr fun p hp => ?_
    have hvisits : p.visits = [] := List.flatMap_eq_nil_iff.mp hnone p hp
    rw [Pending.visits, Snapshot.visits_eq] at hvisits
    exact absurd hvisits (List.cons_ne_nil _ _)

/-- The queue loses and repeats nothing. After any number of rounds the arena is well-formed: each slot is
filled and linked from one place, from an earlier slot, and in ascending order. The run is rounds until
the queue is empty, which it is after one round for each child of the root or of a surviving node. What
is then assembled is taken out of the arena without a skip, and every slot is left empty. -/
theorem work_queue_exact (s : Snapshot) (tree : Node) :
    (∀ taken f, Rounds (start s tree) taken f →
      f.WellFormed ∧ (f.pending = [] ↔ taken.length = (s.visitedPaths tree).length)) ∧
    (∃ taken, Rounds (start s tree) taken (start s tree).run.value ∧
      taken.length = (s.visitedPaths tree).length) ∧
    let last := (start s tree).run.value
    let empty := Array.replicate last.slots.size none
    TakesOut last.links last.slots last.topLevel (s.expandBreadthFirst tree).value empty ∧
      (assembleAll last.links last.slots last.topLevel).1 = (s.expandBreadthFirst tree).value ∧
      (assembleAll last.links last.slots last.topLevel).2.1 = empty := by
  obtain ⟨⟨taken, hrounds⟩, hempty⟩ := exists_rounds_run (start s tree)
  refine ⟨fun taken f h => ⟨h.wellFormed, h.pending_eq_nil_iff⟩,
    ⟨taken, hrounds, hrounds.pending_eq_nil_iff.mp hempty⟩, ?_⟩
  intro last empty
  have htakes : TakesOut last.links last.slots last.topLevel (s.expandBreadthFirst tree).value empty := by
    rw [s.value_expandBreadthFirst tree]
    exact takesOut_run s tree
  exact ⟨htakes, htakes.assembleAll_eq⟩

/-- A node that is left out with the one below it, and one without a dependency: four of five nodes are
visited, in four rounds. -/
theorem work_queue_exact_sample :
    let lib (name : String) (excluded : List String) : Dependency :=
      { artifact := { groupId := "g", artifactId := name, version := "1" }
        exclusions := .ofList (excluded.map (Exclusion.mk "g" · wildcard wildcard)) }
    let tree : Node :=
      { children := [
          { dependency := some (lib "a" ["x"])
            children := [
              { dependency := some (lib "b" []) },
              { dependency := some (lib "x" []), children := [{ dependency := some (lib "y" []) }] }] },
          {}] }
    let s := Snapshot.root .standard .legacy
    tree.descendants = 5 ∧ (s.visitedPaths tree).length = 4 ∧
      ∃ taken f, Rounds (start s tree) taken f ∧ taken.length = 4 ∧ f.WellFormed ∧ f.pending = [] := by
  intro lib tree s
  have hcount : (s.visitedPaths tree).length = 4 := by decide +kernel
  obtain ⟨hrounds, ⟨taken, hrun, htaken⟩, -⟩ := work_queue_exact s tree
  obtain ⟨hwf, hempty⟩ := hrounds taken _ hrun
  exact ⟨by decide +kernel, hcount, taken, _, hrun, htaken.trans hcount, hwf, hempty.mpr htaken⟩

end Frontier

end NearestWins
