import Mathlib.Data.List.TakeWhile
import NearestWins.Failure

/-!
# Contexts in reports

A problem gathers contexts on its way up, and its report shows them in front of its own details, the
outermost first. The chain of texts does not say where the contexts end, so `Failure.surroundings` looks for
the wording of the problem: a context that repeats this wording is taken for the problem itself. Main
statement: the report shows the contexts outside of the first one, seen from the outermost, that repeats the
problem. All contexts are shown exactly if none does.
-/

namespace NearestWins

/-- The details that show some contexts, the outermost first, in front of the details of a problem. -/
def Problem.detailsWithin (p : Problem) : List String → Option String
  | [] => p.details
  | contexts => some (": ".intercalate contexts ++ p.details.elim "" ("\n" ++ ·))

namespace Failure

/-- A problem with contexts around it, the innermost first. -/
def wrapped (p : Problem) (contexts : List String) : Failure :=
  contexts.foldl within (ofProblem p)

variable (p : Problem) (contexts : List String)

theorem wrapped_eq : wrapped p contexts = ⟨.problem p, contexts.reverse⟩ := by
  have hfold : ∀ f : Failure, contexts.foldl within f = ⟨f.cause, contexts.reverse ++ f.contexts⟩ := by
    induction contexts with
    | nil =>
      intro f
      rfl
    | cons context rest ih =>
      intro f
      rw [List.foldl_cons, ih, within, List.reverse_cons, List.append_assoc]
      rfl
  rw [wrapped, hfold, ofProblem, List.append_nil]

/-- The texts taken for contexts: those up to a repetition of the problem. -/
theorem surroundings_wrapped :
    (wrapped p contexts).surroundings p = contexts.reverse.takeWhile (· ≠ p.message) := by
  rw [wrapped_eq]
  have hown : ∀ others : List String,
      (contexts.reverse ++ p.message :: others).takeWhile (· ≠ p.message) =
        contexts.reverse.takeWhile (· ≠ p.message) := by
    intro others
    induction contexts.reverse with
    | nil => simp
    | cons context rest ih => simp only [List.cons_append, List.takeWhile_cons, ih]
  cases p <;> exact hown _

/-- The report of a problem within contexts shows the problem itself, its own suggestion, and what is taken
for contexts in front of its own details. -/
theorem report_wrapped : (wrapped p contexts).report =
    { problem := p.kept
      suggestion := p.suggestion
      details := p.detailsWithin (contexts.reverse.takeWhile (· ≠ p.message)) } := by
  have hreport : (wrapped p contexts).report =
      addSurroundings ((wrapped p contexts).surroundings p) p.report := by
    rw [wrapped_eq]
    rfl
  rw [hreport, surroundings_wrapped]
  cases contexts.reverse.takeWhile (· ≠ p.message) with
  | nil => rfl
  | cons context rest =>
    cases hdetails : p.details with
    | none => simp [addSurroundings, Problem.detailsWithin, Problem.report, hdetails]
    | some details =>
      simp [addSurroundings, Problem.detailsWithin, Problem.report, hdetails, String.append_assoc]

/-- A copy of a problem reads like the problem. -/
theorem message_kept : p.kept.message = p.message := by
  cases p <;> rfl

/-- Details that show more contexts are longer, or there were none. -/
theorem detailsWithin_append_ne {more : List String} (h : more ≠ []) :
    p.detailsWithin (contexts ++ more) ≠ p.detailsWithin contexts := by
  obtain ⟨context, rest, rfl⟩ := List.exists_cons_of_ne_nil h
  cases contexts with
  | nil =>
    rw [List.nil_append, Problem.detailsWithin, Problem.detailsWithin]
    · cases hdetails : p.details with
      | none => simp
      | some details =>
        intro heq
        have hlength := congrArg String.length (Option.some.inj heq)
        simp only [Option.elim_some, String.length_append] at hlength
        have hbreak : "\n".length = 1 := rfl
        omega
    · simp
  | cons first others =>
    rw [List.cons_append, Problem.detailsWithin, Problem.detailsWithin, ← List.cons_append,
      String.intercalate_append_of_ne_nil (by simp) (by simp)]
    · intro heq
      have hlength := congrArg String.length (Option.some.inj heq)
      simp only [String.length_append] at hlength
      have hseparator : ": ".length = 2 := rfl
      omega
    · simp
    · simp

/-- All contexts are shown exactly if none repeats the problem. -/
theorem detailsWithin_takeWhile_eq_iff :
    p.detailsWithin (contexts.reverse.takeWhile (· ≠ p.message)) = p.detailsWithin contexts.reverse ↔
      ∀ context ∈ contexts, context ≠ p.message := by
  let shown := contexts.reverse.takeWhile (· ≠ p.message)
  let lost := contexts.reverse.dropWhile (· ≠ p.message)
  have hsplit : contexts.reverse = shown ++ lost := List.takeWhile_append_dropWhile.symm
  constructor
  · intro heq context hcontext
    have hnone : lost = [] := by
      by_contra hlost
      refine detailsWithin_append_ne p shown hlost ?_
      rw [← hsplit, heq]
    have hall := List.dropWhile_eq_nil_iff.mp hnone context (List.mem_reverse.mpr hcontext)
    simpa using hall
  · intro hnone
    have hshown : contexts.reverse.takeWhile (· ≠ p.message) = contexts.reverse := by
      refine List.takeWhile_eq_self_iff.mpr fun context hcontext => ?_
      simp [hnone context (List.mem_reverse.mp hcontext)]
    rw [hshown]

/-- The report of a problem within contexts reads like the problem and makes the same suggestion. In front of
the details of the problem it shows the contexts outside of the outermost one that repeats the problem, which
are all contexts exactly if none repeats it. -/
theorem contexts_shown_unless_repeated (p : Problem) (contexts : List String) :
    let r := (wrapped p contexts).report
    r.problem.message = p.message ∧ r.suggestion = (ofProblem p).report.suggestion ∧
      r.details = p.detailsWithin (contexts.reverse.takeWhile (· ≠ p.message)) ∧
      (r.details = p.detailsWithin contexts.reverse ↔
        ∀ context ∈ contexts, context ≠ p.message) := by
  have hreport := report_wrapped p contexts
  have halone : (ofProblem p).report.suggestion = p.suggestion := by
    have hempty := report_wrapped p []
    rw [wrapped_eq] at hempty
    exact congrArg Report.suggestion hempty
  refine ⟨?_, ?_, ?_, ?_⟩
  · rw [hreport]
    exact message_kept p
  · rw [hreport, halone]
  · rw [hreport]
  · rw [hreport]
    exact detailsWithin_takeWhile_eq_iff p contexts

/-- A context that repeats the problem hides itself and all contexts inside it. -/
theorem repeated_context_hidden :
    let p := Problem.unknownPreset "x"
    let contexts := ["reading depmgr.toml", "Unknown management preset: x"]
    (wrapped p contexts).report.details ≠ p.detailsWithin contexts.reverse := by
  intro p contexts
  rw [report_wrapped, Ne, detailsWithin_takeWhile_eq_iff]
  intro hnone
  have hrepeats : "Unknown management preset: x" = p.message := by decide
  exact hnone _ (by simp [contexts]) hrepeats

end Failure

end NearestWins
