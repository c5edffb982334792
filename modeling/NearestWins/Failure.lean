import NearestWins.Problem

/-!
# Failures and reports

A failure is a cause with the contexts that were put around it on the way up. `Failure.report` turns
it into what a user is shown: the problem, details that begin with the contexts, and a suggestion
where there is one.
-/

namespace NearestWins

/-- What a failure goes back to. -/
inductive Cause
  /-- A problem of this program. -/
  | problem (problem : Problem)
  /-- A file that could not be read, met outside the program's own problems. -/
  | unreadable (failure : ReadFailure)
  /-- A text that does not read as TOML, met outside the program's own problems. -/
  | invalidToml (reason : String)
  /-- A bare message. -/
  | message (text : String)
deriving DecidableEq

/-- A cause with the contexts around it. -/
structure Failure where
  /-- What the failure goes back to. -/
  cause : Cause
  /-- The contexts, outermost first. -/
  contexts : List String := []
deriving DecidableEq

namespace Failure

/-- The failure of a problem without context. -/
def ofProblem (problem : Problem) : Failure := { cause := .problem problem }

/-- Puts a further context around a failure. -/
def within (f : Failure) (context : String) : Failure :=
  { f with contexts := context :: f.contexts }

end Failure

/-- The texts of a cause, each followed by that of its own cause. -/
def Cause.chain : Cause → List String
  | .problem (.unreadable failure) => [(Problem.unreadable failure).message, failure.message]
  | .problem (.invalidToml reason) => [(Problem.invalidToml reason).message, reason]
  | .problem p => [p.message]
  | .unreadable failure => [failure.message]
  | .invalidToml reason => [reason]
  | .message text => [text]

/-- All texts of a failure, from the outermost context to the last cause. -/
def Failure.chain (f : Failure) : List String :=
  f.contexts ++ f.cause.chain

/-- What a user is shown. -/
structure Report where
  /-- The problem. -/
  problem : Problem
  /-- How it may be solved. -/
  suggestion : Option String := none
  /-- More about it. -/
  details : Option String := none
deriving DecidableEq

/-- Advice for a file that is not there. -/
def missingFileSuggestion : String := "Check that the file exists and the path is correct"

namespace Problem

/-- How a problem may be solved. -/
def suggestion : Problem → Option String
  | .unreadable ⟨.notFound, _⟩ => some missingFileSuggestion
  | .unknownPreset _ => some "Use one of: default, transitive, classic"
  | .invalidCoordinate .. =>
    some "Write coordinates as group:artifact[:extension[:classifier]]:version"
  | .invalidExclusion _ =>
    some "Write exclusions as group:artifact or group:artifact:classifier:extension"
  | .localPathMissing _ => some "Set system_path on the dependency or on its managed declaration"
  | .localFileMissing .. => some "Fix the declared system path or create the file"
  | _ => none

/-- More about a problem. -/
def details : Problem → Option String
  | .unknownPreset _ =>
    some "Presets only differ in the depths at which management is inherited and applied"
  | .localPathMissing coordinate =>
    some (s!"'{coordinate}' is in system scope, so it is never fetched from a repository and " ++
      "must name a local file")
  | .localFileMissing _ path => some s!"No regular file exists at {path}"
  | _ => none

/-- A problem as a report keeps it: one about TOML by its wording alone. -/
def kept : Problem → Problem
  | .invalidToml reason => .other (Problem.invalidToml reason).message
  | problem => problem

/-- The report of a problem without context. -/
def report (p : Problem) : Report where
  problem := p.kept
  suggestion := p.suggestion
  details := p.details

end Problem

namespace Failure

/-- The outermost text of a failure with its causes numbered below it. -/
def chainMessage (f : Failure) : String :=
  match f.chain with
  | [] => ""
  | [text] => text
  | text :: causes =>
    text ++ "\n\nCaused by:" ++
      String.join (causes.mapIdx fun i cause => s!"\n  {i + 1}: {cause}")

/-- The texts around a problem: those of the chain up to the first one that reads like it. -/
def surroundings (f : Failure) (p : Problem) : List String :=
  f.chain.takeWhile (· ≠ p.message)

/-- Puts the texts around a problem in front of its details. -/
def addSurroundings (surroundings : List String) (r : Report) : Report :=
  match surroundings with
  | [] => r
  | _ =>
    let context := ": ".intercalate surroundings
    { r with details := some (r.details.elim context fun details => context ++ "\n" ++ details) }

/-- The report of a failure. -/
def report (f : Failure) : Report :=
  match f.cause with
  | .problem p => addSurroundings (f.surroundings p) p.report
  | .unreadable ⟨.notFound, _⟩ =>
    { problem := .other f.chainMessage, suggestion := some missingFileSuggestion }
  | .invalidToml reason =>
    { problem := .invalidTree "<input>" reason
      suggestion := some "Check the TOML syntax. Verify quotes, brackets, and table headers" }
  | _ => { problem := .other f.chainMessage }

end Failure

namespace Report

/-- A report as one text. -/
def describe (r : Report) : String :=
  r.problem.message ++ r.details.elim "" ("\nDetails: " ++ ·) ++
    r.suggestion.elim "" ("\nSuggestion: " ++ ·)

end Report

end NearestWins
