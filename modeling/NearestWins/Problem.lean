/-!
# Problems

Everything that can go wrong at the edges of the program: a text that is no coordinate, a file that
cannot be read, a document that does not fit its records, a local file that is not there. Management
itself never fails. A `Problem` is a cause; `Problem.message` is its wording.
-/

namespace NearestWins

/-- Whether reading failed because there is no such file, the one reason with advice of its own. -/
inductive ReadFailureKind
  /-- Nothing is there under the path. -/
  | notFound
  /-- Any other reason. -/
  | other
deriving DecidableEq

/-- Why a file could not be read. -/
structure ReadFailure where
  /-- The kind of failure. -/
  kind : ReadFailureKind
  /-- What the operating system says about it. -/
  message : String
deriving DecidableEq

/-- A cause of failure. -/
inductive Problem
  /-- The configuration contradicts itself. -/
  | inconsistentConfig (message : String)
  /-- A preset name that is none of the known ones. -/
  | unknownPreset (name : String)
  /-- A text that is no artifact coordinate. -/
  | invalidCoordinate (coordinate reason : String)
  /-- A text that is no exclusion. -/
  | invalidExclusion (exclusion : String)
  /-- A dependency tree file that cannot be used. -/
  | invalidTree (file reason : String)
  /-- A system-scoped dependency without a local path. -/
  | localPathMissing (coordinate : String)
  /-- A system-scoped dependency whose local path is no file. -/
  | localFileMissing (coordinate path : String)
  /-- A file could not be read. -/
  | unreadable (failure : ReadFailure)
  /-- A text does not read as TOML, for a reason in the words of the TOML reader. -/
  | invalidToml (reason : String)
  /-- Anything else, given by its wording alone. -/
  | other (message : String)
deriving DecidableEq

/-- The wording of a problem. -/
def Problem.message : Problem → String
  | .inconsistentConfig message => s!"Configuration error: {message}"
  | .unknownPreset name => s!"Unknown management preset: {name}"
  | .invalidCoordinate coordinate reason => s!"Invalid artifact coordinate '{coordinate}': {reason}"
  | .invalidExclusion exclusion => s!"Invalid exclusion '{exclusion}'"
  | .invalidTree file reason => s!"Invalid dependency tree in {file}: {reason}"
  | .localPathMissing coordinate =>
    s!"System-scoped dependency '{coordinate}' does not declare a local path"
  | .localFileMissing coordinate path =>
    s!"System-scoped dependency '{coordinate}' points to missing file {path}"
  | .unreadable failure => "IO error: " ++ failure.message
  | .invalidToml reason => "TOML parsing error: " ++ reason
  | .other message => message

end NearestWins
