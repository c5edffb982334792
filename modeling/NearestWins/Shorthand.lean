import NearestWins.Dependency
import NearestWins.Management.Snapshot

/-!
# Shorthand

Dependencies and declarations from a few texts, for trying things out.
-/

namespace NearestWins.Shorthand

/-- A text that is not what a shorthand needs. -/
inductive Fault
  /-- A coordinate does not read. -/
  | coordinate (text : String) (problem : Problem)
  /-- An exclusion does not read. -/
  | exclusion (problem : Problem)
deriving DecidableEq

/-- The wording of a fault. -/
def Fault.message : Fault → String
  | .coordinate text problem => s!"bad test coordinate {text}: " ++ problem.message
  | .exclusion problem => "bad test exclusion: " ++ problem.message

/-- The artifact of a coordinate. -/
def artifact (coordinate : String) : Except Fault Artifact :=
  (Artifact.parse coordinate).mapError (.coordinate coordinate)

/-- A dependency on the artifact of a coordinate. -/
def dependency (coordinate scope : String) : Except Fault Dependency := do
  return { artifact := ← artifact coordinate, scope := scope }

/-- A declaration that manages a version. -/
def managedVersion (coordinate version : String) : Except Fault Dependency := do
  return { artifact := { ← artifact coordinate with version := version } }

/-- A declaration that adds exclusions. -/
def managedExclusions (coordinate : String) (exclusions : List String) :
    Except Fault Dependency := do
  let a ← artifact coordinate
  let exclusions ← exclusions.mapM fun text => (Exclusion.parse text).mapError .exclusion
  return ({ artifact := a } : Dependency).withExclusions exclusions

/-- A root snapshot with the legacy scope policy. -/
def rootSnapshot (preset : Preset) : Snapshot := .root preset .legacy

end NearestWins.Shorthand
