import NearestWins.Artifact
import NearestWins.Problem
import NearestWins.Text.Fields

/-!
# Coordinates

The text form of an artifact: `group:artifact[:extension[:classifier]]:version`. Writing leaves an
empty classifier out and always writes extension and version; reading gives two to five fields their
meaning by how many there are. Properties have no place in a coordinate.
-/

namespace NearestWins.Artifact

/-- The coordinate of an artifact. -/
def coordinate (a : Artifact) : String :=
  let classifier := if a.classifier.isEmpty then "" else ":" ++ a.classifier
  a.groupId ++ ":" ++ a.artifactId ++ ":" ++ a.extension ++ classifier ++ ":" ++ a.version

/-- The artifact that the fields of a coordinate name, once their number is right. -/
def ofFields? : List String → Option Artifact
  | [group, artifact] => some { groupId := group, artifactId := artifact }
  | [group, artifact, version] =>
    some { groupId := group, artifactId := artifact, version := version }
  | [group, artifact, extension, version] =>
    some { groupId := group, artifactId := artifact, extension := extension, version := version }
  | [group, artifact, extension, classifier, version] =>
    some { groupId := group, artifactId := artifact, extension := extension,
           classifier := classifier, version := version }
  | _ => none

/-- Reads a coordinate: two to five fields, of which the first two are not empty. -/
def parse (text : String) : Except Problem Artifact :=
  match ofFields? (colonFields text) with
  | none => .error (.invalidCoordinate text "expected between 2 and 5 ':'-separated parts")
  | some a =>
    if a.groupId.isEmpty || a.artifactId.isEmpty then
      .error (.invalidCoordinate text "group and artifact must not be empty")
    else .ok a

end NearestWins.Artifact
