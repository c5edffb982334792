import Std.Data.ExtTreeMap

/-!
# Artifacts

An artifact is one file of a repository: a coordinate of five texts and a free map of properties.
Artifacts are ordered by group, artifact, classifier, extension and version, then by their
properties; all texts compare by code point.
-/

namespace NearestWins

/-- The free-form properties of an artifact. -/
abbrev Properties := Std.ExtTreeMap String String

/-- The file extension of an artifact that declares none. -/
def defaultExtension : String := "jar"

/-- One file of a repository. -/
structure Artifact where
  /-- Group identifier. -/
  groupId : String
  /-- Artifact identifier within the group. -/
  artifactId : String
  /-- Classifier, empty for the main file. -/
  classifier : String := ""
  /-- File extension. -/
  extension : String := defaultExtension
  /-- Version, empty when it is left to management. -/
  version : String := ""
  /-- Free-form properties. -/
  properties : Properties := ∅
deriving DecidableEq

namespace Artifact

/-- The value of a property. -/
def property (a : Artifact) (key : String) : Option String :=
  a.properties[key]?

/-- Sets one property. -/
def withProperty (a : Artifact) (key value : String) : Artifact :=
  { a with properties := a.properties.insert key value }

/-- Group and artifact, the part of a coordinate that exclusions usually name. -/
def versionlessId (a : Artifact) : String :=
  a.groupId ++ ":" ++ a.artifactId

/-- The texts that order artifacts, the properties flattened behind the coordinate. -/
def orderKey (a : Artifact) : List String :=
  [a.groupId, a.artifactId, a.classifier, a.extension, a.version] ++
    a.properties.toList.flatMap fun (key, value) => [key, value]

instance : Ord Artifact := ⟨compareOn orderKey⟩

instance : Std.TransOrd Artifact := inferInstanceAs (Std.TransCmp (compareOn orderKey))

end Artifact

end NearestWins
