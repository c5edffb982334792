import NearestWins.Artifact.Coordinate

/-!
# Management keys

A declaration governs the dependencies that have its key. The key scheme says which fields of the
coordinate take part; the version never does.
-/

namespace NearestWins

/-- Which fields of a coordinate take part in keys. -/
inductive KeyScheme
  /-- Group, artifact, classifier and extension. -/
  | full
  /-- Group and artifact alone. -/
  | groupArtifact
deriving DecidableEq

/-- The name of a key scheme in a configuration. -/
def KeyScheme.name : KeyScheme → String
  | .full => "full"
  | .groupArtifact => "group-artifact"

/-- The name of a key scheme in a log line. -/
def KeyScheme.logName : KeyScheme → String
  | .full => "Full"
  | .groupArtifact => "GroupArtifact"

/-- What declarations and dependencies are matched by. -/
inductive Key
  /-- A key of the full scheme. -/
  | full (groupId artifactId classifier extension : String)
  /-- A key of group and artifact. -/
  | groupArtifact (groupId artifactId : String)
deriving DecidableEq

/-- The key of an artifact. -/
def KeyScheme.key : KeyScheme → Artifact → Key
  | .full, a => .full a.groupId a.artifactId a.classifier a.extension
  | .groupArtifact, a => .groupArtifact a.groupId a.artifactId

namespace Key

/-- Keys are ordered by group, artifact, classifier and extension; absent fields come first. -/
def orderKey : Key → List String
  | .full group artifact classifier extension => [group, artifact, classifier, extension]
  | .groupArtifact group artifact => [group, artifact]

instance : Ord Key := ⟨compareOn orderKey⟩

instance : Std.TransOrd Key := inferInstanceAs (Std.TransCmp (compareOn orderKey))

theorem orderKey_injective {a b : Key} (h : a.orderKey = b.orderKey) : a = b := by
  cases a <;> cases b <;> simp_all [orderKey]

instance : Std.LawfulEqOrd Key where
  eq_of_compare {a b} h := by
    have keys : compare a.orderKey b.orderKey = .eq := h
    exact orderKey_injective (Std.LawfulEqOrd.eq_of_compare keys)

/-- The text of a key: the extension before a classifier that is not empty. -/
def describe : Key → String
  | .full group artifact classifier extension =>
    let classifier := if classifier.isEmpty then "" else ":" ++ classifier
    group ++ ":" ++ artifact ++ ":" ++ extension ++ classifier
  | .groupArtifact group artifact => group ++ ":" ++ artifact

end Key

end NearestWins
