import NearestWins.Artifact
import NearestWins.Problem
import NearestWins.Text.Fields
import Std.Data.ExtTreeSet

/-!
# Exclusions

An exclusion removes matching artifacts from the subtree below a dependency. Each of its four fields
is a text to be met exactly or the wildcard `*`. It is written `group:artifact` when classifier and
extension are wildcards, and with all four fields otherwise.
-/

namespace NearestWins

/-- The field of an exclusion that every value meets. -/
def wildcard : String := "*"

/-- A pattern for artifacts, blind to their versions and properties. -/
structure Exclusion where
  /-- Group to be met. -/
  groupId : String
  /-- Artifact to be met. -/
  artifactId : String
  /-- Classifier to be met. -/
  classifier : String := wildcard
  /-- Extension to be met. -/
  extension : String := wildcard
deriving DecidableEq

namespace Exclusion

/-- Exclusions are ordered by group, artifact, classifier and extension. -/
def orderKey (e : Exclusion) : List String :=
  [e.groupId, e.artifactId, e.classifier, e.extension]

instance : Ord Exclusion := ⟨compareOn orderKey⟩

instance : Std.TransOrd Exclusion := inferInstanceAs (Std.TransCmp (compareOn orderKey))

theorem orderKey_injective {a b : Exclusion} (h : a.orderKey = b.orderKey) : a = b := by
  cases a
  cases b
  simp_all [orderKey]

instance : Std.LawfulEqOrd Exclusion where
  eq_of_compare {a b} h := by
    have keys : compare a.orderKey b.orderKey = .eq := h
    exact orderKey_injective (Std.LawfulEqOrd.eq_of_compare keys)

/-- Whether a value meets a field of an exclusion. -/
def fieldMatches (pattern value : String) : Bool :=
  pattern = wildcard || pattern = value

/-- Whether an artifact falls under an exclusion. -/
def excludes (e : Exclusion) (a : Artifact) : Bool :=
  fieldMatches e.groupId a.groupId && fieldMatches e.artifactId a.artifactId &&
    fieldMatches e.classifier a.classifier && fieldMatches e.extension a.extension

/-- The text of an exclusion. -/
def text (e : Exclusion) : String :=
  if e.classifier = wildcard ∧ e.extension = wildcard then
    e.groupId ++ ":" ++ e.artifactId
  else
    e.groupId ++ ":" ++ e.artifactId ++ ":" ++ e.classifier ++ ":" ++ e.extension

/-- The exclusion that two or four fields name. -/
def ofFields? : List String → Option Exclusion
  | [group, artifact] => some { groupId := group, artifactId := artifact }
  | [group, artifact, classifier, extension] =>
    some { groupId := group, artifactId := artifact, classifier := classifier,
           extension := extension }
  | _ => none

/-- Reads an exclusion: two or four fields, none of them empty. -/
def parse (text : String) : Except Problem Exclusion :=
  let fields := colonFields text
  if fields.any String.isEmpty then .error (.invalidExclusion text)
  else match ofFields? fields with
    | none => .error (.invalidExclusion text)
    | some e => .ok e

end Exclusion

/-- A set of exclusions, listed in their order. -/
abbrev ExclusionSet := Std.ExtTreeSet Exclusion

/-- The first exclusion of a set, in its order, that an artifact falls under. -/
def ExclusionSet.firstMatch (set : ExclusionSet) (a : Artifact) : Option Exclusion :=
  set.toList.find? (·.excludes a)

end NearestWins
