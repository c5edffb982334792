import NearestWins.Artifact.Coordinate
import NearestWins.Exclusion

/-!
# Dependencies and dependency trees

A dependency declares that an artifact is needed, in which scope, whether it is optional, and what
is to be left out below it. A `Node` of a dependency tree carries a dependency, the managed
declarations of its descriptor, which govern its descendants and never the node itself, and its
direct dependencies. The root carries no dependency.
-/

namespace NearestWins

/-- A declared dependency on an artifact. -/
structure Dependency where
  /-- The artifact depended upon. -/
  artifact : Artifact
  /-- Scope label, empty when undeclared. -/
  scope : String := ""
  /-- Optionality, `none` when undeclared. -/
  optional : Option Bool := none
  /-- What is left out below this dependency. -/
  exclusions : ExclusionSet := ∅
deriving DecidableEq

namespace Dependency

/-- Adds exclusions. -/
def withExclusions (d : Dependency) (exclusions : List Exclusion) : Dependency :=
  { d with exclusions := d.exclusions ∪ .ofList exclusions }

/-- Whether a dependency is optional; an undeclared one is required. -/
def isOptional (d : Dependency) : Bool :=
  d.optional.getD false

/-- The coordinate with scope and optionality behind it. -/
def describe (d : Dependency) : String :=
  let scope := if d.scope.isEmpty then "" else " (" ++ d.scope ++ ")"
  let optional := if d.isOptional then " [optional]" else ""
  d.artifact.coordinate ++ scope ++ optional

end Dependency

/-- A node of a dependency tree. -/
structure Node where
  /-- What the node stands for, `none` for the root. -/
  dependency : Option Dependency := none
  /-- Managed declarations for the descendants. -/
  managed : List Dependency := []
  /-- Direct dependencies. -/
  children : List Node := []
deriving Inhabited

mutual

/-- The number of nodes below a node. -/
def Node.descendants : Node → Nat
  | ⟨_, _, children⟩ => Node.total children

/-- The number of nodes of a list of trees. -/
def Node.total : List Node → Nat
  | [] => 0
  | node :: rest => 1 + node.descendants + Node.total rest

end

end NearestWins
