import NearestWins.Data.Reader
import NearestWins.Logged
import NearestWins.ScopePolicy

/-!
# Dependency tree files

A tree file lists the managed declarations and the children of its root. Every declaration and every
node is an entry with the fields of a coordinate; a node may have managed declarations and children
of its own. Reading goes in two stages. First the document is fitted to `TreeFile`, which keeps
every entry as it was written, names without meaning included. Then `TreeFile.toTree` refuses such
names, reads the exclusions and puts local paths where the scope handler wants them.
-/

namespace NearestWins

/-- An entry of a tree file as it was written. -/
structure Entry where
  /-- Group identifier. -/
  group : String
  /-- Artifact identifier. -/
  artifact : String
  /-- Version, empty when undeclared. -/
  version : String := ""
  /-- Classifier, empty when undeclared. -/
  classifier : String := ""
  /-- File extension. -/
  extension : Option String := none
  /-- Scope, empty when undeclared. -/
  scope : String := ""
  /-- Optionality. -/
  optional : Option Bool := none
  /-- Exclusions in their text form. -/
  exclusions : List String := []
  /-- The local file of a system-scoped dependency. -/
  systemPath : Option String := none
  /-- Artifact properties. -/
  properties : Properties := ∅
  /-- The names of further fields, in their order. -/
  unknown : List String := []

/-- The entry of a node as it was written. -/
structure NodeEntry where
  /-- The entry of its dependency. -/
  coordinate : Entry
  /-- The entries of its managed declarations. -/
  managed : List Entry := []
  /-- The entries of its children. -/
  children : List NodeEntry := []

/-- A tree file as it was written. -/
structure TreeFile where
  /-- The managed declarations of the root. -/
  managed : List Entry := []
  /-- The children of the root. -/
  children : List NodeEntry := []

/-- The name under which problems of an unnamed text are reported. -/
def inlineSource : String := "<input>"

namespace Entry

/-- Reads exclusions in order, up to the first that is none. -/
def parseExclusions : List String → Except Problem (List Exclusion)
  | [] => .ok []
  | text :: rest => do
    let first ← Exclusion.parse text
    let others ← parseExclusions rest
    pure (first :: others)

/-- The properties of the dependency that an entry declares. -/
def effectiveProperties (policy : ScopeHandler) (e : Entry) : Properties :=
  match e.systemPath with
  | some path => policy.setLocalPath path e.properties
  | none => e.properties

/-- The dependency that an entry declares. Names without meaning are a problem, and come before
exclusions that do not read. -/
def toDependency (policy : ScopeHandler) (e : Entry) : Except Problem Dependency :=
  if e.unknown.isEmpty then do
    let exclusions ← parseExclusions e.exclusions
    pure
      { artifact :=
          { groupId := e.group
            artifactId := e.artifact
            classifier := e.classifier
            extension := e.extension.getD defaultExtension
            version := e.version
            properties := e.effectiveProperties policy }
        scope := e.scope
        optional := e.optional
        exclusions := .ofList exclusions }
  else
    let names := ", ".intercalate e.unknown
    .error (.invalidTree inlineSource s!"unknown key(s) {names} in entry {e.group}:{e.artifact}")

/-- The dependencies that entries declare, up to the first problem. -/
def toDependencies (policy : ScopeHandler) : List Entry → Except Problem (List Dependency)
  | [] => .ok []
  | entry :: rest => do
    let first ← entry.toDependency policy
    let others ← toDependencies policy rest
    pure (first :: others)

end Entry

namespace NodeEntry

mutual

/-- The node that an entry describes: the entry itself, its managed declarations and its children
are looked at in this order. -/
def toNode (policy : ScopeHandler) : NodeEntry → Except Problem Node
  | ⟨coordinate, managed, children⟩ => do
    let dependency ← coordinate.toDependency policy
    let managed ← Entry.toDependencies policy managed
    let children ← toNodes policy children
    pure ⟨some dependency, managed, children⟩

/-- The nodes that entries describe, up to the first problem. -/
def toNodes (policy : ScopeHandler) : List NodeEntry → Except Problem (List Node)
  | [] => .ok []
  | entry :: rest => do
    let first ← entry.toNode policy
    let others ← toNodes policy rest
    pure (first :: others)

end

end NodeEntry

/-- The tree that a file describes. -/
def TreeFile.toTree (policy : ScopeHandler) (file : TreeFile) : Except Problem Node := do
  let managed ← Entry.toDependencies policy file.managed
  let children ← NodeEntry.toNodes policy file.children
  pure ⟨none, managed, children⟩

end NearestWins
