import NearestWins.Collect.ResolvedNode
import NearestWins.Failure
import NearestWins.Style

/-!
# Reports on the terminal

How results are shown: a failure as up to three labelled lines, a resolved forest as a drawn tree
with one line for each node and a summary at its end.
-/

namespace NearestWins

/-- A report as it is printed. -/
def Report.render (r : Report) (coloured : Bool) : String :=
  let line (colour : Colour) (label text : String) :=
    colour.paint coloured label ++ ": " ++ text ++ "\n"
  line .boldRed "error" r.problem.message ++ r.details.elim "" (line .yellow "details") ++
    r.suggestion.elim "" (line .green "suggestion")

namespace ResolvedNode

/-- A declared value as an annotation names it. -/
def declaredOrUnset (value : String) : String :=
  if value.isEmpty then "unset" else value

/-- The notes of a managed node: what version and scope were before, then the names of the other
overridden fields. -/
def notes (node : ResolvedNode) : List String :=
  let version := node.premanagedVersion.map ("version from " ++ declaredOrUnset ·)
  let scope := node.premanagedScope.map ("scope from " ++ declaredOrUnset ·)
  let noted (label : String) : Bool :=
    (label = "version" && version.isSome) || (label = "scope" && scope.isSome)
  version.toList ++ scope.toList ++ node.managed.labels.filter (!noted ·)

/-- The line of a node: its dependency, whether it is in system scope, and how it is managed. -/
def describe (coloured : Bool) (node : ResolvedNode) : String :=
  let marker := if node.system then " " ++ Colour.cyan.paint coloured "[system]" else ""
  let annotation :=
    if node.managed.any then
      " " ++ Colour.yellow.paint coloured ("(managed: " ++ ", ".intercalate node.notes ++ ")")
    else ""
  node.dependency.describe ++ marker ++ annotation

mutual

/-- The lines below a node, behind the lines drawn by its ancestors. -/
def renderBelow (coloured : Bool) (indent : String) : ResolvedNode → String
  | ⟨_, _, _, _, _, _, children⟩ => renderSiblings coloured indent children

/-- The lines of siblings; the last of them gets a corner. -/
def renderSiblings (coloured : Bool) (indent : String) : List ResolvedNode → String
  | [] => ""
  | node :: rest =>
    let (connector, extension) :=
      if rest.isEmpty then ("└── ", "    ") else ("├── ", "│   ")
    indent ++ connector ++ node.describe coloured ++ "\n" ++
      renderBelow coloured (indent ++ extension) node ++ renderSiblings coloured indent rest

end

/-- A resolved forest as a drawn tree with a summary. -/
def renderForest (coloured : Bool) (forest : List ResolvedNode) : String :=
  let trees := forest.map fun node => node.describe coloured ++ "\n" ++ renderBelow coloured "" node
  let nodes := walkAll forest
  let total := nodes.length
  let managed := (nodes.filter (·.managed.any)).length
  String.join trees ++ s!"\n{total} dependencies, {managed} managed\n"

end ResolvedNode

end NearestWins
