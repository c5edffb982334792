import NearestWins.Collect.Forest
import NearestWins.CommandLine.Arguments
import NearestWins.Config.Reader
import NearestWins.Data.Records
import NearestWins.Json.Writer
import NearestWins.LocalFiles
import NearestWins.Report
import NearestWins.TreeFile.Reader

/-!
# Running commands

A command loads the configuration and the tree, expands the tree, and prints it or verifies its
local files. A `Disk` stands for the files that a run may ask for, and TOML is read by a reader of
choice.
-/

namespace NearestWins

/-- The files that a run may ask for. -/
structure Disk where
  /-- The text of the file under a path. -/
  readText : String → Except ReadFailure String
  /-- Whether there is a regular file under a path. -/
  isFile : String → Bool

/-- A part of a run: it reports events and may fail. -/
abbrev Run := ExceptT Failure Logged

/-- Goes on with a result, or fails with its problem. -/
def Run.ofProblem {α : Type} (x : Logged (Except Problem α)) : Run α :=
  ExceptT.mk ((·.mapError Failure.ofProblem) <$> x)

/-- What a run works on: the root snapshot and the tree. -/
structure Session where
  /-- The root snapshot. -/
  root : Snapshot
  /-- The tree. -/
  tree : Node

namespace Command

/-- The file that a command works on. -/
def file : Command → String
  | .tree file .. => file
  | .check file _ => file

/-- The preset that a command asks for. -/
def preset : Command → Option Preset
  | .tree _ preset .. => preset
  | .check _ preset => preset

end Command

namespace Invocation

/-- Loads the configuration and the tree. A preset on the command line takes the place of the
configured one, thresholds included. -/
def openSession (reader : TomlReader) (i : Invocation) (disk : Disk) : Run Session := do
  let config ← ExceptT.mk (Config.load reader disk.readText i.configPath)
  let configured ← Run.ofProblem config.rootSnapshot
  let root := match i.command.preset with
    | some preset => (Snapshot.root preset configured.policy).withScheme config.scheme
    | none => configured
  let file := i.command.file
  let tree ← ExceptT.mk (Node.loadTree reader root.policy file (disk.readText file))
  return ⟨root, tree⟩

/-- The output of an invocation. -/
def output (reader : TomlReader) (i : Invocation) (disk : Disk) (coloured : Bool) :
    Run String := do
  let session ← i.openSession reader disk
  match i.command with
  | .tree _ _ traversal format =>
    let forest ← session.root.collect session.tree traversal
    match format with
    | .text => return ResolvedNode.renderForest coloured forest
    | .json => return Json.pretty "" (.array (ResolvedNode.toValues forest)) ++ "\n"
  | .check _ _ =>
    let forest ← session.root.collect session.tree .depthFirst
    let verified ← Run.ofProblem (verifyLocalFiles session.root.policy disk.isFile forest)
    let mark := Colour.green.paint coloured "✓"
    return s!"{mark} {verified} system-scoped dependencies verified\n"

/-- The paths at which an invocation looks for local files, given the texts it reads. -/
def localPaths (reader : TomlReader) (i : Invocation)
    (readText : String → Except ReadFailure String) : List String :=
  match (i.openSession reader ⟨readText, fun _ => false⟩).run.value with
  | .error _ => []
  | .ok session =>
    let forest := (session.root.collect session.tree .depthFirst).value
    (ResolvedNode.walkAll forest).filterMap fun node =>
      if node.system then session.root.policy.localPath node.dependency.artifact else none

end Invocation

end NearestWins
