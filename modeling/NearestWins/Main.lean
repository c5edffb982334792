import NearestWins.CommandLine.Run
import NearestWins.FileTree
import NearestWins.Toml.Document

/-!
# The program

Reads the arguments and the files they name, runs the command on them, and prints what comes of it.
-/

namespace NearestWins

/-- The reason for which the operating system refused to read. -/
def readFailureOf : IO.Error → ReadFailure
  | .noFileOrDirectory .. => .noSuchFile
  | .inappropriateType _ code details => ⟨.other, s!"{details} (os error {code})"⟩
  | .permissionDenied _ code details => ⟨.other, s!"{details} (os error {code})"⟩
  | .invalidArgument _ code details => ⟨.other, s!"{details} (os error {code})"⟩
  | other => ⟨.other, toString other⟩

/-- Reads the text of a file. -/
def readTextFile (path : String) : IO (Except ReadFailure String) := do
  try
    let bytes ← IO.FS.readBinFile path
    match String.fromUTF8? bytes with
    | some text => return .ok text
    | none => return .error .notText
  catch failure => return .error (readFailureOf failure)

/-- Whether there is a file under a path that can be read from. -/
def isReadableFile (path : String) : IO Bool := do
  try
    let handle ← IO.FS.Handle.mk path .read
    let _ ← handle.read 1
    return true
  catch _ => return false

/-- Asks for all that a run will ask for, and answers from memory afterwards. -/
def inspectDisk (i : Invocation) : IO Disk := do
  let named := i.command.file :: i.configPath.toList
  let texts ← named.mapM fun path => return (path, ← readTextFile path)
  let readText (path : String) : Except ReadFailure String :=
    (texts.lookup path).getD (.error .noSuchFile)
  let present ← (i.localPaths Toml.reader readText).filterM isReadableFile
  return ⟨readText, (present.contains ·)⟩

/-- What is shown when the arguments do not say what to do. -/
def usageText : String :=
  "Usage: nearest-wins [OPTIONS] <COMMAND>\n\n" ++
  "Commands:\n" ++
  "  tree   Print a dependency tree after management\n" ++
  "  check  Verify the local files of system-scoped dependencies\n" ++
  "  help   Print this message or the help of the given subcommand(s)\n\n" ++
  "Options:\n" ++
  "  -v, --verbose          Enable debug logging\n" ++
  "  -q, --quiet            Disable all logging\n" ++
  "      --config <CONFIG>  Management configuration file\n" ++
  "  -h, --help             Print help\n"

/-- Runs an invocation and prints what comes of it; the result is the exit code. -/
def Invocation.perform (i : Invocation) : IO UInt32 := do
  let disk ← inspectDisk i
  let coloured ← (← IO.getStdout).isTty
  let outcome := (i.output Toml.reader disk coloured).run
  if i.logLevel = .progress then
    for event in outcome.log do
      if event.level = .debug then IO.eprintln event.line
  match outcome.value with
  | .ok output =>
    IO.print output
    return 0
  | .error failure =>
    IO.eprint (failure.report.render coloured)
    return 1

end NearestWins

open NearestWins in
/-- Runs the program. -/
def main (args : List String) : IO UInt32 := do
  let environment ← IO.getEnv Config.environmentVariable
  match CommandLine.read environment args with
  | .error .usage =>
    IO.eprint usageText
    return 2
  | .error .help =>
    IO.print usageText
    return 0
  | .ok invocation => invocation.perform
