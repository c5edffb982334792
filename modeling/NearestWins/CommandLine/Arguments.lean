import NearestWins.Event

/-!
# Command-line arguments

The command line is read at two levels: the options that hold for every command, then the name of a
command, then the options and the file of that command, among which the general options may stand
too. At each level an option may be given once. A wish for help ends the reading at once, an error
before it excepted.
-/

namespace NearestWins

/-- How a forest is printed. -/
inductive OutputFormat
  /-- As a drawn tree. -/
  | text
  /-- As JSON. -/
  | json
deriving DecidableEq

/-- What the program is to do. -/
inductive Command
  /-- Print the tree of a file after management. -/
  | tree (file : String) (preset : Option Preset) (traversal : Traversal) (format : OutputFormat)
  /-- Verify the local files of the system-scoped dependencies of a tree. -/
  | check (file : String) (preset : Option Preset)
deriving DecidableEq

/-- What is logged. -/
inductive LogLevel
  /-- Warnings and worse. -/
  | warnings
  /-- Everything but details. -/
  | progress
  /-- Nothing. -/
  | silent
deriving DecidableEq

/-- A command with the options that hold for every command. -/
structure Invocation where
  /-- What to do. -/
  command : Command
  /-- What is logged. -/
  logLevel : LogLevel
  /-- The configuration file, named by an option or by the environment. -/
  configPath : Option String
deriving DecidableEq

namespace CommandLine

/-- Why the program ends without a command. -/
inductive Stop
  /-- The arguments do not say what to do. -/
  | usage
  /-- Help or the version was wanted. -/
  | help
deriving DecidableEq

/-- The options read at one level. -/
structure Given where
  /-- Whether debug output is wanted. -/
  verbose : Bool := false
  /-- Whether no output but the result is wanted. -/
  quiet : Bool := false
  /-- The configuration file. -/
  config : Option String := none
  /-- The preset. -/
  preset : Option Preset := none
  /-- The order of expansion. -/
  traversal : Option Traversal := none
  /-- The form of the output. -/
  format : Option OutputFormat := none
  /-- The file to work on. -/
  file : Option String := none

/-- Where an argument stands. -/
inductive Level
  /-- Before the name of a command. -/
  | program
  /-- Behind the name of the command that prints a tree. -/
  | tree
  /-- Behind the name of the command that verifies files. -/
  | check
deriving DecidableEq

/-- The traversal of a name. -/
def traversalOfName : String → Option Traversal
  | "dfs" => some .depthFirst
  | "bfs" => some .breadthFirst
  | "parallel" => some .parallel
  | _ => none

/-- The output format of a name. -/
def formatOfName : String → Option OutputFormat
  | "text" => some .text
  | "json" => some .json
  | _ => none

/-- A path, which is never empty. -/
def pathOfText (text : String) : Option String :=
  if text.isEmpty then none else some text

/-- Fills a place that must still be free with a value that must be there. -/
def fill {α : Type} (place value : Option α) : Except Stop (Option α) :=
  match place, value with
  | none, some value => .ok (some value)
  | _, _ => .error .usage

/-- Takes an option without value. -/
def takeFlag (level : Level) (g : Given) : String → Except Stop Given
  | "verbose" => if g.verbose then .error .usage else .ok { g with verbose := true }
  | "quiet" => if g.quiet then .error .usage else .ok { g with quiet := true }
  | "help" => .error .help
  | "version" => .error (if level = .program then .help else .usage)
  | _ => .error .usage

/-- Whether an option takes a value at a level. -/
def takesValue (level : Level) : String → Bool
  | "config" => true
  | "preset" => level ≠ .program
  | "traversal" | "format" => level = .tree
  | _ => false

/-- Takes an option with its value. -/
def takeValue (g : Given) (name value : String) : Except Stop Given := do
  match name with
  | "config" => return { g with config := ← fill g.config (pathOfText value) }
  | "preset" => return { g with preset := ← fill g.preset (Preset.parse value).toOption }
  | "traversal" => return { g with traversal := ← fill g.traversal (traversalOfName value) }
  | "format" => return { g with format := ← fill g.format (formatOfName value) }
  | _ => .error .usage

/-- The long name of an option that is written as a single letter. -/
def longName : Char → String
  | 'v' => "verbose"
  | 'q' => "quiet"
  | 'h' => "help"
  | 'V' => "version"
  | _ => ""

/-- Takes the file of a command. -/
def takeFile (g : Given) (text : String) : Except Stop Given := do
  return { g with file := ← fill g.file (pathOfText text) }

/-- What an argument is, by its first characters. -/
inductive Shape
  /-- The mark behind which every argument is a file. -/
  | endOfOptions
  /-- A long option, with a value if there is an equals sign. -/
  | long (name : String) (value : Option String)
  /-- Options of one letter each. -/
  | short (letters : List Char)
  /-- Anything else. -/
  | plain

/-- What an argument is. -/
def shape (arg : String) : Shape :=
  match arg.toList with
  | ['-', '-'] => .endOfOptions
  | '-' :: '-' :: rest =>
    let value := rest.dropWhile (· ≠ '=')
    .long (String.ofList (rest.takeWhile (· ≠ '=')))
      (if value.isEmpty then none else some (String.ofList (value.drop 1)))
  | '-' :: c :: letters => .short (c :: letters)
  | _ => .plain

/-- Reads the arguments of one level. At the level of the program the first plain argument ends it;
the result holds that argument and what follows. -/
def scan (level : Level) (g : Given) : List String → Except Stop (Given × List String)
  | [] => .ok (g, [])
  | arg :: rest =>
    match shape arg with
    | .endOfOptions =>
      if level = .program then .error .usage
      else do
        let g ← rest.foldlM takeFile g
        .ok (g, [])
    | .long name (some value) =>
      if takesValue level name then do scan level (← takeValue g name value) rest
      else .error .usage
    | .long name none =>
      if takesValue level name then
        match rest with
        | value :: rest =>
          match shape value with
          | .plain => do scan level (← takeValue g name value) rest
          | _ => .error .usage
        | [] => .error .usage
      else do scan level (← takeFlag level g name) rest
    | .short letters => do
      scan level (← letters.foldlM (fun g c => takeFlag level g (longName c)) g) rest
    | .plain =>
      if level = .program then .ok (g, arg :: rest)
      else do scan level (← takeFile g arg) rest

/-- Completes the options of a level: the environment may name the configuration file where no
option does, and it must not be asked for both more and less output. -/
def complete (environment : Option String) (g : Given) : Except Stop Given :=
  if g.verbose && g.quiet then .error .usage
  else if g.config.isNone && environment = some "" then .error .usage
  else .ok g

/-- The commands for which help can be wanted. -/
def commandNames : List String := ["tree", "check", "help"]

/-- What a wish for help on a command comes to. -/
def helpOn : List String → Stop
  | [] => .help
  | [name] => if commandNames.contains name then .help else .usage
  | _ => .usage

/-- Reads the arguments of a command behind its name. -/
def readCommand (level : Level) (environment : Option String) (args : List String) :
    Except Stop (Given × Command) := do
  let (g, _) ← scan level {} args
  let some file := g.file | .error .usage
  let g ← complete environment g
  if level = .tree then
    return (g, .tree file g.preset (g.traversal.getD .depthFirst) (g.format.getD .text))
  return (g, .check file g.preset)

/-- The level of a command's arguments. -/
def levelOfName : String → Option Level
  | "tree" => some .tree
  | "check" => some .check
  | _ => none

/-- Reads the arguments of the program; `environment` is the configuration file that the environment
names. Options behind the command count before those in front of it. -/
def read (environment : Option String) (args : List String) : Except Stop Invocation := do
  let (outer, rest) ← scan .program {} args
  match rest with
  | [] => .error .usage
  | "help" :: rest => .error (helpOn rest)
  | name :: rest =>
    let some level := levelOfName name | .error .usage
    let (inner, command) ← readCommand level environment rest
    let outer ← complete environment outer
    return {
      command := command
      logLevel :=
        if outer.verbose || inner.verbose then .progress
        else if outer.quiet || inner.quiet then .silent
        else .warnings
      configPath := inner.config.or (outer.config.or environment) }

end CommandLine

end NearestWins
