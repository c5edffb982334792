import NearestWins.Exclusion
import NearestWins.Management.Key
import NearestWins.Management.Preset
import NearestWins.Text.Quoted

/-!
# Events

What a run reports about itself. An event is a value; `Event.line` words it for a log. The functions
of the library that report something return a `Logged` value, which carries the events in the order
in which they happened.
-/

namespace NearestWins

/-- The order in which a tree is expanded. -/
inductive Traversal
  /-- One sibling after the other, each with all that is below it. -/
  | depthFirst
  /-- Level by level. -/
  | breadthFirst
  /-- All siblings at once. -/
  | parallel
deriving DecidableEq

/-- The name of a traversal in a log line. -/
def Traversal.logName : Traversal → String
  | .depthFirst => "DepthFirst"
  | .breadthFirst => "BreadthFirst"
  | .parallel => "Parallel"

/-- Something that a run reports. -/
inductive Event
  /-- A configuration file is about to be read. -/
  | loadingConfig (path : String)
  /-- The root snapshot is built from a configuration. -/
  | buildingRoot (preset : Preset) (scheme : KeyScheme)
  /-- A dependency tree was read. -/
  | loadedTree (count : Nat) (path : String)
  /-- A tree is about to be expanded. -/
  | collecting (count : Nat) (traversal : Traversal) (depth : Nat)
  /-- Declarations were taken in, some of them admitted. -/
  | derived (depth childDepth admitted declared : Nat)
  /-- Declarations were ignored because they are too deep. -/
  | ignored (declared depth deriveUntil : Nat)
  /-- A dependency gets overrides. -/
  | managing (key : Key) (depth : Nat) (labels : List String)
  /-- A dependency is left out. -/
  | excluding (artifact : Artifact) (exclusion : Exclusion)
  /-- The file of a system-scoped dependency is there. -/
  | verified (path : String) (artifact : Artifact)
deriving DecidableEq

namespace Event

/-- How much an event matters. -/
inductive Level
  /-- Progress of a run. -/
  | debug
  /-- Details of single decisions. -/
  | trace
deriving DecidableEq

/-- The level of an event. -/
def level : Event → Level
  | .ignored .. | .managing .. => .trace
  | _ => .debug

/-- The name of a level in a log line. -/
def Level.name : Level → String
  | .debug => "DEBUG"
  | .trace => "TRACE"

/-- The wording of an event. -/
def message : Event → String
  | .loadingConfig path => s!"Loading management config from {path}"
  | .buildingRoot preset scheme =>
    "Building management root with preset " ++ preset.describe ++ " and " ++ scheme.logName ++
      " keys"
  | .loadedTree count path => s!"Loaded {count} dependency node(s) from {path}"
  | .collecting count traversal depth =>
    s!"Collecting {count} node(s) " ++ traversal.logName ++ s!" from management depth {depth}"
  | .derived depth childDepth admitted declared =>
    s!"Derived management depth {depth} -> {childDepth}: " ++
      s!"{admitted} of {declared} declaration(s) admitted"
  | .ignored declared depth deriveUntil =>
    s!"Ignoring {declared} managed declaration(s) at depth {depth} (derive_until={deriveUntil})"
  | .managing key depth labels =>
    "Managing " ++ key.describe ++ s!" at depth {depth}: " ++
      "[" ++ ", ".intercalate (labels.map quoted) ++ "]"
  | .excluding artifact exclusion =>
    "Excluding " ++ artifact.coordinate ++ " (matched " ++ exclusion.text ++ ")"
  | .verified path artifact =>
    s!"Verified system path {path} for " ++ artifact.coordinate

/-- The log line of an event. -/
def line (e : Event) : String :=
  e.level.name ++ " " ++ e.message

end Event

end NearestWins
