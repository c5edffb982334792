import NearestWins.Data.Reader
import NearestWins.Logged
import NearestWins.Management.Snapshot

/-!
# Configuration

A configuration picks a preset and may override its thresholds, picks the key scheme, and says what
counts as system scope. Everything in it is optional.
-/

namespace NearestWins

/-- What counts as system scope. -/
structure ScopeConfig where
  /-- The labels of system scopes. -/
  labels : List String := [systemScope]
  /-- The property that holds local paths. -/
  pathProperty : String := localPathProperty
deriving DecidableEq

/-- The settings of a run. -/
structure Config where
  /-- The name of the preset. -/
  preset : Option String := none
  /-- In place of the preset's own threshold. -/
  deriveUntil : Option Nat := none
  /-- In place of the preset's own threshold. -/
  applyFrom : Option Nat := none
  /-- The key scheme. -/
  scheme : KeyScheme := .full
  /-- What counts as system scope. -/
  systemScope : ScopeConfig := {}
deriving DecidableEq

namespace ScopeConfig

/-- Whether these are the labels and the property of the legacy policy. -/
def isLegacy (c : ScopeConfig) : Bool :=
  c.labels = [NearestWins.systemScope] && c.pathProperty = localPathProperty

/-- The scope policy, unless a label or the property is empty or there is no label. -/
def policy (c : ScopeConfig) : Except Problem ScopePolicy :=
  if c.labels.isEmpty || c.labels.any String.isEmpty then
    .error (.inconsistentConfig "system_scope.labels must contain at least one non-empty label")
  else if c.pathProperty.isEmpty then
    .error (.inconsistentConfig "system_scope.path_property must not be empty")
  else if c.isLegacy then .ok .legacy
  else .ok (.labelSet (.ofList c.labels) c.pathProperty)

/-- The record of what counts as system scope. -/
def schema : Schema ScopeConfig where
  name := "SystemScopeConfig"
  closed := true
  fields :=
    [{ name := "labels",
       read := fun f v c => do pure { c with labels := ← v.fitList f (·.fitString f) } },
     { name := "path_property",
       read := fun f v c => do pure { c with pathProperty := ← v.fitString f } }]

end ScopeConfig

namespace KeyScheme

/-- The key scheme of a name. -/
def ofName (name : String) : Fit KeyScheme :=
  if name = full.name then .ok full
  else if name = groupArtifact.name then .ok groupArtifact
  else .error (.unknownVariant name [full.name, groupArtifact.name])

/-- Checks the value that stands behind the name of a key scheme in a table: it must be empty. -/
def checkPayload : DataFormat → Value → Fit Unit
  | .json, .null => .ok ()
  | .json, v => .error (v.mismatch .json "unit")
  | .toml, .table [] => .ok ()
  | .toml, .array [] => .ok ()
  | .toml, _ => .error .unrepresentable

/-- Reads a key scheme: its name, or a table with its name as the only entry. -/
def fit (format : DataFormat) : Value → Fit KeyScheme
  | .string name => ofName name
  | .table [(name, payload)] => do
    let scheme ← ofName name
    checkPayload format payload
    pure scheme
  | v =>
    match format, v with
    | .json, .table _ => .error (.wrongValue .map "map with a single key")
    | .json, _ => .error (v.mismatch .json "string or map")
    | .toml, .table [] => .error (.wantedShape "exactly 1 element, found 0 elements")
    | .toml, .table _ => .error (.wantedShape "exactly 1 element, more than 1 element")
    | .toml, _ => .error (.wantedShape "string or table")

end KeyScheme

namespace Config

/-- The record of a configuration. -/
def schema : Schema Config where
  name := "ManagementConfig"
  closed := true
  fields :=
    [{ name := "preset",
       read := fun f v c => do pure { c with preset := ← v.fitOption (·.fitString f) } },
     { name := "derive_until",
       read := fun f v c => do pure { c with deriveUntil := ← v.fitOption (·.fitDepth f) } },
     { name := "apply_from",
       read := fun f v c => do pure { c with applyFrom := ← v.fitOption (·.fitDepth f) } },
     { name := "key", read := fun f v c => do pure { c with scheme := ← KeyScheme.fit f v } },
     { name := "system_scope",
       read := fun f v c => do pure { c with systemScope := ← ScopeConfig.schema.fit f {} v } }]

/-- Reads a configuration. -/
def fit (format : DataFormat) : Value → Fit Config := schema.fit format {}

/-- The preset with its overrides. -/
def effectivePreset (c : Config) : Except Problem Preset := do
  let base ← c.preset.elim (.ok .standard) Preset.parse
  pure (base.withOverrides c.deriveUntil c.applyFrom)

/-- The root snapshot of a run. -/
def rootSnapshot (c : Config) : Logged (Except Problem Snapshot) :=
  match c.effectivePreset, c.systemScope.policy with
  | .error problem, _ => pure (.error problem)
  | _, .error problem => pure (.error problem)
  | .ok preset, .ok policy => do
    Logged.report (.buildingRoot preset c.scheme)
    pure (.ok ((Snapshot.root preset policy).withScheme c.scheme))

end Config

end NearestWins
