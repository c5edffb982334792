import NearestWins.Logged
import NearestWins.Management.Override
import NearestWins.Management.OverrideTable

/-!
# Snapshots

A snapshot is what management knows at one depth of a tree. The root snapshot is empty; the snapshot
for the children of a node is derived from the node's own by taking the node's declarations in. As a
declaration never replaces one that was taken in before, the one nearest to the root wins. `manage`
answers with the overrides for one dependency.
-/

namespace NearestWins

/-- Management at one depth. -/
structure Snapshot where
  /-- How many derivations lie between this snapshot and the root. -/
  depth : Nat
  /-- The thresholds of the run. -/
  thresholds : Thresholds
  /-- The key scheme of the run. -/
  scheme : KeyScheme
  /-- What was gathered so far. -/
  table : OverrideTable
  /-- What counts as system scope in the run. -/
  policy : ScopeHandler

namespace Snapshot

/-- The root snapshot with the thresholds of a preset and keys of the full scheme. -/
def root (preset : Preset) (policy : ScopeHandler) : Snapshot where
  depth := 0
  thresholds := preset.thresholds
  scheme := .full
  table := {}
  policy := policy

/-- The same snapshot with another key scheme. What was gathered under the former one stays, under
its keys, and is out of reach until that scheme is back. -/
def withScheme (s : Snapshot) (scheme : KeyScheme) : Snapshot :=
  { s with scheme := scheme }

/-- Whether declarations are still taken in. -/
def isDeriving (s : Snapshot) : Bool :=
  s.depth < s.thresholds.deriveUntil

/-- Whether overrides are applied. -/
def isApplying (s : Snapshot) : Bool :=
  s.thresholds.applyFrom ≤ s.depth

/-- Whether two snapshots are the same in all but their scope handlers. -/
def same (s t : Snapshot) : Bool :=
  s.depth = t.depth && s.thresholds = t.thresholds && s.scheme = t.scheme && s.table = t.table

/-- The snapshot for the children of a node with these declarations. -/
def derive (s : Snapshot) (managed : List Dependency) : Logged Snapshot :=
  let child := { s with depth := deeper s.depth }
  if s.isDeriving then
    let (table, admitted) := s.table.declareAll s.policy s.scheme managed
    { value := { child with table := table }
      log := if managed.isEmpty then []
        else [.derived s.depth child.depth admitted managed.length] }
  else
    { value := child
      log := if managed.isEmpty then []
        else [.ignored managed.length s.depth s.thresholds.deriveUntil] }

/-- The properties of an artifact without its local path, when it has one and is managed out of
system scope. -/
def strippedProperties (s : Snapshot) (scope : Option String) (a : Artifact) : Option Properties :=
  match scope with
  | some scope =>
    if !s.policy.isSystem scope && (s.policy.localPath a).isSome then
      some (s.policy.dropLocalPath a.properties)
    else none
  | none => none

/-- The properties that management gives a dependency: without the local path when it is managed out
of system scope, with the managed local path when its scope is a system scope after management. -/
def managedProperties (s : Snapshot) (key : Key) (scope : Option String) (d : Dependency) :
    Option Properties :=
  let stripped := s.strippedProperties scope d.artifact
  if s.policy.isSystem (scope.getD d.scope) then
    match s.table.localPaths[key]? with
    | some path => some (s.policy.setLocalPath path (stripped.getD d.artifact.properties))
    | none => stripped
  else stripped

/-- The overrides recorded for a dependency, whatever the depth. -/
def overrides (s : Snapshot) (d : Dependency) : Override :=
  let key := s.scheme.key d.artifact
  let scope := s.table.scopes[key]?
  { version := s.table.versions[key]?
    scope := scope
    optional := s.table.optionals[key]?
    properties := s.managedProperties key scope d
    exclusions := s.table.exclusions[key]? }

/-- The overrides to apply to a dependency, if there are any at this depth. -/
def manage (s : Snapshot) (d : Dependency) : Logged (Option Override) :=
  if s.isApplying && !(s.overrides d).isEmpty then
    { value := some (s.overrides d)
      log := [.managing (s.scheme.key d.artifact) s.depth (s.overrides d).fields.labels] }
  else pure none

end Snapshot

end NearestWins
