import NearestWins.Management.Key
import NearestWins.ScopePolicy

/-!
# Override tables

What management has gathered on the way down a tree: for each key a version, a scope, an optionality
and a local path, of which the first declaration wins, and a set of exclusions, which grows with
every declaration. `declare` takes one declaration in and says whether it changed anything.
-/

namespace NearestWins

/-- The overrides gathered so far, by key. -/
structure OverrideTable where
  /-- Managed versions. -/
  versions : Std.ExtTreeMap Key String := ∅
  /-- Managed scopes. -/
  scopes : Std.ExtTreeMap Key String := ∅
  /-- Managed optionality. -/
  optionals : Std.ExtTreeMap Key Bool := ∅
  /-- Local paths of system-scoped declarations. -/
  localPaths : Std.ExtTreeMap Key String := ∅
  /-- Managed exclusions. -/
  exclusions : Std.ExtTreeMap Key ExclusionSet := ∅
deriving DecidableEq

/-- Records a value under a key that holds none yet, and says whether it did. -/
def recordFirst {α : Type} (map : Std.ExtTreeMap Key α) (key : Key) :
    Option α → Std.ExtTreeMap Key α × Bool
  | none => (map, false)
  | some value => if map.contains key then (map, false) else (map.insert key value, true)

/-- Adds exclusions to those of a key, and says whether there are more of them now. -/
def recordExclusions (map : Std.ExtTreeMap Key ExclusionSet) (key : Key)
    (exclusions : ExclusionSet) : Std.ExtTreeMap Key ExclusionSet × Bool :=
  let existing := map.getD key ∅
  let merged := existing ∪ exclusions
  if merged.size = existing.size then (map, false) else (map.insert key merged, true)

namespace OverrideTable

/-- Whether no override is recorded. -/
def isEmpty (t : OverrideTable) : Bool :=
  t.versions.isEmpty && t.scopes.isEmpty && t.optionals.isEmpty && t.localPaths.isEmpty &&
    t.exclusions.isEmpty

/-- A text, unless it is empty. -/
def declaredText (text : String) : Option String :=
  if text.isEmpty then none else some text

/-- The local path that a declaration sets: one of its own, in system scope. -/
def declaredPath (policy : ScopeHandler) (d : Dependency) : Option String :=
  if policy.isSystem d.scope then policy.localPath d.artifact else none

/-- Takes one declaration in under a key, and says whether anything changed. -/
def declare (policy : ScopeHandler) (key : Key) (d : Dependency) (t : OverrideTable) :
    OverrideTable × Bool :=
  let versions := recordFirst t.versions key (declaredText d.artifact.version)
  let scopes := recordFirst t.scopes key (declaredText d.scope)
  let optionals := recordFirst t.optionals key d.optional
  let localPaths := recordFirst t.localPaths key (declaredPath policy d)
  let exclusions := recordExclusions t.exclusions key d.exclusions
  (⟨versions.1, scopes.1, optionals.1, localPaths.1, exclusions.1⟩,
    versions.2 || scopes.2 || optionals.2 || localPaths.2 || exclusions.2)

/-- Takes declarations in, first one first, and counts those that changed anything. -/
def declareAll (policy : ScopeHandler) (scheme : KeyScheme) :
    List Dependency → OverrideTable → OverrideTable × Nat
  | [], t => (t, 0)
  | d :: rest, t =>
    let (t, changed) := t.declare policy (scheme.key d.artifact) d
    let (t, admitted) := declareAll policy scheme rest t
    (t, admitted + changed.toNat)

end OverrideTable

end NearestWins
