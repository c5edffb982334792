import NearestWins.Dependency

/-!
# Overrides

An `Override` is what management changes about one dependency. Its parts are independent of each
other. Applying it replaces version, scope, optionality and properties and adds exclusions to those
that the dependency already has.
-/

namespace NearestWins

/-- The changes to one dependency. -/
structure Override where
  /-- Managed version. -/
  version : Option String := none
  /-- Managed scope. -/
  scope : Option String := none
  /-- Managed optionality. -/
  optional : Option Bool := none
  /-- Properties with the local path set or removed. -/
  properties : Option Properties := none
  /-- Exclusions to be added. -/
  exclusions : Option ExclusionSet := none
deriving DecidableEq

/-- Which fields of a dependency are overridden. -/
structure ManagedFields where
  /-- The version is. -/
  version : Bool := false
  /-- The scope is. -/
  scope : Bool := false
  /-- The optionality is. -/
  optional : Bool := false
  /-- The properties are. -/
  properties : Bool := false
  /-- The exclusions are. -/
  exclusions : Bool := false
deriving DecidableEq

namespace ManagedFields

/-- Whether any field is overridden. -/
def any (f : ManagedFields) : Bool :=
  f.version || f.scope || f.optional || f.properties || f.exclusions

/-- The names of the overridden fields. -/
def labels (f : ManagedFields) : List String :=
  (if f.version then ["version"] else []) ++
    (if f.scope then ["scope"] else []) ++
    (if f.optional then ["optional"] else []) ++
    (if f.properties then ["properties"] else []) ++
    (if f.exclusions then ["exclusions"] else [])

end ManagedFields

namespace Override

/-- Which fields an override changes. -/
def fields (o : Override) : ManagedFields where
  version := o.version.isSome
  scope := o.scope.isSome
  optional := o.optional.isSome
  properties := o.properties.isSome
  exclusions := o.exclusions.isSome

/-- Whether an override changes nothing. -/
def isEmpty (o : Override) : Bool :=
  o.version.isNone && o.scope.isNone && o.optional.isNone && o.properties.isNone &&
    o.exclusions.isNone

/-- The dependency after the changes. -/
def applyTo (o : Override) (d : Dependency) : Dependency where
  artifact :=
    { d.artifact with
      version := o.version.getD d.artifact.version
      properties := o.properties.getD d.artifact.properties }
  scope := o.scope.getD d.scope
  optional := o.optional.or d.optional
  exclusions := d.exclusions ∪ o.exclusions.getD ∅

end Override

end NearestWins
