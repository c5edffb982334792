import NearestWins.Proofs.Application

/-!
# What application rewrites

Applying what a snapshot records rewrites the version, the scope and the optionality of a dependency, adds
exclusions, and sets or removes one property: the local path. Scope and local path are recorded separately
and may come from different levels, so a path is set whenever the dependency ends up in system scope, and
removed only where it is managed out of it. Main statement: these are all the changes, each of them is
announced by its flag, and the two changes to the local path exclude each other.
-/

namespace NearestWins

/-! ## Flags -/

/-- Whatever differs between two dependencies is flagged. -/
structure ManagedFields.Cover (flags : ManagedFields) (d e : Dependency) : Prop where
  version : e.artifact.version ≠ d.artifact.version → flags.version
  scope : e.scope ≠ d.scope → flags.scope
  optional : e.optional ≠ d.optional → flags.optional
  properties : e.artifact.properties ≠ d.artifact.properties → flags.properties
  exclusions : e.exclusions ≠ d.exclusions → flags.exclusions

/-- At least one of the five fields is flagged. -/
def ManagedFields.Flagged (flags : ManagedFields) : Prop :=
  flags.version ∨ flags.scope ∨ flags.optional ∨ flags.properties ∨ flags.exclusions

instance (flags : ManagedFields) : Decidable flags.Flagged :=
  inferInstanceAs (Decidable (_ ∨ _))

theorem ManagedFields.any_iff {flags : ManagedFields} : flags.any ↔ flags.Flagged := by
  simp only [any, Flagged, Bool.or_eq_true, or_assoc]

namespace Override

theorem isEmpty_eq_not_any (o : Override) : o.isEmpty = !o.fields.any := by
  simp only [isEmpty, fields, ManagedFields.any, Bool.not_or, Option.not_isSome]

theorem fields_cover (o : Override) (d : Dependency) : o.fields.Cover d (o.applyTo d) := by
  have hsome : ∀ {α β : Type} {change : Option α} (result : Option α → β) {declared : β},
      result none = declared → result change ≠ declared → change.isSome := by
    intro α β change result declared hnone hne
    cases change with
    | none => exact absurd hnone hne
    | some value => rfl
  have hexclusions : d.exclusions ∪ ∅ = d.exclusions := by
    ext x
    simp
  constructor
  · exact hsome (fun change => change.getD d.artifact.version) rfl
  · exact hsome (fun change => change.getD d.scope) rfl
  · exact hsome (fun change => change.or d.optional) rfl
  · exact hsome (fun change => change.getD d.artifact.properties) rfl
  · exact hsome (fun change => d.exclusions ∪ change.getD ∅) hexclusions

end Override

namespace Snapshot

variable (s : Snapshot) (d : Dependency)

/-- What is recorded for a dependency. -/
def recorded : TableEntry :=
  s.table.entry (s.scheme.key d.artifact)

/-- The local path that is set for a dependency: one is recorded, and the dependency is in system scope
after management. -/
def pathToSet : Option String :=
  if s.policy.isSystem ((s.recorded d).scope.getD d.scope) then (s.recorded d).localPath else none

/-- Whether a scope is recorded for a dependency that is none of the system scopes. -/
def managedOutOfSystem : Bool :=
  (s.recorded d).scope.any (!s.policy.isSystem ·)

/-- Whether a dependency loses its local path. -/
def dropsPath : Bool :=
  s.managedOutOfSystem d && (s.policy.localPath d.artifact).isSome

/-- The flags of the changes to a dependency. -/
def flags : ManagedFields :=
  if s.isApplying then
    { version := (s.recorded d).version.isSome
      scope := (s.recorded d).scope.isSome
      optional := (s.recorded d).optional.isSome
      properties := (s.pathToSet d).isSome || s.dropsPath d
      exclusions := (s.recorded d).exclusions.isSome }
  else {}

variable {s d}

/-! ## Changes to the local path -/

theorem not_isSystem_of_managedOutOfSystem (h : s.managedOutOfSystem d) :
    ¬ s.policy.isSystem ((s.recorded d).scope.getD d.scope) := by
  rw [managedOutOfSystem] at h
  cases hscope : (s.recorded d).scope with
  | none => simp [hscope] at h
  | some label => simpa [hscope] using h

/-- A local path is not both set and removed. -/
theorem dropsPath_eq_false (h : (s.pathToSet d).isSome) : s.dropsPath d = false := by
  by_contra hdrops
  rw [Bool.not_eq_false, dropsPath, Bool.and_eq_true] at hdrops
  rw [pathToSet, if_neg (not_isSystem_of_managedOutOfSystem hdrops.1)] at h
  cases h

theorem strippedProperties_recorded :
    s.strippedProperties (s.recorded d).scope d.artifact =
      if s.dropsPath d then some (s.policy.dropLocalPath d.artifact.properties) else none := by
  rw [dropsPath, managedOutOfSystem]
  cases (s.recorded d).scope with
  | none => rfl
  | some label => rfl

/-- The properties are rewritten where the local path is set or removed. -/
theorem properties_overrides :
    (s.overrides d).properties =
      ((s.pathToSet d).map (s.policy.setLocalPath · d.artifact.properties)).or
        (if s.dropsPath d then some (s.policy.dropLocalPath d.artifact.properties) else none) := by
  have hproperties : (s.overrides d).properties =
      s.managedProperties (s.scheme.key d.artifact) (s.recorded d).scope d := rfl
  rw [hproperties]
  by_cases hsystem : s.policy.isSystem ((s.recorded d).scope.getD d.scope)
  · have hkept : s.dropsPath d = false := by
      by_contra hdrops
      rw [Bool.not_eq_false, dropsPath, Bool.and_eq_true] at hdrops
      exact not_isSystem_of_managedOutOfSystem hdrops.1 hsystem
    rw [managedProperties_of_isSystem hsystem, pathToSet, if_pos hsystem, hkept]
    exact Option.or_none.symm
  · rw [managedProperties_of_not_isSystem hsystem, strippedProperties_recorded, pathToSet,
      if_neg hsystem]
    rfl

theorem properties_effective (h : s.isApplying) :
    (s.effective d).artifact.properties =
      (s.overrides d).properties.getD d.artifact.properties := by
  rw [effective_of_applying d h]
  rfl

/-- Where overrides are applied, the local path of a dependency becomes the one that is set, and else it is
its own, unless it is managed out of system scope. -/
theorem localPath_of_applying (h : s.isApplying) :
    s.policy.localPath (s.effective d).artifact =
      (s.pathToSet d).or (if s.managedOutOfSystem d then none else s.policy.localPath d.artifact) := by
  rw [ScopeHandler.localPath, Artifact.property, properties_effective h, properties_overrides]
  cases hset : s.pathToSet d with
  | some path => simp [ScopeHandler.setLocalPath]
  | none =>
    rw [Option.map_none, Option.none_or, Option.none_or, dropsPath]
    cases hout : s.managedOutOfSystem d with
    | false => rfl
    | true =>
      cases hpath : s.policy.localPath d.artifact with
      | none => simpa [ScopeHandler.localPath, Artifact.property] using hpath
      | some path => simp [ScopeHandler.dropLocalPath]

theorem property_effective {name : String} (h : name ≠ s.policy.pathProperty) :
    (s.effective d).artifact.property name = d.artifact.property name := by
  by_cases happlying : s.isApplying
  · have hset : ∀ path, (s.policy.setLocalPath path d.artifact.properties)[name]? =
        d.artifact.properties[name]? := by
      intro path
      simp [ScopeHandler.setLocalPath, Std.ExtTreeMap.getElem?_insert, Ne.symm h]
    have hdropped : (s.policy.dropLocalPath d.artifact.properties)[name]? =
        d.artifact.properties[name]? := by
      simp [ScopeHandler.dropLocalPath, Std.ExtTreeMap.getElem?_erase, Ne.symm h]
    rw [Artifact.property, Artifact.property, properties_effective happlying, properties_overrides]
    cases s.pathToSet d with
    | some path => exact hset path
    | none =>
      rw [Option.map_none, Option.none_or]
      split
      next => exact hdropped
      next => rfl
  · rw [effective_of_not_applying d (by simpa using happlying)]

/-! ## Flags of an answer -/

theorem fields_change : (s.change d).fields = s.flags d := by
  have hproperties : (s.overrides d).properties.isSome = ((s.pathToSet d).isSome || s.dropsPath d) := by
    rw [properties_overrides, Option.isSome_or, Option.isSome_map]
    cases s.dropsPath d <;> rfl
  rw [change, flags]
  split
  next => rw [Override.fields, hproperties]; rfl
  next => rfl

theorem fields_manage : (s.manage d).value.elim {} Override.fields = s.flags d := by
  rw [← fields_change, ← getD_manage_eq_change]
  cases (s.manage d).value with
  | none => rfl
  | some o => rfl

theorem manage_eq_none_iff : (s.manage d).value = none ↔ ¬ (s.flags d).Flagged := by
  rw [← ManagedFields.any_iff, Bool.not_eq_true, ← fields_change, manage_value, change]
  by_cases happlying : s.isApplying
  · cases hempty : (s.overrides d).isEmpty <;>
      simp_all [Override.isEmpty_eq_not_any]
  · simp [happlying, Override.fields, ManagedFields.any]

/-- What application makes of a dependency, with the flags that it sets. -/
structure AppliesTo (s : Snapshot) (d e : Dependency) (flags : ManagedFields) : Prop where
  groupId : e.artifact.groupId = d.artifact.groupId
  artifactId : e.artifact.artifactId = d.artifact.artifactId
  classifier : e.artifact.classifier = d.artifact.classifier
  extension : e.artifact.extension = d.artifact.extension
  property : ∀ name, name ≠ s.policy.pathProperty → e.artifact.property name = d.artifact.property name
  exclusions : ∀ x ∈ d.exclusions, x ∈ e.exclusions
  unapplied : s.depth < s.thresholds.applyFrom → e = d
  localPath : s.thresholds.applyFrom ≤ s.depth → s.policy.localPath e.artifact =
    if s.policy.isSystem e.scope ∧ (s.recorded d).localPath.isSome then (s.recorded d).localPath
    else if s.managedOutOfSystem d then none
    else s.policy.localPath d.artifact
  /-- The path is not both set and removed. -/
  apart : ¬ ((s.pathToSet d).isSome ∧ s.dropsPath d)
  flags_eq : flags = s.flags d
  cover : flags.Cover d e

theorem appliesTo_effective (s : Snapshot) (d : Dependency) :
    s.AppliesTo d (s.effective d) ((s.manage d).value.elim {} Override.fields) := by
  have hchange := effective_eq_change s d
  constructor
  · rw [hchange]; rfl
  · rw [hchange]; rfl
  · rw [hchange]; rfl
  · rw [hchange]; rfl
  · exact fun name => property_effective
  · intro x hx
    rw [hchange, Override.applyTo, Std.ExtTreeSet.mem_union_iff]
    exact Or.inl hx
  · intro hdepth
    refine effective_of_not_applying d ?_
    simpa [isApplying] using hdepth
  · intro hdepth
    have happlying : s.isApplying := by simpa [isApplying] using hdepth
    have hscope : (s.effective d).scope = (s.recorded d).scope.getD d.scope := by
      rw [effective_of_applying d happlying]
      rfl
    rw [localPath_of_applying happlying, hscope, pathToSet]
    by_cases hsystem : s.policy.isSystem ((s.recorded d).scope.getD d.scope)
    · cases (s.recorded d).localPath <;> simp [hsystem]
    · simp [hsystem]
  · rintro ⟨hset, hdrops⟩
    simp [dropsPath_eq_false hset] at hdrops
  · exact fields_manage
  · rw [fields_manage, ← fields_change, hchange]
    exact (s.change d).fields_cover d

/-- Application rewrites what it should and nothing else, and announces it; nothing is answered exactly
where no flag would be set. -/
theorem application_exact (s : Snapshot) (d : Dependency) :
    s.AppliesTo d (s.effective d) ((s.manage d).value.elim {} Override.fields) ∧
      ((s.manage d).value = none ↔ ¬ (s.flags d).Flagged) :=
  ⟨appliesTo_effective s d, manage_eq_none_iff⟩

end Snapshot

end NearestWins
