import NearestWins.Collect.Resolve
import NearestWins.Proofs.TableEntry

/-!
# Application of overrides

What management makes of one dependency. Below the depth of application nothing is overridden; from
there on the recorded overrides are applied, and where `manage` answers nothing they would change
nothing. Scope and local path are managed independently of each other, so the local path of a managed
dependency is looked at under the scope that it has after management.
-/

namespace NearestWins

namespace Override

theorem isEmpty_iff {o : Override} : o.isEmpty ↔ o = {} := by
  cases o
  simp [isEmpty, and_assoc]

@[simp] theorem applyTo_empty (d : Dependency) : ({} : Override).applyTo d = d := by
  have hexclusions : d.exclusions ∪ ∅ = d.exclusions := by
    ext x
    simp
  obtain ⟨artifact, scope, optional, exclusions⟩ := d
  simp only [applyTo, Option.getD_none, Option.none_or] at hexclusions ⊢
  rw [hexclusions]

end Override

namespace Snapshot

/-- The overrides for a dependency are answered at depths where overrides are applied, unless they
change nothing. -/
theorem manage_value (s : Snapshot) (d : Dependency) :
    (s.manage d).value =
      if s.isApplying ∧ (s.overrides d).isEmpty = false then some (s.overrides d) else none := by
  rw [manage]
  by_cases h : s.isApplying <;> by_cases h' : (s.overrides d).isEmpty <;> simp [h, h']

theorem manage_of_not_applying {s : Snapshot} (d : Dependency) (h : s.isApplying = false) :
    (s.manage d).value = none := by
  simp [manage_value, h]

/-- Where overrides are applied, no answer means no change. -/
theorem getD_manage {s : Snapshot} (d : Dependency) (h : s.isApplying) :
    (s.manage d).value.getD {} = s.overrides d := by
  rw [manage_value]
  by_cases he : (s.overrides d).isEmpty
  · rw [if_neg (by simp [he]), Override.isEmpty_iff.mp he]
    rfl
  · rw [if_pos ⟨h, by simpa using he⟩]
    rfl

/-- The dependency that management makes of a declared one. -/
def effective (s : Snapshot) (d : Dependency) : Dependency :=
  (s.manage d).value.elim d (·.applyTo d)

/-- The changes that management makes to a dependency: the recorded overrides, where overrides are
applied. -/
def change (s : Snapshot) (d : Dependency) : Override :=
  if s.isApplying then s.overrides d else {}

theorem getD_manage_eq_change (s : Snapshot) (d : Dependency) :
    (s.manage d).value.getD {} = s.change d := by
  by_cases h : s.isApplying
  · rw [getD_manage d h, change, if_pos h]
  · rw [manage_of_not_applying d (by simpa using h), change, if_neg h]
    rfl

theorem effective_eq_change (s : Snapshot) (d : Dependency) :
    s.effective d = (s.change d).applyTo d := by
  rw [effective, ← getD_manage_eq_change]
  cases (s.manage d).value with
  | none => exact (Override.applyTo_empty d).symm
  | some o => rfl

theorem effective_of_not_applying {s : Snapshot} (d : Dependency) (h : s.isApplying = false) :
    s.effective d = d := by
  rw [effective_eq_change, change, if_neg (by simp [h]), Override.applyTo_empty]

theorem effective_of_applying {s : Snapshot} (d : Dependency) (h : s.isApplying) :
    s.effective d = (s.overrides d).applyTo d := by
  rw [effective_eq_change, change, if_pos h]

/-- Exclusions look at nothing that management rewrites. -/
theorem excludes_effective (s : Snapshot) (d : Dependency) (x : Exclusion) :
    x.excludes (s.effective d).artifact = x.excludes d.artifact := by
  rw [effective_eq_change]
  rfl

/-- The record of a dependency, told by its changes. -/
theorem resolved_manage (s : Snapshot) (d : Dependency) :
    s.resolved d (s.manage d).value =
      { dependency := s.effective d
        premanagedVersion := premanaged d.artifact.version (s.effective d).artifact.version
        premanagedScope := premanaged d.scope (s.effective d).scope
        depth := s.depth
        managed := (s.change d).fields
        system := s.policy.isSystemDependency (s.effective d) } := by
  rw [← getD_manage_eq_change, effective]
  cases (s.manage d).value with
  | none => rfl
  | some o => rfl

/-! ## Local paths -/

/-- In system scope a managed local path is set, and nothing else happens to the properties. -/
theorem managedProperties_of_isSystem {s : Snapshot} {key : Key} {scope : Option String}
    {d : Dependency} (h : s.policy.isSystem (scope.getD d.scope)) :
    s.managedProperties key scope d =
      s.table.localPaths[key]?.map (s.policy.setLocalPath · d.artifact.properties) := by
  have hkept : s.strippedProperties scope d.artifact = none := by
    cases scope with
    | none => rfl
    | some scope =>
      rw [Option.getD_some] at h
      simp [strippedProperties, h]
  rw [managedProperties, if_pos h, hkept]
  cases s.table.localPaths[key]? <;> rfl

/-- Out of system scope a local path can only be removed. -/
theorem managedProperties_of_not_isSystem {s : Snapshot} {key : Key} {scope : Option String}
    {d : Dependency} (h : ¬ s.policy.isSystem (scope.getD d.scope)) :
    s.managedProperties key scope d = s.strippedProperties scope d.artifact := by
  rw [managedProperties, if_neg h]

/-- Two snapshots with the same policy that record the same local path give the same properties. -/
theorem managedProperties_congr {m m' : Snapshot} {key key' : Key} {d d' : Dependency}
    (hpolicy : m'.policy = m.policy)
    (hpath : m'.table.localPaths[key']? = m.table.localPaths[key]?) (hscope : d'.scope = d.scope)
    (hartifact : d'.artifact = d.artifact) (scope : Option String) :
    m'.managedProperties key' scope d' = m.managedProperties key scope d := by
  simp only [managedProperties, strippedProperties, hpolicy, hpath, hscope, hartifact]

/-- The overrides for a dependency are read off the entry of its key. -/
theorem overrides_eq_of_entry_eq {m m' : Snapshot} {d : Dependency} (hpolicy : m'.policy = m.policy)
    (h : m'.table.entry (m'.scheme.key d.artifact) = m.table.entry (m.scheme.key d.artifact)) :
    m'.overrides d = m.overrides d := by
  have hversion := congrArg TableEntry.version h
  have hscope := congrArg TableEntry.scope h
  have hoptional := congrArg TableEntry.optional h
  have hpath := congrArg TableEntry.localPath h
  have hexclusions := congrArg TableEntry.exclusions h
  simp only [OverrideTable.entry] at hversion hscope hoptional hpath hexclusions
  rw [overrides, overrides, hversion, hscope, hoptional, hexclusions,
    managedProperties_congr hpolicy hpath rfl rfl]

/-- A dependency that is in system scope after management has the managed local path, where overrides
are applied and one is recorded, and else its own. -/
theorem localPath_effective {s : Snapshot} {d : Dependency}
    (h : s.policy.isSystem (s.effective d).scope) :
    s.policy.localPath (s.effective d).artifact =
      (if s.isApplying then s.table.localPaths[s.scheme.key d.artifact]? else none).or
        (s.policy.localPath d.artifact) := by
  by_cases happlying : s.isApplying
  · rw [effective_of_applying d happlying] at h ⊢
    have hproperties : (s.overrides d).properties = _ := managedProperties_of_isSystem h
    rw [if_pos happlying, Override.applyTo, ScopeHandler.localPath, ScopeHandler.localPath,
      Artifact.property, Artifact.property, hproperties]
    cases s.table.localPaths[s.scheme.key d.artifact]? with
    | none => rfl
    | some path => simp [ScopeHandler.setLocalPath]
  · rw [effective_of_not_applying d (by simpa using happlying), if_neg happlying, Option.none_or]

end Snapshot

end NearestWins
