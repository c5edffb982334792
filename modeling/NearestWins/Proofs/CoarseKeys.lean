import NearestWins.Proofs.NearestDeclaration

/-!
# Keys of group and artifact

Under the group-artifact scheme declarations for different classifiers and extensions share a key:
they compete for the first place and their exclusions are united. Under the full scheme they would
be recorded apart. Main statement: what the group-artifact scheme answers for a dependency is what
the full scheme answers for it once all declarations are made for the classifier and the extension
of that dependency.
-/

namespace NearestWins

/-- The same declaration, made for the classifier and the extension of an artifact. -/
def Dependency.reclassified (d : Dependency) (a : Artifact) : Dependency :=
  { d with artifact := { d.artifact with classifier := a.classifier, extension := a.extension } }

theorem KeyScheme.full_key_reclassified {d : Dependency} {a : Artifact} :
    KeyScheme.full.key (d.reclassified a).artifact = KeyScheme.full.key a ↔
      KeyScheme.groupArtifact.key d.artifact = KeyScheme.groupArtifact.key a := by
  simp [KeyScheme.key, Dependency.reclassified]

/-- What declarations come to does not depend on what they are made for. -/
theorem TableEntry.nearest_reclassified (policy : ScopeHandler) (ds : List Dependency)
    (a : Artifact) : nearest policy (ds.map (·.reclassified a)) = nearest policy ds := by
  have hdeclare : ∀ (e : TableEntry) (d : Dependency),
      e.declare policy (d.reclassified a) = e.declare policy d := by
    intro e d
    rfl
  rw [← foldl_declare, ← foldl_declare, List.foldl_map]
  simp only [hdeclare]

namespace Snapshot

theorem admitted_map (f : Dependency → Dependency) (deriveUntil : Nat)
    (lists : List (List Dependency)) :
    admitted deriveUntil (lists.map (List.map f)) = (admitted deriveUntil lists).map f := by
  rw [admitted, admitted, List.zipIdx_map, List.filter_map, List.flatMap_map, List.map_flatMap]
  rfl

/-- Of the declarations that are taken in, those that have the key of an artifact under the
group-artifact scheme have its full key after all are made for its classifier and extension. -/
theorem filter_reclassified (ds : List Dependency) (a : Artifact) :
    (ds.map (·.reclassified a)).filter (KeyScheme.full.key ·.artifact = KeyScheme.full.key a) =
      (ds.filter (KeyScheme.groupArtifact.key ·.artifact = KeyScheme.groupArtifact.key a)).map
        (·.reclassified a) := by
  rw [List.filter_map]
  refine congrArg _ (List.filter_congr fun d _ => ?_)
  exact decide_eq_decide.mpr KeyScheme.full_key_reclassified

variable (preset : Preset) (policy : ScopeHandler)

theorem entry_reclassified (lists : List (List Dependency)) (a : Artifact) :
    (((root preset policy).withScheme .full).deriveAll
        (lists.map (List.map (·.reclassified a)))).table.entry (KeyScheme.full.key a) =
      (((root preset policy).withScheme .groupArtifact).deriveAll lists).table.entry
        (KeyScheme.groupArtifact.key a) := by
  rw [entry_deriveAll_root, entry_deriveAll_root, admitted_map, filter_reclassified,
    TableEntry.nearest_reclassified]

/-- The group-artifact scheme is the full scheme blind to classifiers and extensions: after any run
of derivations from the root it answers for a dependency as the full scheme does after the same run
with all declarations made for the classifier and the extension of the dependency. -/
theorem manage_groupArtifact (lists : List (List Dependency)) (d : Dependency) :
    ((((root preset policy).withScheme .groupArtifact).deriveAll lists).manage d).value =
      ((((root preset policy).withScheme .full).deriveAll
        (lists.map (List.map (·.reclassified d.artifact)))).manage d).value := by
  let coarse := ((root preset policy).withScheme .groupArtifact).deriveAll lists
  let fine := ((root preset policy).withScheme .full).deriveAll
    (lists.map (List.map (·.reclassified d.artifact)))
  have hdepth : fine.depth = coarse.depth := by
    rw [depth_deriveAll_root, depth_deriveAll_root, List.length_map]
  have hthresholds : fine.thresholds = coarse.thresholds := by
    rw [deriveAll_thresholds, deriveAll_thresholds]
    rfl
  have hpolicy : fine.policy = coarse.policy := by
    rw [deriveAll_policy, deriveAll_policy]
    rfl
  have happlying : fine.isApplying = coarse.isApplying := by
    rw [isApplying, isApplying, hdepth, hthresholds]
  have hcoarse : coarse.scheme = .groupArtifact := deriveAll_scheme _ lists
  have hfine : fine.scheme = .full := deriveAll_scheme _ _
  have hoverrides : fine.overrides d = coarse.overrides d := by
    refine overrides_eq_of_entry_eq hpolicy ?_
    rw [hcoarse, hfine]
    exact entry_reclassified preset policy lists d.artifact
  show (coarse.manage d).value = (fine.manage d).value
  rw [manage_value, manage_value, happlying, hoverrides]

end Snapshot

end NearestWins
