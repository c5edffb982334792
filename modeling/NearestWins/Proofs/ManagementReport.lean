import NearestWins.Proofs.ApplicationFrame
import NearestWins.Proofs.Walk
import NearestWins.Report

/-!
# What resolved nodes report

A resolved node says which of its fields are managed, and which version and scope were declared where they
differ now. The flags are those of the overrides, the declared values come from comparing the dependency before
and after, and a drawn line brings both together: a changed version or scope is noted with what it was, every
other managed field by its name. Main statement: in a collected forest both agree with what the tree declares,
and a line has one note for each managed field.
-/

namespace NearestWins

/-! ## Notes -/

/-- The note on a managed text, with what was declared if that was another one. -/
def noteOn (label declared effective : String) : String :=
  if effective = declared then label
  else label ++ " from " ++ ResolvedNode.declaredOrUnset declared

/-- For each field its flag and the note on it, for a dependency as it is declared and after management. -/
def ManagedFields.flaggedNotes (flags : ManagedFields) (declared effective : Dependency) :
    List (Bool × String) :=
  [(flags.version, noteOn "version" declared.artifact.version effective.artifact.version),
    (flags.scope, noteOn "scope" declared.scope effective.scope),
    (flags.optional, "optional"), (flags.properties, "properties"), (flags.exclusions, "exclusions")]

namespace ManagedFields

variable (flags : ManagedFields)

/-- The names of the overridden fields other than version and scope. -/
def otherLabels : List String :=
  (if flags.optional then ["optional"] else []) ++ (if flags.properties then ["properties"] else []) ++
    (if flags.exclusions then ["exclusions"] else [])

theorem notes_of_flagged (declared effective : Dependency) :
    ((flags.flaggedNotes declared effective).filter Prod.fst).map Prod.snd =
      (if flags.version then [noteOn "version" declared.artifact.version effective.artifact.version]
        else []) ++
      ((if flags.scope then [noteOn "scope" declared.scope effective.scope] else []) ++
        flags.otherLabels) := by
  obtain ⟨version, scope, optional, properties, exclusions⟩ := flags
  cases version <;> cases scope <;> cases optional <;> cases properties <;> cases exclusions <;> rfl

theorem filter_label (keep : String → Bool) (flag : Bool) (label : String) :
    (if flag then [label] else []).filter keep = if flag && keep label then [label] else [] := by
  cases flag with
  | false => rfl
  | true => cases h : keep label <;> simp [h]

/-- Leaving labels out for version and scope leaves the other ones alone. -/
theorem filter_labels {keep : String → Bool} (hoptional : keep "optional")
    (hproperties : keep "properties") (hexclusions : keep "exclusions") :
    flags.labels.filter keep =
      (if flags.version && keep "version" then ["version"] else []) ++
      ((if flags.scope && keep "scope" then ["scope"] else []) ++ flags.otherLabels) := by
  simp only [labels, otherLabels, List.filter_append, filter_label, hoptional, hproperties, hexclusions,
    Bool.and_true, List.append_assoc]

end ManagedFields

namespace ResolvedNode

/-- The line of a node up to its annotation. -/
def bareLine (coloured : Bool) (r : ResolvedNode) : String :=
  r.dependency.describe ++ if r.system then " " ++ Colour.cyan.paint coloured "[system]" else ""

/-- A node reports on a declared dependency: what it says about version and scope before management is right,
and all that is not flagged is as declared. -/
structure ReportsOn (r : ResolvedNode) (d : Dependency) : Prop where
  version : r.premanagedVersion.getD r.dependency.artifact.version = d.artifact.version
  scope : r.premanagedScope.getD r.dependency.scope = d.scope
  changedVersion : ∀ version ∈ r.premanagedVersion,
    version ≠ r.dependency.artifact.version ∧ r.managed.version
  changedScope : ∀ scope ∈ r.premanagedScope, scope ≠ r.dependency.scope ∧ r.managed.scope
  cover : r.managed.Cover d r.dependency

/-- The line of a node is annotated with one note for each managed field, if there is any. -/
structure AnnotatedFor (r : ResolvedNode) (d : Dependency) : Prop where
  line : ∀ coloured, r.describe coloured = r.bareLine coloured ++
    if r.managed.Flagged then
      " " ++ Colour.yellow.paint coloured ("(managed: " ++ ", ".intercalate r.notes ++ ")")
    else ""
  annotated : ∀ coloured, r.describe coloured ≠ r.bareLine coloured ↔ r.managed.Flagged
  notes : r.notes.Perm (((r.managed.flaggedNotes d r.dependency).filter Prod.fst).map Prod.snd)

end ResolvedNode

theorem getD_premanaged (declared effective : String) :
    (premanaged declared effective).getD effective = declared := by
  rw [premanaged]
  split
  next h => exact h
  next => rfl

theorem premanaged_eq_some_iff {declared effective text : String} :
    premanaged declared effective = some text ↔ effective ≠ declared ∧ text = declared := by
  rw [premanaged]
  split
  next h => simp [h]
  next h => simp [h, eq_comm]

namespace ResolvedNode

variable {r : ResolvedNode} {d : Dependency}

/-- A node was compared with what is declared, and its flags tell what may differ. -/
structure ComparedWith (r : ResolvedNode) (d : Dependency) : Prop where
  version : r.premanagedVersion = premanaged d.artifact.version r.dependency.artifact.version
  scope : r.premanagedScope = premanaged d.scope r.dependency.scope
  cover : r.managed.Cover d r.dependency

theorem ComparedWith.reportsOn (h : r.ComparedWith d) : r.ReportsOn d := by
  refine ⟨?_, ?_, ?_, ?_, h.cover⟩
  · rw [h.version, getD_premanaged]
  · rw [h.scope, getD_premanaged]
  · intro version hversion
    rw [h.version] at hversion
    obtain ⟨hne, rfl⟩ := premanaged_eq_some_iff.mp hversion
    exact ⟨hne.symm, h.cover.version hne⟩
  · intro scope hscope
    rw [h.scope] at hscope
    obtain ⟨hne, rfl⟩ := premanaged_eq_some_iff.mp hscope
    exact ⟨hne.symm, h.cover.scope hne⟩

/-- The notes of a node are those of its managed fields. A changed scope is noted before a version that is
managed to what it was. -/
theorem ComparedWith.notes_perm (h : r.ComparedWith d) :
    r.notes.Perm (((r.managed.flaggedNotes d r.dependency).filter Prod.fst).map Prod.snd) := by
  rw [ManagedFields.notes_of_flagged, notes,
    ManagedFields.filter_labels _ (by simp) (by simp) (by simp), h.version, h.scope, premanaged, premanaged,
    noteOn, noteOn]
  by_cases hv : r.dependency.artifact.version = d.artifact.version
  · by_cases hs : r.dependency.scope = d.scope
    · simp [hv, hs]
    · have hflag := h.cover.scope hs
      have hswap : (("scope from " ++ declaredOrUnset d.scope) ::
          ((if r.managed.version then ["version"] else []) ++ r.managed.otherLabels)).Perm
          ((if r.managed.version then ["version"] else []) ++
            ("scope from " ++ declaredOrUnset d.scope) :: r.managed.otherLabels) :=
        List.perm_middle.symm
      simpa [hv, hs, hflag] using hswap
  · have hversionFlag := h.cover.version hv
    by_cases hs : r.dependency.scope = d.scope
    · simp [hv, hs, hversionFlag]
    · have hscopeFlag := h.cover.scope hs
      simp [hv, hs, hversionFlag, hscopeFlag]

theorem describe_eq_bareLine (coloured : Bool) (r : ResolvedNode) :
    r.describe coloured = r.bareLine coloured ++
      if r.managed.Flagged then
        " " ++ Colour.yellow.paint coloured ("(managed: " ++ ", ".intercalate r.notes ++ ")")
      else "" := by
  simp only [describe, bareLine, ManagedFields.any_iff]

theorem describe_ne_bareLine_iff (coloured : Bool) (r : ResolvedNode) :
    r.describe coloured ≠ r.bareLine coloured ↔ r.managed.Flagged := by
  rw [describe_eq_bareLine]
  by_cases hflagged : r.managed.Flagged
  · refine ⟨fun _ => hflagged, fun _ heq => ?_⟩
    have hlength := congrArg String.length heq
    have hblank : " ".length = 1 := rfl
    rw [if_pos hflagged, String.length_append, String.length_append, hblank] at hlength
    omega
  · simp [hflagged]

theorem ComparedWith.annotatedFor (h : r.ComparedWith d) : r.AnnotatedFor d where
  line coloured := describe_eq_bareLine coloured r
  annotated coloured := describe_ne_bareLine_iff coloured r
  notes := h.notes_perm

end ResolvedNode

/-! ## Collected forests -/

/-- Two lists correspond element by element, if the images of the one are what the other is sent to. -/
theorem forall₂_of_map_eq_filterMap {α β γ : Type} {f : β → γ} {g : α → Option γ} {as : List α}
    {bs : List β} (hsome : ∀ a ∈ as, (g a).isSome) (h : bs.map f = as.filterMap g) :
    List.Forall₂ (fun a b => g a = some (f b)) as bs := by
  induction as generalizing bs with
  | nil =>
    rw [List.filterMap_nil, List.map_eq_nil_iff] at h
    rw [h]
    exact .nil
  | cons a rest ih =>
    obtain ⟨ha, hrest⟩ := List.forall_mem_cons.mp hsome
    obtain ⟨c, hc⟩ := Option.isSome_iff_exists.mp ha
    rw [List.filterMap_cons_some hc] at h
    obtain ⟨b, others, rfl, rfl, hothers⟩ := List.map_eq_cons_iff.mp h
    exact .cons hc (ih hrest hothers)

namespace Snapshot

variable {s : Snapshot} {tree : Node} {r : ResolvedNode}

/-- A resolved node reports on what the last node of a path declares, its line is annotated for it, and nothing
is managed at depths where overrides are not applied yet. -/
structure Reports (s : Snapshot) (path : List Node) (r : ResolvedNode) : Prop where
  faithful : ∃ d, path.getLast?.bind Node.dependency = some d ∧ r.ReportsOn d ∧ r.AnnotatedFor d
  unapplied : r.depth < s.thresholds.applyFrom →
    ¬ r.managed.Flagged ∧ r.premanagedVersion = none ∧ r.premanagedScope = none

theorem reports_of_recordOn {path : List Node} (h : s.recordOn tree path = some r.alone) :
    s.Reports path r := by
  obtain ⟨d, hd, hrecord⟩ := Option.map_eq_some_iff.mp h
  let manager := s.below tree path.dropLast
  have halone : r.alone = _ := hrecord.symm.trans (manager.resolved_manage d)
  have hdependency : r.dependency = manager.effective d := congrArg ResolvedNode.dependency halone
  have hversion : r.premanagedVersion = premanaged d.artifact.version r.dependency.artifact.version := by
    rw [hdependency]
    exact congrArg ResolvedNode.premanagedVersion halone
  have hscope : r.premanagedScope = premanaged d.scope r.dependency.scope := by
    rw [hdependency]
    exact congrArg ResolvedNode.premanagedScope halone
  have hmanaged : r.managed = (manager.change d).fields := congrArg ResolvedNode.managed halone
  have hcover : r.managed.Cover d r.dependency := by
    rw [hmanaged, hdependency, effective_eq_change]
    exact (manager.change d).fields_cover d
  have hcompared : r.ComparedWith d := ⟨hversion, hscope, hcover⟩
  refine ⟨⟨d, hd, hcompared.reportsOn, hcompared.annotatedFor⟩, fun hdepth => ?_⟩
  have hthresholds : manager.thresholds = s.thresholds := deriveAll_thresholds _ _
  have hdepthOf : r.depth = manager.depth := congrArg ResolvedNode.depth halone
  have hidle : manager.isApplying = false := by
    rw [isApplying, hthresholds, ← hdepthOf]
    exact decide_eq_false (Nat.not_le.mpr hdepth)
  have heffective : r.dependency = d := hdependency.trans (effective_of_not_applying d hidle)
  have hchange : manager.change d = {} := by
    rw [change, hidle]
    rfl
  refine ⟨?_, ?_, ?_⟩
  · rw [hmanaged, hchange]
    decide
  · rw [hversion, heffective, premanaged, if_pos rfl]
  · rw [hscope, heffective, premanaged, if_pos rfl]

/-- Walking a collected forest goes along the surviving root paths of the tree, and each node reports what
management made of the dependency that its path ends at. -/
theorem management_reported (s : Snapshot) (tree : Node) (traversal : Traversal) :
    List.Forall₂ s.Reports (tree.rootPaths.filter fun path => s.Survives tree path)
      (ResolvedNode.walkAll (s.collect tree traversal).value) := by
  have hrecords : ∀ path ∈ tree.rootPaths.filter (fun path => s.Survives tree path),
      (s.recordOn tree path).isSome := by
    intro path hpath
    obtain ⟨hmem, hsurvives⟩ := List.mem_filter.mp hpath
    exact isSome_recordOn (of_decide_eq_true hsurvives) (Node.ne_nil_of_mem_pathsFromAll hmem)
  have hwalk := s.walkAll_collect tree traversal
  exact (forall₂_of_map_eq_filterMap hrecords hwalk).imp fun path r h => reports_of_recordOn h

end Snapshot

end NearestWins
