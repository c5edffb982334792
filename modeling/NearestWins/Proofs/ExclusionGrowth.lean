import NearestWins.Proofs.Alignment

/-!
# Additional exclusions

Exclusions travel down a tree by two routes: those of a dependency hold below it, and those of a
declaration are recorded under its key and join the exclusions of the dependencies that have the key. On
neither route do they touch anything else. Each `FewerExclusions` below states this of one kind of data:
all is the same but for the exclusions, of which there may be more. Main statement: additional exclusions
only leave out more nodes, and of the records of the nodes that remain they change nothing but the
exclusions.
-/

namespace NearestWins

/-! ## Declarations and entries -/

/-- The same dependency, with more exclusions in the second. -/
structure Dependency.FewerExclusions (d d' : Dependency) : Prop where
  artifact : d'.artifact = d.artifact
  scope : d'.scope = d.scope
  optional : d'.optional = d.optional
  exclusions : ∀ x ∈ d.exclusions, x ∈ d'.exclusions

/-- The same entry, with more exclusions recorded in the second, and some if the first has any recorded. -/
structure TableEntry.FewerExclusions (e e' : TableEntry) : Prop where
  version : e'.version = e.version
  scope : e'.scope = e.scope
  optional : e'.optional = e.optional
  localPath : e'.localPath = e.localPath
  recorded : e.exclusions.isSome → e'.exclusions.isSome
  exclusions : ∀ x ∈ e.exclusions.getD ∅, x ∈ e'.exclusions.getD ∅

theorem TableEntry.FewerExclusions.refl (e : TableEntry) : e.FewerExclusions e :=
  ⟨rfl, rfl, rfl, rfl, fun h => h, fun _ h => h⟩

theorem TableEntry.FewerExclusions.declare {e e' : TableEntry} {d d' : Dependency}
    (policy : ScopeHandler) (h : e.FewerExclusions e') (hd : d.FewerExclusions d') :
    (e.declare policy d).FewerExclusions (e'.declare policy d') := by
  constructor
  · rw [TableEntry.declare, TableEntry.declare, h.version, hd.artifact]
  · rw [TableEntry.declare, TableEntry.declare, h.scope, hd.scope]
  · rw [TableEntry.declare, TableEntry.declare, h.optional, hd.optional]
  · have hpath : OverrideTable.declaredPath policy d' = OverrideTable.declaredPath policy d := by
      rw [OverrideTable.declaredPath, OverrideTable.declaredPath, hd.scope, hd.artifact]
    rw [TableEntry.declare, TableEntry.declare, h.localPath, hpath]
  · rw [isSome_exclusions_declare_iff, isSome_exclusions_declare_iff]
    rintro (hbefore | ⟨x, hx, -⟩)
    · exact Or.inl (h.recorded hbefore)
    · -- What is new in one run may have been recorded in the other one before.
      by_cases hnew : x ∈ e'.exclusions.getD ∅
      · cases hrecorded : e'.exclusions with
        | none => simp [hrecorded] at hnew
        | some _ => exact Or.inl rfl
      · exact Or.inr ⟨x, hd.exclusions x hx, hnew⟩
  · intro x hx
    rw [getD_exclusions_declare, Std.ExtTreeSet.mem_union_iff] at hx ⊢
    exact hx.imp (h.exclusions x) (hd.exclusions x)

/-! ## Overrides -/

/-- The same changes, with more exclusions to add in the second, and some if the first adds any. -/
structure Override.FewerExclusions (o o' : Override) : Prop where
  version : o'.version = o.version
  scope : o'.scope = o.scope
  optional : o'.optional = o.optional
  properties : o'.properties = o.properties
  recorded : o.exclusions.isSome → o'.exclusions.isSome
  exclusions : ∀ x ∈ o.exclusions.getD ∅, x ∈ o'.exclusions.getD ∅

theorem Override.FewerExclusions.applyTo {o o' : Override} {d d' : Dependency}
    (h : o.FewerExclusions o') (hd : d.FewerExclusions d') :
    (o.applyTo d).FewerExclusions (o'.applyTo d') := by
  constructor
  · simp only [Override.applyTo, h.version, h.properties, hd.artifact]
  · simp only [Override.applyTo, h.scope, hd.scope]
  · simp only [Override.applyTo, h.optional, hd.optional]
  · intro x hx
    simp only [Override.applyTo, Std.ExtTreeSet.mem_union_iff] at hx ⊢
    exact hx.imp (hd.exclusions x) (h.exclusions x)

namespace Snapshot

/-! ## Snapshots -/

/-- Two snapshots of one depth and run, with more exclusions under the keys of the second. -/
structure FewerExclusions (m m' : Snapshot) : Prop where
  depth : m'.depth = m.depth
  thresholds : m'.thresholds = m.thresholds
  scheme : m'.scheme = m.scheme
  policy : m'.policy = m.policy
  entries : ∀ k, (m.table.entry k).FewerExclusions (m'.table.entry k)

namespace FewerExclusions

variable {m m' : Snapshot} {d d' : Dependency}

theorem refl (m : Snapshot) : m.FewerExclusions m :=
  ⟨rfl, rfl, rfl, rfl, fun _ => .refl _⟩

theorem inStep (h : m.FewerExclusions m') : InStep TableEntry.FewerExclusions m m' :=
  ⟨h.depth, h.thresholds, h.scheme, h.entries⟩

theorem derive {l l' : List Dependency} (h : m.FewerExclusions m')
    (hl : List.Forall₂ Dependency.FewerExclusions l l') :
    (m.derive l).value.FewerExclusions (m'.derive l').value := by
  have hpolicy : (m'.derive l').value.policy = (m.derive l).value.policy := by
    rw [derive_policy, derive_policy, h.policy]
  have hderived : InStep TableEntry.FewerExclusions (m.derive l).value (m'.derive l').value := by
    refine h.inStep.derive (fun d d' hd => ?_) (fun e e' he d d' hd => ?_) hl
    · rw [hd.artifact]
    · rw [h.policy]
      exact he.declare _ hd
  exact ⟨hderived.depth, hderived.thresholds, hderived.scheme, hpolicy, hderived.entries⟩

theorem change (h : m.FewerExclusions m') (hd : d.FewerExclusions d') :
    (m.change d).FewerExclusions (m'.change d') := by
  rw [Snapshot.change, Snapshot.change, h.inStep.isApplying]
  split
  next =>
    have hentry := h.entries (m.scheme.key d.artifact)
    have hproperties := managedProperties_congr h.policy hentry.localPath hd.scope hd.artifact
      m.table.scopes[m.scheme.key d.artifact]?
    have hscope : m'.table.scopes[m.scheme.key d.artifact]? =
      m.table.scopes[m.scheme.key d.artifact]? := hentry.scope
    constructor <;> simp only [overrides, h.scheme, hd.artifact, hscope]
    · exact hentry.version
    · exact hentry.optional
    · exact hproperties
    · exact hentry.recorded
    · exact hentry.exclusions
  next => exact ⟨rfl, rfl, rfl, rfl, fun hx => hx, fun _ hx => hx⟩

theorem effective (h : m.FewerExclusions m') (hd : d.FewerExclusions d') :
    (m.effective d).FewerExclusions (m'.effective d') := by
  rw [effective_eq_change, effective_eq_change]
  exact (h.change hd).applyTo hd

theorem aligned : Aligned FewerExclusions Dependency.FewerExclusions where
  derive h hl := h.derive hl
  excludes hd x := by rw [hd.artifact]
  exclusions h hd := (h.effective hd).exclusions

end FewerExclusions

end Snapshot

/-! ## Records -/

/-- The same record, with more exclusions in its dependency in the second, and flagged there if in the
first. -/
structure ResolvedNode.FewerExclusions (r r' : ResolvedNode) : Prop where
  dependency : r.dependency.FewerExclusions r'.dependency
  premanagedVersion : r'.premanagedVersion = r.premanagedVersion
  premanagedScope : r'.premanagedScope = r.premanagedScope
  depth : r'.depth = r.depth
  managed : r'.managed = { r.managed with exclusions := r'.managed.exclusions }
  recorded : r.managed.exclusions → r'.managed.exclusions
  system : r'.system = r.system

namespace Snapshot

theorem FewerExclusions.resolved {m m' : Snapshot} {d d' : Dependency} (h : m.FewerExclusions m')
    (hd : d.FewerExclusions d') :
    (m.resolved d (m.manage d).value).FewerExclusions (m'.resolved d' (m'.manage d').value) := by
  have hchange := h.change hd
  have heffective := h.effective hd
  rw [resolved_manage, resolved_manage]
  constructor
  · exact heffective
  · simp only [hd.artifact, heffective.artifact]
  · simp only [hd.scope, heffective.scope]
  · exact h.depth
  · simp only [Override.fields, hchange.version, hchange.scope, hchange.optional,
      hchange.properties]
  · exact hchange.recorded
  · simp only [h.policy, ScopeHandler.isSystemDependency, heffective.scope]

/-- Exclusions only ever leave nodes out: with additional exclusions on dependencies and declarations of
a tree, what survives would survive without them, and where a node has a counterpart in both runs, the
records agree on all but the exclusions, which grow. -/
theorem collect_fewer_exclusions (s : Snapshot) {tree tree' : Node}
    (h : Node.Matched Dependency.FewerExclusions tree tree') (traversal : Traversal)
    (place : List Nat) :
    ((s.counterpart tree' traversal place).isSome → (s.counterpart tree traversal place).isSome) ∧
      ∀ r r', s.counterpart tree traversal place = some r →
        s.counterpart tree' traversal place = some r' → r.FewerExclusions r' := by
  obtain ⟨hsurvives, hrecords⟩ := counterpart_aligned FewerExclusions.aligned (.refl s) h traversal
    traversal place
  refine ⟨hsurvives, fun r r' hr hr' => ?_⟩
  obtain ⟨m, m', d, d', hm, hd, hrecord, hrecord'⟩ := hrecords r r' hr hr'
  have hfewer := hm.resolved hd
  rw [← hrecord, ← hrecord'] at hfewer
  exact ⟨hfewer.dependency, hfewer.premanagedVersion, hfewer.premanagedScope, hfewer.depth,
    hfewer.managed, hfewer.recorded, hfewer.system⟩

/-- An exclusion on the first dependency leaves one of the nodes below it out; the other one, managed
by a declaration that has an exclusion of its own now, keeps its version. -/
theorem collect_fewer_exclusions_sample :
    let lib (name version : String) (excluded : List String) : Dependency :=
      { artifact := { groupId := "g", artifactId := name, version := version }
        exclusions := .ofList (excluded.map (Exclusion.mk "g" · wildcard wildcard)) }
    let tree (below managed : List String) : Node :=
      { managed := [lib "b" "3" managed]
        children := [
          { dependency := some (lib "a" "1" below)
            children := [{ dependency := some (lib "b" "1" []) },
              { dependency := some (lib "x" "1" []) }] }] }
    let s := root .standard .legacy
    Node.Matched Dependency.FewerExclusions (tree [] []) (tree ["x"] ["y"]) ∧
      (s.counterpart (tree [] []) .depthFirst [0, 1]).isSome ∧
      (s.counterpart (tree ["x"] ["y"]) .depthFirst [0, 1]).isNone ∧
      ∃ r r', s.counterpart (tree [] []) .depthFirst [0, 0] = some r ∧
        s.counterpart (tree ["x"] ["y"]) .depthFirst [0, 0] = some r' ∧ r.FewerExclusions r' := by
  intro lib tree s
  have hlib : ∀ name version excluded,
      (lib name version []).FewerExclusions (lib name version excluded) := by
    intro name version excluded
    exact ⟨rfl, rfl, rfl, fun x hx => absurd hx Std.ExtTreeSet.not_mem_empty⟩
  have hleaf : ∀ name, Node.Matched Dependency.FewerExclusions
      { dependency := some (lib name "1" []) } { dependency := some (lib name "1" []) } :=
    fun name => .node (.some (hlib _ _ _)) .nil .nil
  have hmatched : Node.Matched Dependency.FewerExclusions (tree [] []) (tree ["x"] ["y"]) :=
    .node .none (.cons (hlib _ _ _) .nil)
      (.cons (.node (.some (hlib _ _ _)) .nil (.cons (hleaf "b") (.cons (hleaf "x") .nil))) .nil)
  obtain ⟨r, hr⟩ : ∃ r, s.counterpart (tree [] []) .depthFirst [0, 0] = some r :=
    Option.isSome_iff_exists.mp (by decide +kernel)
  obtain ⟨r', hr'⟩ : ∃ r', s.counterpart (tree ["x"] ["y"]) .depthFirst [0, 0] = some r' :=
    Option.isSome_iff_exists.mp (by decide +kernel)
  refine ⟨hmatched, by decide +kernel, by decide +kernel, r, r', hr, hr', ?_⟩
  exact (collect_fewer_exclusions s hmatched .depthFirst [0, 0]).2 r r' hr hr'

end Snapshot

end NearestWins
