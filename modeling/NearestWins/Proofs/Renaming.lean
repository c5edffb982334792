import Mathlib.Logic.Equiv.Basic
import NearestWins.Proofs.SystemFiles

/-!
# Renamed labels and properties

The library attaches no meaning of its own to scope labels and property names: it compares labels
with the empty one, asks the policy which of them are system scopes, and reads and writes the one
property that the policy names. A `Renaming` changes labels and names throughout. Main statement:
the collected forest of a renamed tree under the renamed policy is the renamed forest, and
verification of its local files comes to the same.
-/

namespace NearestWins

/-- A renaming of scope labels and of property names. Names that differ still differ after it, and the
label of an undeclared scope is the only one that becomes empty. -/
structure Renaming where
  scope : String → String
  property : String → String
  scope_injective : Function.Injective scope
  property_injective : Function.Injective property
  scope_empty : scope "" = ""

namespace Renaming

/-! ## What is renamed -/

/-- A set of scope labels, each renamed. -/
def labels (ρ : Renaming) (labels : Std.ExtTreeSet String) : Std.ExtTreeSet String :=
  .ofList (labels.toList.map ρ.scope)

/-- Properties with their names renamed and their values kept. -/
def properties (ρ : Renaming) (properties : Properties) : Properties :=
  .ofList (properties.toList.map fun (name, value) => (ρ.property name, value))

/-- An artifact with its properties renamed. -/
def artifact (ρ : Renaming) (a : Artifact) : Artifact :=
  { a with properties := ρ.properties a.properties }

/-- A dependency with its scope and its properties renamed. -/
def dependency (ρ : Renaming) (d : Dependency) : Dependency :=
  { d with artifact := ρ.artifact d.artifact, scope := ρ.scope d.scope }

mutual

/-- A tree with all its dependencies and declarations renamed. -/
def node (ρ : Renaming) : Node → Node
  | ⟨dependency, managed, children⟩ =>
    ⟨dependency.map ρ.dependency, managed.map ρ.dependency, ρ.nodes children⟩

/-- Siblings, renamed each. -/
def nodes (ρ : Renaming) : List Node → List Node
  | [] => []
  | node :: rest => ρ.node node :: ρ.nodes rest

end

mutual

/-- A resolved tree with all its dependencies and its scopes before management renamed. -/
def resolved (ρ : Renaming) : ResolvedNode → ResolvedNode
  | ⟨dependency, version, scope, depth, managed, system, children⟩ =>
    ⟨ρ.dependency dependency, version, scope.map ρ.scope, depth, managed, system,
      ρ.forest children⟩

/-- A resolved forest, renamed tree by tree. -/
def forest (ρ : Renaming) : List ResolvedNode → List ResolvedNode
  | [] => []
  | node :: rest => ρ.resolved node :: ρ.forest rest

end

/-- What is recorded under a key, with its scope renamed. -/
def entry (ρ : Renaming) (e : TableEntry) : TableEntry :=
  { e with scope := e.scope.map ρ.scope }

/-- Changes to a dependency, with the scope and the properties that they give it renamed. -/
def override (ρ : Renaming) (o : Override) : Override :=
  { o with scope := o.scope.map ρ.scope, properties := o.properties.map ρ.properties }

variable (ρ : Renaming)

theorem resolved_with_children (r : ResolvedNode) (children : List ResolvedNode) :
    ρ.resolved { r with children := children } =
      { ρ.resolved r with children := ρ.forest children } := by
  cases r
  rw [Renaming.resolved, Renaming.resolved]

theorem dependency_resolved (r : ResolvedNode) :
    (ρ.resolved r).dependency = ρ.dependency r.dependency := by
  cases r
  rw [Renaming.resolved]

theorem system_resolved (r : ResolvedNode) : (ρ.resolved r).system = r.system := by
  cases r
  rw [Renaming.resolved]

/-! ## Labels and property maps -/

theorem scope_eq_empty_iff {label : String} : ρ.scope label = "" ↔ label = "" := by
  constructor
  · intro h
    exact ρ.scope_injective (h.trans ρ.scope_empty.symm)
  · rintro rfl
    exact ρ.scope_empty

theorem declaredText_scope (label : String) :
    OverrideTable.declaredText (ρ.scope label) =
      (OverrideTable.declaredText label).map ρ.scope := by
  have hempty : (ρ.scope label).isEmpty = label.isEmpty := by
    rw [Bool.eq_iff_iff, String.isEmpty_iff, String.isEmpty_iff, ρ.scope_eq_empty_iff]
  rw [OverrideTable.declaredText, OverrideTable.declaredText, hempty]
  split <;> rfl

theorem premanaged_scope (declared effective : String) :
    premanaged (ρ.scope declared) (ρ.scope effective) =
      (premanaged declared effective).map ρ.scope := by
  rw [premanaged, premanaged]
  by_cases h : effective = declared
  · rw [if_pos h, if_pos (congrArg ρ.scope h), Option.map_none]
  · rw [if_neg h, if_neg (mt (@ρ.scope_injective _ _) h), Option.map_some]

theorem contains_labels (set : Std.ExtTreeSet String) (label : String) :
    (ρ.labels set).contains (ρ.scope label) = set.contains label := by
  rw [labels, Std.ExtTreeSet.contains_ofList, Bool.eq_iff_iff, List.contains_iff_mem, List.mem_map]
  simp only [ρ.scope_injective.eq_iff, exists_eq_right, Std.ExtTreeSet.mem_toList,
    Std.ExtTreeSet.mem_iff_contains]

theorem getElem?_properties (p : Properties) (name : String) :
    (ρ.properties p)[ρ.property name]? = p[name]? := by
  rw [properties]
  cases h : p[name]? with
  | some value =>
    refine Std.ExtTreeMap.getElem?_ofList_of_mem (k := ρ.property name) Std.ReflCmp.compare_self ?_ ?_
    · rw [List.pairwise_map]
      refine Std.ExtTreeMap.distinct_keys_toList.imp fun {a b} hne heq => hne ?_
      exact (ρ.property_injective (Std.LawfulEqOrd.eq_of_compare heq)) ▸ Std.ReflCmp.compare_self
    · exact List.mem_map.mpr ⟨(name, value), Std.ExtTreeMap.mem_toList_iff_getElem?_eq_some.mpr h, rfl⟩
  | none =>
    refine Std.ExtTreeMap.getElem?_ofList_of_contains_eq_false ?_
    rw [← Bool.not_eq_true, List.contains_iff_mem]
    simp only [List.map_map, List.mem_map, Function.comp_apply, not_exists, not_and]
    rintro ⟨other, value⟩ hmem heq
    obtain rfl := ρ.property_injective heq
    rw [Std.ExtTreeMap.mem_toList_iff_getElem?_eq_some, h] at hmem
    cases hmem

/-- Names that no name is renamed to have no value. -/
theorem getElem?_properties_of_ne (p : Properties) {name : String}
    (h : ∀ other, ρ.property other ≠ name) : (ρ.properties p)[name]? = none := by
  refine Std.ExtTreeMap.getElem?_ofList_of_contains_eq_false ?_
  rw [← Bool.not_eq_true, List.contains_iff_mem]
  simp [h]

/-- A map is a renamed one if it has the values of that under the renamed names and no others. -/
theorem eq_properties {p q : Properties} (hnames : ∀ name, q[ρ.property name]? = p[name]?)
    (hothers : ∀ name, (∀ other, ρ.property other ≠ name) → q[name]? = none) :
    q = ρ.properties p := by
  refine Std.ExtTreeMap.ext_getElem? fun name => ?_
  by_cases h : ∃ other, ρ.property other = name
  · obtain ⟨other, rfl⟩ := h
    rw [hnames, getElem?_properties]
  · have hne : ∀ other, ρ.property other ≠ name := fun other heq => h ⟨other, heq⟩
    rw [hothers name hne, getElem?_properties_of_ne ρ p hne]

theorem properties_insert (p : Properties) (name value : String) :
    (ρ.properties p).insert (ρ.property name) value = ρ.properties (p.insert name value) := by
  refine ρ.eq_properties (fun other => ?_) (fun other hother => ?_)
  · simp only [Std.ExtTreeMap.getElem?_insert, getElem?_properties, Std.LawfulEqCmp.compare_eq_iff_eq,
      ρ.property_injective.eq_iff]
  · simp [Std.ExtTreeMap.getElem?_insert, getElem?_properties_of_ne ρ p hother, hother name]

theorem properties_erase (p : Properties) (name : String) :
    (ρ.properties p).erase (ρ.property name) = ρ.properties (p.erase name) := by
  refine ρ.eq_properties (fun other => ?_) (fun other hother => ?_)
  · simp only [Std.ExtTreeMap.getElem?_erase, getElem?_properties, Std.LawfulEqCmp.compare_eq_iff_eq,
      ρ.property_injective.eq_iff]
  · simp [Std.ExtTreeMap.getElem?_erase, getElem?_properties_of_ne ρ p hother]

end Renaming

/-! ## Derivation -/

/-- A policy that takes renamed labels for what another one takes the labels for, and that keeps
local paths under the renamed property. -/
structure ScopeHandler.Renamed (ρ : Renaming) (policy policy' : ScopeHandler) : Prop where
  isSystem : ∀ label, policy'.isSystem (ρ.scope label) = policy.isSystem label
  pathProperty : policy'.pathProperty = ρ.property policy.pathProperty

namespace ScopeHandler

variable {ρ : Renaming} {policy policy' : ScopeHandler}

theorem renamed_labelSet (ρ : Renaming) (labels : Std.ExtTreeSet String) (pathProperty : String) :
    Renamed ρ (labelSet labels pathProperty) (labelSet (ρ.labels labels) (ρ.property pathProperty)) where
  isSystem := ρ.contains_labels labels
  pathProperty := rfl

namespace Renamed

theorem localPath (h : Renamed ρ policy policy') (a : Artifact) :
    policy'.localPath (ρ.artifact a) = policy.localPath a := by
  rw [ScopeHandler.localPath, ScopeHandler.localPath, Artifact.property, Artifact.property,
    h.pathProperty]
  exact ρ.getElem?_properties a.properties policy.pathProperty

theorem setLocalPath (h : Renamed ρ policy policy') (path : String) (p : Properties) :
    policy'.setLocalPath path (ρ.properties p) = ρ.properties (policy.setLocalPath path p) := by
  rw [ScopeHandler.setLocalPath, ScopeHandler.setLocalPath, h.pathProperty, ρ.properties_insert]

theorem dropLocalPath (h : Renamed ρ policy policy') (p : Properties) :
    policy'.dropLocalPath (ρ.properties p) = ρ.properties (policy.dropLocalPath p) := by
  rw [ScopeHandler.dropLocalPath, ScopeHandler.dropLocalPath, h.pathProperty, ρ.properties_erase]

theorem declare (h : Renamed ρ policy policy') (e : TableEntry) (d : Dependency) :
    (ρ.entry e).declare policy' (ρ.dependency d) = ρ.entry (e.declare policy d) := by
  have hscope : (e.scope.map ρ.scope).or (OverrideTable.declaredText (ρ.scope d.scope)) =
      (e.scope.or (OverrideTable.declaredText d.scope)).map ρ.scope := by
    rw [ρ.declaredText_scope, Option.map_or]
  have hpath : OverrideTable.declaredPath policy' (ρ.dependency d) =
      OverrideTable.declaredPath policy d := by
    rw [OverrideTable.declaredPath, OverrideTable.declaredPath]
    simp only [Renaming.dependency, h.isSystem, h.localPath]
  rw [TableEntry.declare, hpath]
  simp only [Renaming.entry, Renaming.dependency, Renaming.artifact, TableEntry.declare, hscope]
  rfl

end Renamed

end ScopeHandler

namespace Snapshot

/-- Two snapshots in step, of which the second one has all recorded scopes renamed and a policy to
match. -/
structure Renamed (ρ : Renaming) (m m' : Snapshot) : Prop
    extends InStep (fun e e' => e' = ρ.entry e) m m' where
  policy : ScopeHandler.Renamed ρ m.policy m'.policy

namespace Renamed

variable {ρ : Renaming} {m m' : Snapshot}

theorem derive (h : Renamed ρ m m') (managed : List Dependency) :
    Renamed ρ (m.derive managed).value (m'.derive (managed.map ρ.dependency)).value := by
  have hmanaged : List.Forall₂ (fun d d' => d' = ρ.dependency d) managed
      (managed.map ρ.dependency) := by
    rw [List.forall₂_map_right_iff, List.forall₂_same]
    exact fun d _ => rfl
  refine ⟨h.toInStep.derive (fun d d' hd => ?_) (fun e e' he d d' hd => ?_) hmanaged, ?_⟩
  · rw [hd]
    cases m.scheme <;> rfl
  · rw [he, hd, h.policy.declare]
  · rw [derive_policy, derive_policy]
    exact h.policy

/-! ## Application -/

theorem strippedProperties (h : Renamed ρ m m') (scope : Option String) (a : Artifact) :
    m'.strippedProperties (scope.map ρ.scope) (ρ.artifact a) =
      (m.strippedProperties scope a).map ρ.properties := by
  cases scope with
  | none => rfl
  | some scope =>
    simp only [Snapshot.strippedProperties, Option.map_some, h.policy.isSystem, h.policy.localPath]
    split
    next => exact congrArg some (h.policy.dropLocalPath a.properties)
    next => rfl

theorem managedProperties (h : Renamed ρ m m') (key : Key) (scope : Option String) (d : Dependency) :
    m'.managedProperties key (scope.map ρ.scope) (ρ.dependency d) =
      (m.managedProperties key scope d).map ρ.properties := by
  have hpath : m'.table.localPaths[key]? = m.table.localPaths[key]? :=
    congrArg TableEntry.localPath (h.entries key)
  have hscope : (scope.map ρ.scope).getD (ρ.scope d.scope) = ρ.scope (scope.getD d.scope) :=
    Option.getD_map ..
  have hstripped := h.strippedProperties scope d.artifact
  have hbase : (m'.strippedProperties (scope.map ρ.scope) (ρ.artifact d.artifact)).getD
      (ρ.properties d.artifact.properties) =
        ρ.properties ((m.strippedProperties scope d.artifact).getD d.artifact.properties) := by
    rw [hstripped, Option.getD_map]
  simp only [Snapshot.managedProperties, Renaming.dependency, hscope, h.policy.isSystem, hpath]
  split
  next =>
    cases m.table.localPaths[key]? with
    | none => exact hstripped
    | some path => exact congrArg some (hbase ▸ h.policy.setLocalPath path _)
  next => exact hstripped

theorem overrides (h : Renamed ρ m m') (d : Dependency) :
    m'.overrides (ρ.dependency d) = ρ.override (m.overrides d) := by
  have hkey : m'.scheme.key (ρ.dependency d).artifact = m.scheme.key d.artifact := by
    rw [h.scheme]
    cases m.scheme <;> rfl
  have hentry := h.entries (m.scheme.key d.artifact)
  have hversion := congrArg TableEntry.version hentry
  have hscope := congrArg TableEntry.scope hentry
  have hoptional := congrArg TableEntry.optional hentry
  have hexclusions := congrArg TableEntry.exclusions hentry
  simp only [OverrideTable.entry, Renaming.entry] at hversion hscope hoptional hexclusions
  rw [Snapshot.overrides, hkey, hversion, hscope, hoptional, hexclusions, h.managedProperties]
  rfl

theorem change (h : Renamed ρ m m') (d : Dependency) :
    m'.change (ρ.dependency d) = ρ.override (m.change d) := by
  rw [Snapshot.change, Snapshot.change, h.isApplying, h.overrides]
  split <;> rfl

end Renamed

end Snapshot

namespace Renaming

variable (ρ : Renaming)

theorem applyTo_override (o : Override) (d : Dependency) :
    (ρ.override o).applyTo (ρ.dependency d) = ρ.dependency (o.applyTo d) := by
  simp only [Override.applyTo, Renaming.override, Renaming.dependency, Renaming.artifact,
    Option.getD_map]

theorem fields_override (o : Override) : (ρ.override o).fields = o.fields := by
  simp only [Override.fields, Renaming.override, Option.isSome_map]

end Renaming

namespace Snapshot.Renamed

variable {ρ : Renaming} {m m' : Snapshot}

theorem effective (h : Renamed ρ m m') (d : Dependency) :
    m'.effective (ρ.dependency d) = ρ.dependency (m.effective d) := by
  rw [effective_eq_change, effective_eq_change, h.change, ρ.applyTo_override]

theorem resolved (h : Renamed ρ m m') (d : Dependency) :
    m'.resolved (ρ.dependency d) (m'.manage (ρ.dependency d)).value =
      ρ.resolved (m.resolved d (m.manage d).value) := by
  have hsystem : m'.policy.isSystemDependency (ρ.dependency (m.effective d)) =
      m.policy.isSystemDependency (m.effective d) := h.policy.isSystem _
  have hscope : premanaged (ρ.dependency d).scope (ρ.dependency (m.effective d)).scope =
      (premanaged d.scope (m.effective d).scope).map ρ.scope := ρ.premanaged_scope _ _
  rw [resolved_manage, resolved_manage, h.effective, h.change, ρ.fields_override, h.depth, hsystem,
    hscope]
  rfl

/-! ## Expansion -/

mutual

theorem expandNode {m m' : Snapshot} (h : Renamed ρ m m') (excluded : ExclusionSet) : ∀ node : Node,
    m'.expandNode excluded (ρ.node node) = (m.expandNode excluded node).map ρ.resolved
  | ⟨none, managed, children⟩ => rfl
  | ⟨some d, managed, children⟩ => by
    have hrecord := h.resolved d
    have hbelow := fun inner => filterMap_expandNode (h.derive managed) inner children
    have hfirst : excluded.firstMatch (ρ.dependency d).artifact = excluded.firstMatch d.artifact := rfl
    have hinherited : ∀ r : ResolvedNode,
        excluded ∪ (ρ.resolved r).dependency.exclusions = excluded ∪ r.dependency.exclusions := by
      intro r
      rw [ρ.dependency_resolved]
      rfl
    rw [Snapshot.expandNode, Snapshot.expandNode, value_resolve m excluded rfl,
      value_resolve m' excluded (d := ρ.dependency d) rfl, hfirst, hrecord, hinherited]
    split
    next =>
      rw [Option.map_some, Option.map_some, Option.map_some, ρ.resolved_with_children, value_expand,
        value_expand, ← hbelow]
      rfl
    next => rfl

theorem filterMap_expandNode {m m' : Snapshot} (h : Renamed ρ m m') (excluded : ExclusionSet) :
    ∀ nodes : List Node, (ρ.nodes nodes).filterMap (m'.expandNode excluded) =
      ρ.forest (nodes.filterMap (m.expandNode excluded))
  | [] => rfl
  | node :: rest => by
    have hnode := expandNode h excluded node
    have hrest := filterMap_expandNode h excluded rest
    rw [Renaming.nodes, List.filterMap_cons, List.filterMap_cons, hnode, hrest]
    cases m.expandNode excluded node <;> rfl

end

theorem value_collect (h : Renamed ρ m m') (tree : Node) (traversal : Traversal) :
    (m'.collect (ρ.node tree) traversal).value = ρ.forest (m.collect tree traversal).value := by
  obtain ⟨dependency, managed, children⟩ := tree
  rw [Snapshot.value_collect, Snapshot.value_collect, value_expand, value_expand]
  exact filterMap_expandNode (h.derive managed) ∅ children

end Snapshot.Renamed

/-! ## Verification -/

mutual

theorem ResolvedNode.walk_renamed (ρ : Renaming) : ∀ r : ResolvedNode,
    (ρ.resolved r).walk = r.walk.map ρ.resolved
  | ⟨dependency, version, scope, depth, managed, system, children⟩ => by
    have hchildren := ResolvedNode.walkAll_renamed ρ children
    rw [walk, List.map_cons, Renaming.resolved, walk, hchildren]

theorem ResolvedNode.walkAll_renamed (ρ : Renaming) : ∀ forest : List ResolvedNode,
    walkAll (ρ.forest forest) = (walkAll forest).map ρ.resolved
  | [] => rfl
  | node :: rest => by
    have hnode := ResolvedNode.walk_renamed ρ node
    have hrest := ResolvedNode.walkAll_renamed ρ rest
    rw [Renaming.forest, walkAll, walkAll, hnode, hrest, List.map_append]

end

/-- Faults name coordinates and local paths, neither of which is renamed. -/
theorem ScopeHandler.Renamed.verifyLocalFiles {ρ : Renaming} {policy policy' : ScopeHandler}
    (h : Renamed ρ policy policy') (isFile : String → Bool) (forest : List ResolvedNode) :
    (NearestWins.verifyLocalFiles policy' isFile (ρ.forest forest)).value =
      (NearestWins.verifyLocalFiles policy isFile forest).value := by
  have hfault : ∀ r : ResolvedNode,
      policy'.fault isFile (ρ.resolved r).dependency.artifact =
        policy.fault isFile r.dependency.artifact := by
    intro r
    rw [ρ.dependency_resolved, fault, fault]
    simp only [Renaming.dependency, h.localPath]
    rfl
  have hsystem : (fun r : ResolvedNode => (ρ.resolved r).system) = fun r => r.system :=
    funext ρ.system_resolved
  rw [NearestWins.verifyLocalFiles, NearestWins.verifyLocalFiles, value_verifyEach, value_verifyEach,
    ResolvedNode.walkAll_renamed, List.filter_map, List.map_map]
  simp only [Function.comp_def, hfault, hsystem]

namespace Snapshot

/-- Labels and property names have no meaning of their own: under the renamed policy a renamed tree is
collected to the renamed forest, whose local files are verified with the same result. -/
theorem collect_rename (ρ : Renaming) (labels : Std.ExtTreeSet String) (pathProperty : String)
    (preset : Preset) (scheme : KeyScheme) (tree : Node) (traversal : Traversal)
    (isFile : String → Bool) :
    let policy : ScopeHandler := .labelSet labels pathProperty
    let policy' : ScopeHandler := .labelSet (ρ.labels labels) (ρ.property pathProperty)
    let forest := (((root preset policy).withScheme scheme).collect tree traversal).value
    let forest' := (((root preset policy').withScheme scheme).collect (ρ.node tree) traversal).value
    forest' = ρ.forest forest ∧
      (verifyLocalFiles policy' isFile forest').value = (verifyLocalFiles policy isFile forest).value := by
  intro policy policy' forest forest'
  have hpolicy : ScopeHandler.Renamed ρ policy policy' :=
    ScopeHandler.renamed_labelSet ρ labels pathProperty
  have hroot : Renamed ρ ((root preset policy).withScheme scheme)
      ((root preset policy').withScheme scheme) :=
    { depth := rfl
      thresholds := rfl
      scheme := rfl
      policy := hpolicy
      entries := fun k => by
        show OverrideTable.entry {} k = ρ.entry (OverrideTable.entry {} k)
        rw [OverrideTable.entry_empty]
        rfl }
  have hforest : forest' = ρ.forest forest := hroot.value_collect tree traversal
  refine ⟨hforest, ?_⟩
  rw [hforest]
  exact hpolicy.verifyLocalFiles isFile forest

/-- The labels `system` and `test` change places, and so do the properties. In the one run the node
is managed from `test` to `system`, in the other one from `system` to `test`; its local file is
found in both. -/
theorem collect_rename_sample :
    let ρ : Renaming :=
      { scope := Equiv.swap "system" "test"
        property := Equiv.swap "localPath" "path"
        scope_injective := Equiv.injective _
        property_injective := Equiv.injective _
        scope_empty := by decide }
    let tool (scope : String) (properties : List (String × String)) : Dependency :=
      { artifact := { groupId := "g", artifactId := "tool", properties := .ofList properties }
        scope := scope }
    let tree : Node :=
      { managed := [tool "system" [("localPath", "/tool")]]
        children := [{ dependency := some (tool "test" [("path", "/other")]) }] }
    let policy : ScopeHandler := .labelSet (.ofList ["system"]) "localPath"
    let policy' : ScopeHandler := .labelSet (ρ.labels (.ofList ["system"])) (ρ.property "localPath")
    let run (policy : ScopeHandler) := (root .standard policy).withScheme .full
    let forest := ((run policy).collect tree .depthFirst).value
    let forest' := ((run policy').collect (ρ.node tree) .depthFirst).value
    let isFile (path : String) : Bool := path = "/tool"
    forest.map (·.dependency.scope) = ["system"] ∧ forest'.map (·.dependency.scope) = ["test"] ∧
      forest' = ρ.forest forest ∧
      (verifyLocalFiles policy' isFile forest').value = (verifyLocalFiles policy isFile forest).value ∧
      (verifyLocalFiles policy isFile forest).value = .ok 1 := by
  intro ρ tool tree policy policy' run forest forest' isFile
  obtain ⟨hforest, hverified⟩ := collect_rename ρ (.ofList ["system"]) "localPath" .standard .full tree
    .depthFirst isFile
  exact ⟨by decide +kernel, by decide +kernel, hforest, hverified, by decide +kernel⟩

end Snapshot

end NearestWins
