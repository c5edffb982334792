import NearestWins.Proofs.Walk

/-!
# Settled trees

What survives a collection is a tree again: `Snapshot.settled` keeps the surviving nodes of a tree with
all that they declare, and gives each of them the dependency that it has after management. Management
never rewrites what it looks at: the key of a dependency and what exclusions match stay as they are,
and a scope or local path that was managed once is managed to the same again. Main statement: a settled
tree is a fixed point of collection.
-/

namespace NearestWins

theorem ScopeHandler.setLocalPath_setLocalPath (policy : ScopeHandler) (path : String)
    (properties : Properties) :
    policy.setLocalPath path (policy.setLocalPath path properties) =
      policy.setLocalPath path properties := by
  refine Std.ExtTreeMap.ext_getElem? fun key => ?_
  simp only [setLocalPath, Std.ExtTreeMap.getElem?_insert]
  split <;> rfl

theorem KeyScheme.key_applyTo (scheme : KeyScheme) (o : Override) (d : Dependency) :
    scheme.key (o.applyTo d).artifact = scheme.key d.artifact := by
  cases scheme <;> rfl

/-! ## Applying overrides twice -/

theorem Override.applyTo_again {o again : Override} {d : Dependency}
    (hversion : again.version = o.version) (hscope : again.scope = o.scope)
    (hoptional : again.optional = o.optional) (hexclusions : again.exclusions = o.exclusions)
    (hproperties : again.properties.getD (o.applyTo d).artifact.properties =
      (o.applyTo d).artifact.properties) : again.applyTo (o.applyTo d) = o.applyTo d := by
  have hgetD : ∀ (value : Option String) (text : String),
      value.getD (value.getD text) = value.getD text := by
    intro value text
    cases value <;> rfl
  have hor : o.optional.or (o.optional.or d.optional) = o.optional.or d.optional := by
    rw [← Option.or_assoc, Option.or_self]
  have hunion : d.exclusions ∪ o.exclusions.getD ∅ ∪ o.exclusions.getD ∅ =
      d.exclusions ∪ o.exclusions.getD ∅ := by
    ext x
    simp
  rw [applyTo, hproperties, hversion, hscope, hoptional, hexclusions]
  simp only [applyTo, hgetD, hor, hunion]

namespace Snapshot

section

variable {s : Snapshot} {key : Key} {scope : Option String} {d e : Dependency}

/-- Out of system scope there is nothing left to remove. -/
theorem strippedProperties_again (h : ¬ s.policy.isSystem (scope.getD d.scope))
    (hproperties : e.artifact.properties =
      (s.strippedProperties scope d.artifact).getD d.artifact.properties) :
    s.strippedProperties scope e.artifact = none := by
  cases scope with
  | none => rfl
  | some label =>
    rw [Option.getD_some] at h
    have hnone : s.policy.localPath e.artifact = none := by
      rw [ScopeHandler.localPath, Artifact.property, hproperties]
      cases hpath : s.policy.localPath d.artifact with
      | none =>
        have hkept : s.strippedProperties (some label) d.artifact = none := by
          simp [strippedProperties, hpath]
        rw [hkept]
        exact hpath
      | some path => simp [strippedProperties, h, hpath, ScopeHandler.dropLocalPath]
    simp [strippedProperties, hnone]

theorem managedProperties_again (hscope : e.scope = scope.getD d.scope)
    (hproperties : e.artifact.properties =
      (s.managedProperties key scope d).getD d.artifact.properties) :
    (s.managedProperties key scope e).getD e.artifact.properties = e.artifact.properties ∧
      ((s.managedProperties key scope e).isSome → (s.managedProperties key scope d).isSome) := by
  have hagain : scope.getD e.scope = scope.getD d.scope := by
    rw [hscope]
    cases scope <;> rfl
  by_cases h : s.policy.isSystem (scope.getD d.scope)
  · have hset : s.managedProperties key scope d = _ := managedProperties_of_isSystem h
    have hsetAgain : s.managedProperties key scope e = _ :=
      managedProperties_of_isSystem (hagain ▸ h)
    rw [hset] at hproperties
    rw [hset, hsetAgain]
    cases hpath : s.table.localPaths[key]? with
    | none => simp
    | some path =>
      rw [hpath, Option.map_some, Option.getD_some] at hproperties
      rw [Option.map_some, Option.getD_some, hproperties,
        ScopeHandler.setLocalPath_setLocalPath]
      exact ⟨rfl, fun _ => rfl⟩
  · rw [managedProperties_of_not_isSystem h] at hproperties
    have hnone := strippedProperties_again h hproperties
    rw [managedProperties_of_not_isSystem (hagain ▸ h), hnone]
    exact ⟨rfl, fun hsome => by cases hsome⟩

end

variable (s : Snapshot) (tree : Node)

/-- The changes to a dependency that was managed before are the same ones, but for its properties:
these are as they should be already. -/
theorem change_effective (d : Dependency) :
    let e := s.effective d
    (s.change e).version = (s.change d).version ∧ (s.change e).scope = (s.change d).scope ∧
      (s.change e).optional = (s.change d).optional ∧
      (s.change e).exclusions = (s.change d).exclusions ∧
      (s.change e).properties.getD e.artifact.properties = e.artifact.properties ∧
      ((s.change e).properties.isSome → (s.change d).properties.isSome) := by
  intro e
  by_cases h : s.isApplying
  · have heffective : e = (s.overrides d).applyTo d := effective_of_applying d h
    have hkey : s.scheme.key e.artifact = s.scheme.key d.artifact := by
      rw [heffective, KeyScheme.key_applyTo]
    have hscope : e.scope = (s.overrides d).scope.getD d.scope := by
      rw [heffective]
      rfl
    have hproperties : e.artifact.properties =
        (s.overrides d).properties.getD d.artifact.properties := by
      rw [heffective]
      rfl
    simp only [change, if_pos h, overrides, hkey, true_and]
    exact managedProperties_again hscope hproperties
  · simp [change, h]

/-- Applying the overrides of a snapshot twice is applying them once. -/
theorem effective_effective (d : Dependency) :
    s.effective (s.effective d) = s.effective d := by
  obtain ⟨hversion, hscope, hoptional, hexclusions, hproperties, -⟩ := s.change_effective d
  rw [effective_eq_change s (s.effective d)]
  rw [effective_eq_change s d] at *
  exact Override.applyTo_again hversion hscope hoptional hexclusions hproperties

/-! ## Settled trees -/

mutual

/-- A node below a path with the dependency that it has after management and with what survives below
it, or `none` when it does not survive. -/
def settledAt (s : Snapshot) (tree : Node) (above : List Node) : Node → Option Node
  | ⟨dependency, managed, children⟩ =>
    let path := above ++ [⟨dependency, managed, children⟩]
    if s.Survives tree path then
      some
        { dependency := s.effectiveOn tree path
          managed := managed
          children := s.settledBelow tree path children }
    else none

/-- The siblings below a path that survive. -/
def settledBelow (s : Snapshot) (tree : Node) (above : List Node) : List Node → List Node
  | [] => []
  | node :: rest => (s.settledAt tree above node).toList ++ s.settledBelow tree above rest

end

/-- What survives of a tree, with each dependency as it is after management. The root is kept. -/
def settled (s : Snapshot) (tree : Node) : Node :=
  { tree with children := s.settledBelow tree [] tree.children }

theorem settledBelow_cons (s : Snapshot) (tree : Node) (above : List Node) (node : Node)
    (rest : List Node) :
    s.settledBelow tree above (node :: rest) =
      if s.Survives tree (above ++ [node]) then
        { dependency := s.effectiveOn tree (above ++ [node])
          managed := node.managed
          children := s.settledBelow tree (above ++ [node]) node.children } ::
            s.settledBelow tree above rest
      else s.settledBelow tree above rest := by
  obtain ⟨dependency, managed, children⟩ := node
  rw [settledBelow, settledAt]
  split <;> rfl

/-- A path of the settled tree that goes along a surviving path of the tree. -/
structure SettledPath (s : Snapshot) (tree : Node) (path again : List Node) : Prop where
  survives : s.Survives tree path
  survives_again : s.Survives (s.settled tree) again
  below : s.below (s.settled tree) again = s.below tree path
  inherited : s.inherited (s.settled tree) again = s.inherited tree path

variable {s : Snapshot} {tree : Node} {above again : List Node}

theorem SettledPath.nil : s.SettledPath tree [] [] where
  survives := survives_nil s tree
  survives_again := survives_nil s (s.settled tree)
  below := rfl
  inherited := rfl

theorem SettledPath.concat (F : s.SettledPath tree above again) {node : Node}
    (h : s.Survives tree (above ++ [node])) :
    s.SettledPath tree (above ++ [node])
      (again ++ [{ dependency := s.effectiveOn tree (above ++ [node])
                   managed := node.managed
                   children := s.settledBelow tree (above ++ [node]) node.children }]) := by
  obtain ⟨-, d, hd, hkept⟩ := survives_concat.mp h
  have heffective : s.effectiveOn tree (above ++ [node]) =
      some ((s.below tree above).effective d) := by
    rw [effectiveOn_concat, hd, Option.map_some]
  constructor
  · exact h
  · refine survives_concat.mpr ⟨F.survives_again, _, heffective, fun x hx => ?_⟩
    rw [F.inherited] at hx
    rw [excludes_effective]
    exact hkept x hx
  · rw [below_concat, below_concat, F.below]
  · rw [inherited_concat heffective, inherited_concat hd, F.inherited, F.below,
      effective_effective]

theorem survives_settledBelow {above again : List Node} (F : s.SettledPath tree above again) :
    ∀ nodes : List Node, ∀ path ∈ Node.pathsFromAll again (s.settledBelow tree above nodes),
      s.Survives (s.settled tree) path
  | [] => by simp [settledBelow, Node.pathsFromAll]
  | ⟨dependency, managed, children⟩ :: rest => by
    intro path hpath
    have hrest := survives_settledBelow F rest path
    rw [settledBelow_cons] at hpath
    split at hpath
    next h =>
      have hbelow := F.concat h
      rw [Node.pathsFromAll, Node.pathsFrom, List.mem_append, List.mem_cons] at hpath
      rcases hpath with (rfl | hchildren) | hothers
      · exact hbelow.survives_again
      · exact survives_settledBelow hbelow children path hchildren
      · exact hrest hothers
    next h => exact hrest hpath

/-! ## Collecting a settled tree -/

end Snapshot

/-- Two resolved trees of the same shape, in which nodes at the same place are related. -/
inductive ResolvedNode.Alike (R : ResolvedNode → ResolvedNode → Prop) :
    ResolvedNode → ResolvedNode → Prop
  | node {a b : ResolvedNode} : R a b → List.Forall₂ (Alike R) a.children b.children → Alike R a b

/-- The record of a node that is collected once more: all is as it was, and nothing is changed by
management any more. -/
structure ResolvedNode.Repeats (first again : ResolvedNode) : Prop where
  dependency : again.dependency = first.dependency
  depth : again.depth = first.depth
  system : again.system = first.system
  premanagedVersion : again.premanagedVersion = none
  premanagedScope : again.premanagedScope = none
  version : again.managed.version = first.managed.version
  scope : again.managed.scope = first.managed.scope
  optional : again.managed.optional = first.managed.optional
  exclusions : again.managed.exclusions = first.managed.exclusions
  /-- A local path that was removed is not there to be removed again. -/
  properties : again.managed.properties → first.managed.properties

/-- A resolved tree has all of a tree: its record is for the dependency of the root, and below it no child
is left out. -/
inductive ResolvedNode.HasAllOf : ResolvedNode → Node → Prop
  | node {r : ResolvedNode} {n : Node} :
      n.dependency = some r.dependency → List.Forall₂ HasAllOf r.children n.children → HasAllOf r n

namespace Snapshot

theorem repeats_resolved (s : Snapshot) (d : Dependency) (below belowAgain : List ResolvedNode) :
    ResolvedNode.Repeats { s.resolved d (s.manage d).value with children := below }
      { s.resolved (s.effective d) (s.manage (s.effective d)).value with
        children := belowAgain } := by
  obtain ⟨hversion, hscope, hoptional, hexclusions, -, hproperties⟩ := s.change_effective d
  have hpremanaged : ∀ text, premanaged text text = none := by
    intro text
    rw [premanaged, if_pos rfl]
  rw [resolved_manage, resolved_manage, effective_effective]
  constructor
  · rfl
  · rfl
  · rfl
  · exact hpremanaged _
  · exact hpremanaged _
  · exact congrArg Option.isSome hversion
  · exact congrArg Option.isSome hscope
  · exact congrArg Option.isSome hoptional
  · exact congrArg Option.isSome hexclusions
  · exact hproperties

variable {s : Snapshot} {tree : Node}

theorem forestBelow_settledBelow {above again : List Node} (F : s.SettledPath tree above again) :
    ∀ nodes : List Node,
    List.Forall₂ (ResolvedNode.Alike ResolvedNode.Repeats) (s.forestBelow tree above nodes)
      (s.forestBelow (s.settled tree) again (s.settledBelow tree above nodes))
  | [] => by
    rw [settledBelow]
    exact .nil
  | ⟨dependency, managed, children⟩ :: rest => by
    have hrest := forestBelow_settledBelow F rest
    rw [settledBelow_cons]
    split
    next h =>
      obtain ⟨-, d, hd, -⟩ := survives_concat.mp h
      have hbelow := F.concat h
      have hchildren := forestBelow_settledBelow hbelow children
      have heffective := (effectiveOn_concat s tree above _).trans (congrArg (Option.map _) hd)
      rw [forestBelow_cons_of_survives h hd,
        forestBelow_cons_of_survives hbelow.survives_again heffective, F.below]
      exact .cons (.node (repeats_resolved _ d _ _) hchildren) hrest
    next h =>
      rw [forestBelow_cons_of_not_survives F.survives h]
      exact hrest

/-- All of the settled tree is collected, each node with the dependency that it has already. -/
theorem hasAllOf_settledBelow {above again : List Node} (F : s.SettledPath tree above again) :
    ∀ nodes : List Node, List.Forall₂ ResolvedNode.HasAllOf
      (s.forestBelow (s.settled tree) again (s.settledBelow tree above nodes))
      (s.settledBelow tree above nodes)
  | [] => by
    rw [settledBelow]
    exact .nil
  | ⟨dependency, managed, children⟩ :: rest => by
    have hrest := hasAllOf_settledBelow F rest
    rw [settledBelow_cons]
    split
    next h =>
      obtain ⟨-, d, hd, -⟩ := survives_concat.mp h
      have hbelow := F.concat h
      have hchildren := hasAllOf_settledBelow hbelow children
      have heffective := (effectiveOn_concat s tree above _).trans (congrArg (Option.map _) hd)
      rw [forestBelow_cons_of_survives hbelow.survives_again heffective, F.below, resolved_manage,
        effective_effective]
      exact .cons (.node heffective hchildren) hrest
    next h => exact hrest

/-- Collection is settled after one run: from the settled tree no node is left out, its forest is of the
same shape as before and repeats each record, and applying overrides twice is applying them once. -/
theorem collect_settled (s : Snapshot) (tree : Node) (traversal : Traversal) :
    List.Forall₂ (ResolvedNode.Alike ResolvedNode.Repeats) (s.collect tree traversal).value
        (s.collect (s.settled tree) traversal).value ∧
      List.Forall₂ ResolvedNode.HasAllOf (s.collect (s.settled tree) traversal).value
        (s.settled tree).children ∧
      (∀ path ∈ (s.settled tree).rootPaths, s.Survives (s.settled tree) path) ∧
      ∀ (m : Snapshot) (d : Dependency), m.effective (m.effective d) = m.effective d := by
  refine ⟨?_, ?_, survives_settledBelow .nil tree.children, effective_effective⟩
  · rw [value_collect_eq_forestBelow, value_collect_eq_forestBelow]
    exact forestBelow_settledBelow .nil tree.children
  · rw [value_collect_eq_forestBelow]
    exact hasAllOf_settledBelow .nil tree.children

/-- One node is left out with the one below it, and another is managed by the root. The settled tree has
the other two nodes, and of these none is left out. -/
theorem collect_settled_sample :
    let lib (name version : String) (excluded : List String) : Dependency :=
      { artifact := { groupId := "g", artifactId := name, version := version }
        exclusions := .ofList (excluded.map (Exclusion.mk "g" · wildcard wildcard)) }
    let tree : Node :=
      { managed := [lib "b" "2" []]
        children := [
          { dependency := some (lib "a" "1" ["x"])
            children := [
              { dependency := some (lib "x" "1" []), children := [{ dependency := some (lib "y" "1" []) }] },
              { dependency := some (lib "b" "1" []) }] }] }
    let s := root .standard .legacy
    let first := (s.collect tree .depthFirst).value
    let again := (s.collect (s.settled tree) .depthFirst).value
    let records (forest : List ResolvedNode) :=
      (ResolvedNode.walkAll forest).map fun r =>
        (r.dependency.artifact.artifactId, r.dependency.artifact.version, r.premanagedVersion)
    tree.descendants = 4 ∧ (s.settled tree).descendants = 2 ∧
      records first = [("a", "1", none), ("b", "2", some "1")] ∧
      records again = [("a", "1", none), ("b", "2", none)] ∧
      List.Forall₂ (ResolvedNode.Alike ResolvedNode.Repeats) first again ∧
      List.Forall₂ ResolvedNode.HasAllOf again (s.settled tree).children := by
  intro lib tree s first again records
  obtain ⟨halike, hall, -, -⟩ := collect_settled s tree .depthFirst
  exact ⟨by decide +kernel, by decide +kernel, by decide +kernel, by decide +kernel, halike, hall⟩

end Snapshot

end NearestWins
