import NearestWins.Proofs.Counterpart
import NearestWins.Proofs.NearestDeclaration

/-!
# The limit of derivation

At the limit and beyond, snapshots are still derived, one for each level, but they take nothing in.
`Node.truncate` drops the declarations of all nodes at a level or deeper. Main statement: a run with a
limit is the run without one over the tree that is truncated there, and overrides are applied however
deep beyond the limit a node is.
-/

namespace NearestWins

mutual

/-- The same tree, its root at some level, with nothing declared at the limit or deeper. -/
def Node.truncateFrom (limit level : Nat) : Node → Node
  | ⟨dependency, managed, children⟩ =>
    { dependency := dependency
      managed := if level < limit then managed else []
      children := Node.truncateAllFrom limit (level + 1) children }

/-- The same siblings, all at some level, with nothing declared at the limit or deeper. -/
def Node.truncateAllFrom (limit level : Nat) : List Node → List Node
  | [] => []
  | node :: rest => node.truncateFrom limit level :: Node.truncateAllFrom limit level rest

end

/-- The same tree with nothing declared at a level or deeper. The root is at level 0. -/
def Node.truncate (limit : Nat) (tree : Node) : Node :=
  tree.truncateFrom limit 0

namespace Snapshot

theorem deeper_min (level : Nat) :
    deeper (min level unboundedDepth) = min (level + 1) unboundedDepth := by
  rw [deeper]
  omega

/-- The same snapshot without a limit of derivation. -/
def unlimited (s : Snapshot) : Snapshot :=
  { s with thresholds := { s.thresholds with deriveUntil := unboundedDepth } }

/-- A snapshot takes in what it would without a limit, as long as it is above the limit. -/
theorem value_derive_unlimited {s : Snapshot} (hlimit : s.thresholds.deriveUntil ≤ unboundedDepth)
    (managed : List Dependency) :
    (s.unlimited.derive (if s.isDeriving then managed else [])).value =
      (s.derive managed).value.unlimited := by
  rw [derive_value, derive_value]
  by_cases h : s.isDeriving
  · have hdepth : s.depth < s.thresholds.deriveUntil := isDeriving_iff.mp h
    have hunlimited : s.unlimited.isDeriving :=
      isDeriving_iff.mpr (Nat.lt_of_lt_of_le hdepth hlimit)
    rw [if_pos hunlimited, if_pos h, if_pos h]
    rfl
  · have hnothing : (s.unlimited.table.declareAll s.unlimited.policy s.unlimited.scheme []).1 =
        s.table := rfl
    rw [if_neg h, if_neg h, hnothing]
    split <;> rfl

theorem resolve_unlimited (s : Snapshot) (excluded : ExclusionSet) (limit level : Nat)
    (node : Node) :
    s.unlimited.resolve excluded (node.truncateFrom limit level) = s.resolve excluded node := by
  cases node
  rw [Node.truncateFrom]
  rfl

mutual

theorem value_expand_truncateFrom {s : Snapshot} {level : Nat}
    (hlimit : s.thresholds.deriveUntil ≤ unboundedDepth)
    (hdepth : s.depth = min level unboundedDepth) (excluded : ExclusionSet) :
    ∀ node : Node,
      (s.unlimited.expand excluded (node.truncateFrom s.thresholds.deriveUntil level)).value =
        (s.expand excluded node).value
  | ⟨dependency, managed, children⟩ => by
    have hthresholds := s.derive_thresholds managed
    have hdeeper : (s.derive managed).value.depth = min (level + 1) unboundedDepth := by
      rw [derive_depth, hdepth, deeper_min]
    -- The depth of the snapshot is the level of the node, so both ask the same of the limit.
    have hderiving : s.isDeriving ↔ level < s.thresholds.deriveUntil := by
      rw [isDeriving_iff, hdepth]
      omega
    have hderived : (s.unlimited.derive
        (if level < s.thresholds.deriveUntil then managed else [])).value =
          (s.derive managed).value.unlimited := by
      rw [← value_derive_unlimited hlimit managed]
      simp only [hderiving]
    have hchildren := filterMap_expandNode_truncateAllFrom (hthresholds ▸ hlimit) hdeeper excluded
      children
    rw [hthresholds] at hchildren
    rw [value_expand, value_expand, Node.truncateFrom, hderived, hchildren]

theorem filterMap_expandNode_truncateAllFrom {s : Snapshot} {level : Nat}
    (hlimit : s.thresholds.deriveUntil ≤ unboundedDepth)
    (hdepth : s.depth = min level unboundedDepth) (excluded : ExclusionSet) :
    ∀ nodes : List Node,
      (Node.truncateAllFrom s.thresholds.deriveUntil level nodes).filterMap
          (s.unlimited.expandNode excluded) = nodes.filterMap (s.expandNode excluded)
  | [] => by
    rw [Node.truncateAllFrom]
    rfl
  | node :: rest => by
    have hrest := filterMap_expandNode_truncateAllFrom hlimit hdepth excluded rest
    have hnode : s.unlimited.expandNode excluded
        (node.truncateFrom s.thresholds.deriveUntil level) = s.expandNode excluded node := by
      rw [expandNode, expandNode, resolve_unlimited]
      refine congrFun (congrArg Option.map (funext fun r => ?_)) _
      rw [value_expand_truncateFrom hlimit hdepth r.inherited node]
    rw [Node.truncateAllFrom, List.filterMap_cons, List.filterMap_cons, hnode, hrest]

end

/-! ## Application beyond the limit -/

end Snapshot

/-- A record has what an entry says in place of what the node declares, and marks it as managed. -/
structure ResolvedNode.Follows (r : ResolvedNode) (d : Dependency) (e : TableEntry) : Prop where
  version : r.dependency.artifact.version = e.version.getD d.artifact.version
  scope : r.dependency.scope = e.scope.getD d.scope
  optional : r.dependency.optional = e.optional.or d.optional
  exclusions : r.dependency.exclusions = d.exclusions ∪ e.exclusions.getD ∅
  managed : r.managed =
    { version := e.version.isSome
      scope := e.scope.isSome
      optional := e.optional.isSome
      properties := r.managed.properties
      exclusions := e.exclusions.isSome }

namespace Snapshot

theorem follows_resolved {s : Snapshot} (h : s.isApplying) (d : Dependency) :
    (s.resolved d (s.manage d).value).Follows d (s.table.entry (s.scheme.key d.artifact)) := by
  rw [resolved_manage, effective_of_applying d h, change, if_pos h]
  constructor <;> rfl

/-- In a run from the root, from the depth of application on, the record of a surviving node follows what
the declarations that are taken in come to for its key. -/
theorem follows_nearest (preset : Preset) (scheme : KeyScheme) (policy : ScopeHandler)
    {tree node : Node} {traversal : Traversal} {place : List Nat} {above : List Node} {d : Dependency}
    {r : ResolvedNode} (halong : tree.along place = some (above ++ [node]))
    (hd : node.dependency = some d)
    (hr : ((root preset policy).withScheme scheme).counterpart tree traversal place = some r)
    (happly : preset.thresholds.applyFrom ≤ min (above ++ [node]).length unboundedDepth) :
    r.Follows d (TableEntry.nearest policy
      ((admitted preset.thresholds.deriveUntil ((tree :: above).map Node.managed)).filter
        (scheme.key ·.artifact = scheme.key d.artifact))) := by
  let m := ((root preset policy).withScheme scheme).below tree above
  have hdepth : m.depth = min ((tree :: above).map Node.managed).length unboundedDepth :=
    depth_deriveAll_root preset scheme policy _
  have hlength : ((tree :: above).map Node.managed).length = (above ++ [node]).length := by simp
  have hscheme : m.scheme = scheme := deriveAll_scheme _ _
  have hthresholds : m.thresholds = preset.thresholds := deriveAll_thresholds _ _
  have hentry : m.table.entry (scheme.key d.artifact) = _ :=
    entry_deriveAll_root preset scheme policy _ _
  have happlying : m.isApplying := by
    rw [isApplying_iff, hthresholds, hdepth, hlength]
    exact happly
  have hfollows := follows_resolved happlying d
  rw [← alone_counterpart halong hd hr, hscheme, hentry] at hfollows
  exact ⟨hfollows.version, hfollows.scope, hfollows.optional, hfollows.exclusions, hfollows.managed⟩

/-- A run from the root with a limit is the run without one over the truncated tree. So what is declared
at the limit or deeper changes nothing, and from the depth of application on each surviving node follows
what is declared for its key above the limit, whether it is above the limit itself or beyond. -/
theorem collect_truncate {deriveUntil : Nat} (hlimit : deriveUntil ≤ unboundedDepth)
    (applyFrom : Nat) (scheme : KeyScheme) (policy : ScopeHandler) (tree : Node)
    (traversal : Traversal) :
    let run (limit : Nat) := (root (.custom ⟨limit, applyFrom⟩) policy).withScheme scheme
    ((run deriveUntil).collect tree traversal).value =
        ((run unboundedDepth).collect (tree.truncate deriveUntil) traversal).value ∧
      (∀ other : Node, other.truncate deriveUntil = tree.truncate deriveUntil →
        ((run deriveUntil).collect other traversal).value =
          ((run deriveUntil).collect tree traversal).value) ∧
      ∀ place above node d r, tree.along place = some (above ++ [node]) →
        node.dependency = some d → (run deriveUntil).counterpart tree traversal place = some r →
        applyFrom ≤ min (above ++ [node]).length unboundedDepth →
        r.Follows d (TableEntry.nearest policy
          ((admitted deriveUntil ((tree :: above).map Node.managed)).filter
            (scheme.key ·.artifact = scheme.key d.artifact))) := by
  intro run
  have htruncate : ∀ other : Node, ((run deriveUntil).collect other traversal).value =
      ((run unboundedDepth).collect (other.truncate deriveUntil) traversal).value := by
    intro other
    have hdepth : (run deriveUntil).depth = min 0 unboundedDepth := rfl
    rw [value_collect, value_collect]
    exact (value_expand_truncateFrom (s := run deriveUntil) hlimit hdepth ∅ other).symm
  refine ⟨htruncate tree, fun other h => ?_, fun place above node d r halong hd hr happly => ?_⟩
  · rw [htruncate other, htruncate tree, h]
  · exact follows_nearest (.custom ⟨deriveUntil, applyFrom⟩) scheme policy halong hd hr happly

/-- With the limit at level 1, what the root declares still holds two levels further down, and what the
node in between declares is as if it were not there. -/
theorem collect_truncate_sample :
    let lib (name version : String) : Dependency :=
      { artifact := { groupId := "g", artifactId := name, version := version } }
    let tree : Node :=
      { managed := [lib "a" "2"]
        children := [
          { dependency := some (lib "b" "1")
            managed := [lib "c" "3"]
            children := [{ dependency := some (lib "a" "1") },
              { dependency := some (lib "c" "1") }] }] }
    let run (limit : Nat) := (root (.custom ⟨limit, 0⟩) .legacy).withScheme .full
    1 ≤ unboundedDepth ∧
      ((run 1).collect tree .depthFirst).value =
        ((run unboundedDepth).collect (tree.truncate 1) .depthFirst).value ∧
      (ResolvedNode.walkAll ((run 1).collect tree .depthFirst).value).map
        (·.dependency.artifact.version) = ["1", "2", "1"] ∧
      ∃ r, (run 1).counterpart tree .depthFirst [0, 0] = some r ∧
        r.Follows (lib "a" "1") (TableEntry.nearest .legacy [lib "a" "2"]) := by
  intro lib tree run
  have hlimit : 1 ≤ unboundedDepth := by decide
  obtain ⟨htruncate, -, hfollows⟩ := collect_truncate hlimit 0 .full .legacy tree .depthFirst
  obtain ⟨r, hr⟩ : ∃ r, (run 1).counterpart tree .depthFirst [0, 0] = some r :=
    Option.isSome_iff_exists.mp (by decide +kernel)
  have happly : 0 ≤ min 2 unboundedDepth := Nat.zero_le _
  have hadmitted : (admitted 1 [[lib "a" "2"], [lib "c" "3"]]).filter
      (KeyScheme.full.key ·.artifact = KeyScheme.full.key (lib "a" "1").artifact) =
        [lib "a" "2"] := by
    decide +kernel
  have hnode := hfollows [0, 0] tree.children _ _ r rfl rfl hr happly
  exact ⟨hlimit, htruncate, by decide +kernel, r, hr, hadmitted ▸ hnode⟩

end Snapshot

end NearestWins
