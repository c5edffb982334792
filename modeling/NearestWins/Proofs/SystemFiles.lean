import NearestWins.LocalFiles
import NearestWins.Proofs.Walk

/-!
# Verification of local files

What verifying the local files of a collected forest comes to. `Snapshot.localPathOn` says which local
path a node in system scope has, from the declarations on its root path; scope and local path may be
managed from different levels. Main statement: verification succeeds exactly when each of these paths
is there and leads to a file, and else blames the first node, depth-first, for which it does not.
-/

namespace NearestWins

/-! ## Verification of a list -/

/-- What is wrong with the local path of an artifact. -/
def ScopeHandler.fault (policy : ScopeHandler) (isFile : String → Bool) (a : Artifact) :
    Option Problem :=
  match policy.localPath a with
  | none => some (.localPathMissing a.coordinate)
  | some path => if isFile path then none else some (.localFileMissing a.coordinate path)

/-- The first of some faults, or how many times there was none. -/
def firstFault : List (Option Problem) → Except Problem Nat
  | [] => .ok 0
  | none :: rest => (firstFault rest).map (· + 1)
  | some problem :: _ => .error problem

theorem firstFault_none_cons (rest : List (Option Problem)) :
    firstFault (none :: rest) = (firstFault rest).map (· + 1) := rfl

theorem firstFault_map_eq_ok_iff {α : Type} {fault : α → Option Problem} {l : List α} {n : Nat} :
    firstFault (l.map fault) = .ok n ↔ l.length = n ∧ ∀ a ∈ l, fault a = none := by
  induction l generalizing n with
  | nil => simp [firstFault]
  | cons a rest ih =>
    rw [List.map_cons]
    cases ha : fault a with
    | some problem => simp [firstFault, ha]
    | none =>
      have hmap : firstFault (none :: rest.map fault) = .ok n ↔
          ∃ m, firstFault (rest.map fault) = .ok m ∧ m + 1 = n := by
        rw [firstFault_none_cons]
        cases firstFault (rest.map fault) <;> simp [Except.map]
      rw [hmap, List.forall_mem_cons]
      constructor
      · rintro ⟨m, hm, rfl⟩
        obtain ⟨rfl, hrest⟩ := ih.mp hm
        exact ⟨rfl, ha, hrest⟩
      · rintro ⟨rfl, -, hrest⟩
        exact ⟨rest.length, ih.mpr ⟨rfl, hrest⟩, rfl⟩

theorem firstFault_map_eq_error_iff {α : Type} {fault : α → Option Problem} {l : List α}
    {problem : Problem} :
    firstFault (l.map fault) = .error problem ↔ ∃ before a after, l = before ++ a :: after ∧
      (∀ b ∈ before, fault b = none) ∧ fault a = some problem := by
  induction l with
  | nil => simp [firstFault]
  | cons first rest ih =>
    rw [List.map_cons]
    cases hfirst : fault first with
    | some other =>
      constructor
      · intro h
        obtain rfl : other = problem := by simpa [firstFault] using h
        exact ⟨[], first, rest, rfl, by simp, hfirst⟩
      · rintro ⟨before, a, after, heq, hbefore, ha⟩
        cases before with
        | nil =>
          obtain ⟨rfl, -⟩ := List.cons.inj heq
          rw [hfirst, Option.some.injEq] at ha
          rw [ha, firstFault]
        | cons b before =>
          obtain ⟨rfl, -⟩ := List.cons.inj heq
          rw [hbefore first List.mem_cons_self] at hfirst
          cases hfirst
    | none =>
      have hmap : firstFault (none :: rest.map fault) = .error problem ↔
          firstFault (rest.map fault) = .error problem := by
        rw [firstFault_none_cons]
        cases firstFault (rest.map fault) <;> simp [Except.map]
      rw [hmap, ih]
      constructor
      · rintro ⟨before, a, after, rfl, hbefore, ha⟩
        exact ⟨first :: before, a, after, rfl, List.forall_mem_cons.mpr ⟨hfirst, hbefore⟩, ha⟩
      · rintro ⟨before, a, after, heq, hbefore, ha⟩
        cases before with
        | nil =>
          obtain ⟨rfl, -⟩ := List.cons.inj heq
          rw [hfirst] at ha
          cases ha
        | cons b before =>
          obtain ⟨-, rfl⟩ := List.cons.inj heq
          exact ⟨before, a, after, rfl, (List.forall_mem_cons.mp hbefore).2, ha⟩

/-- Verification ends at the first fault. -/
theorem value_verifyEach (policy : ScopeHandler) (isFile : String → Bool)
    (nodes : List ResolvedNode) :
    (verifyEach policy isFile nodes).value =
      firstFault (nodes.map (policy.fault isFile ·.dependency.artifact)) := by
  induction nodes with
  | nil => rfl
  | cons node rest ih =>
    rw [verifyEach, List.map_cons, ScopeHandler.fault]
    cases policy.localPath node.dependency.artifact with
    | none => rfl
    | some path =>
      by_cases h : isFile path
      · simp [h, ih, firstFault]
      · simp [h, firstFault]

/-! ## Verification of a collected forest -/

namespace Snapshot

/-- The root paths of the surviving nodes that are in system scope after management, depth-first. -/
def systemPaths (s : Snapshot) (tree : Node) : List (List Node) :=
  tree.rootPaths.filter fun path =>
    s.Survives tree path ∧ (s.effectiveOn tree path).any s.policy.isSystemDependency

/-- The local path of a node in system scope: where overrides are applied, that of the first
declaration in system scope that carries one, among those for the key of the node that are admitted
on its root path, and else the path that the node itself declares. -/
def localPathOn (s : Snapshot) (tree : Node) (path : List Node) : Option String :=
  (path.getLast?.bind Node.dependency).bind fun d =>
    let lists := (tree :: path.dropLast).map Node.managed
    let declared := (admitted s.thresholds.deriveUntil lists).filter
      (s.scheme.key ·.artifact = s.scheme.key d.artifact)
    let managed := (declared.filter (s.policy.isSystem ·.scope)).findSome?
      (s.policy.localPath ·.artifact)
    (if s.thresholds.applyFrom ≤ min path.length unboundedDepth then managed else none).or
      (s.policy.localPath d.artifact)

/-- The local path of a node leads to a file. -/
def HasFile (s : Snapshot) (tree : Node) (isFile : String → Bool) (path : List Node) : Prop :=
  ∃ file, s.localPathOn tree path = some file ∧ isFile file

/-- The local path of a node is missing, or the file that it should lead to is. -/
def Blames (s : Snapshot) (tree : Node) (isFile : String → Bool) (path : List Node)
    (problem : Problem) : Prop :=
  ∃ d, s.effectiveOn tree path = some d ∧
    (s.localPathOn tree path = none ∧ problem = .localPathMissing d.artifact.coordinate ∨
      ∃ file, s.localPathOn tree path = some file ∧ isFile file = false ∧
        problem = .localFileMissing d.artifact.coordinate file)

/-- What is wrong with the local path of the last node of a path. -/
def faultOn (s : Snapshot) (tree : Node) (isFile : String → Bool) (path : List Node) :
    Option Problem :=
  (s.effectiveOn tree path).bind fun d => s.policy.fault isFile d.artifact

variable {s : Snapshot} {tree : Node}

/-- A record has the dependency of its path after management, and is in system scope if that is. -/
theorem recordOn_eq_some {path : List Node} {r : ResolvedNode}
    (h : s.recordOn tree path = some r) :
    s.effectiveOn tree path = some r.dependency ∧
      r.system = s.policy.isSystemDependency r.dependency := by
  rcases List.eq_nil_or_concat' path with rfl | ⟨above, node, rfl⟩
  · cases h
  · obtain ⟨d, hd, hdependency, -, hsystem⟩ := recordOn_fields h
    rw [effectiveOn_concat, hd, hdependency]
    exact ⟨rfl, hdependency ▸ hsystem⟩

/-- The records in system scope are those of the nodes in system scope. -/
theorem dependencies_recordsOn (s : Snapshot) (tree : Node) (paths : List (List Node)) :
    ((s.recordsOn tree paths).filter (·.system)).map (some ·.dependency) =
      (paths.filter fun path => s.Survives tree path ∧
        (s.effectiveOn tree path).any s.policy.isSystemDependency).map (s.effectiveOn tree) := by
  induction paths with
  | nil => rfl
  | cons path rest ih =>
    by_cases hsurvives : s.Survives tree path
    · cases hrecord : s.recordOn tree path with
      | none =>
        have heffective : s.effectiveOn tree path = none := by
          have hmap := Option.map_eq_none_iff.mp hrecord
          rw [effectiveOn, hmap, Option.map_none]
        have hfilter : s.recordsOn tree (path :: rest) = s.recordsOn tree rest := by
          simp [recordsOn, hsurvives, hrecord]
        rw [hfilter, ih, List.filter_cons_of_neg (by simp [heffective])]
      | some r =>
        obtain ⟨heffective, hsystem⟩ := recordOn_eq_some hrecord
        have hfilter : s.recordsOn tree (path :: rest) = r :: s.recordsOn tree rest := by
          simp [recordsOn, hsurvives, hrecord]
        by_cases h : s.policy.isSystemDependency r.dependency
        · rw [hfilter, List.filter_cons_of_pos (by rw [hsystem, h]), List.map_cons, ih,
            List.filter_cons_of_pos (by simp [hsurvives, heffective, h]), List.map_cons, heffective]
        · rw [hfilter, List.filter_cons_of_neg (by rw [hsystem]; exact h), ih,
            List.filter_cons_of_neg (by simp [heffective, h])]
    · have hfilter : s.recordsOn tree (path :: rest) = s.recordsOn tree rest := by
        simp [recordsOn, hsurvives]
      rw [hfilter, ih, List.filter_cons_of_neg (by simp [hsurvives])]

/-- Verifying a collected forest looks at the nodes in system scope, depth-first. -/
theorem value_verifyLocalFiles_collect (s : Snapshot) (tree : Node) (traversal : Traversal)
    (isFile : String → Bool) :
    (verifyLocalFiles s.policy isFile (s.collect tree traversal).value).value =
      firstFault ((s.systemPaths tree).map (s.faultOn tree isFile)) := by
  let forest := (s.collect tree traversal).value
  have hwalk : ((ResolvedNode.walkAll forest).filter (·.system)).map (some ·.dependency) =
      (s.systemPaths tree).map (s.effectiveOn tree) := by
    rw [systemPaths, ← dependencies_recordsOn, ← walkAll_collect s tree traversal, List.filter_map,
      List.map_map]
    rfl
  have hfaults := congrArg
    (List.map fun d : Option Dependency => d.bind fun d => s.policy.fault isFile d.artifact) hwalk
  rw [List.map_map, List.map_map] at hfaults
  rw [verifyLocalFiles, value_verifyEach]
  exact congrArg firstFault hfaults

/-- Where a run from the root leads, the local path of a node in system scope is the one that its root
path determines. -/
theorem localPath_effectiveOn (preset : Preset) (scheme : KeyScheme) (policy : ScopeHandler)
    {tree : Node} {path : List Node} {d : Dependency}
    (hd : ((root preset policy).withScheme scheme).effectiveOn tree path = some d)
    (hsystem : policy.isSystemDependency d) :
    policy.localPath d.artifact =
      ((root preset policy).withScheme scheme).localPathOn tree path := by
  obtain ⟨declared, hdeclared, rfl⟩ := Option.map_eq_some_iff.mp hd
  let s := (root preset policy).withScheme scheme
  let m := s.below tree path.dropLast
  let lists := (tree :: path.dropLast).map Node.managed
  have hpolicy : m.policy = policy := deriveAll_policy s lists
  have hscheme : m.scheme = scheme := deriveAll_scheme s lists
  have happlying : m.isApplying ↔ preset.thresholds.applyFrom ≤ min path.length unboundedDepth := by
    have hlength : lists.length = path.length := by
      rcases List.eq_nil_or_concat' path with rfl | ⟨above, node, rfl⟩
      · cases hdeclared
      · simp [lists]
    have hdepth : m.depth = min lists.length unboundedDepth :=
      depth_deriveAll_root preset scheme policy lists
    have hthresholds : m.thresholds = preset.thresholds := deriveAll_thresholds s lists
    rw [isApplying, decide_eq_true_iff, hthresholds, hdepth, hlength]
  have hmanaged : ∀ k, m.table.localPaths[k]? = (TableEntry.nearest policy
      ((admitted preset.thresholds.deriveUntil lists).filter
        (scheme.key ·.artifact = k))).localPath := fun k =>
    congrArg TableEntry.localPath (entry_deriveAll_root preset scheme policy lists k)
  have hpath := localPath_effective (s := m) (d := declared) (by rw [hpolicy]; exact hsystem)
  rw [hpolicy, hscheme, hmanaged] at hpath
  rw [hpath, localPathOn, hdeclared, Option.bind_some]
  simp only [happlying]
  rfl

/-- So what is wrong with the local path of a node in system scope is determined by its root path. -/
theorem faultOn_iff (preset : Preset) (scheme : KeyScheme) (policy : ScopeHandler) {tree : Node}
    (isFile : String → Bool) {path : List Node} :
    let s := (root preset policy).withScheme scheme
    path ∈ s.systemPaths tree →
      (s.faultOn tree isFile path = none ↔ s.HasFile tree isFile path) ∧
        ∀ problem, s.faultOn tree isFile path = some problem ↔
          s.Blames tree isFile path problem := by
  intro s hmem
  have hsystem : (s.effectiveOn tree path).any policy.isSystemDependency := by
    have hboth := of_decide_eq_true (List.mem_filter.mp hmem).2
    exact hboth.2
  obtain ⟨d, hd, hsystem⟩ := (Option.any_eq_true _ _).mp hsystem
  have hfault : s.faultOn tree isFile path = match s.localPathOn tree path with
      | none => some (.localPathMissing d.artifact.coordinate)
      | some file => if isFile file then none
        else some (.localFileMissing d.artifact.coordinate file) := by
    rw [faultOn, hd, Option.bind_some, ← localPath_effectiveOn preset scheme policy hd hsystem]
    rfl
  rw [hfault]
  constructor
  · rw [HasFile]
    cases s.localPathOn tree path with
    | none => simp
    | some file => by_cases h : isFile file <;> simp [h]
  · intro problem
    simp only [Blames, hd, Option.some.injEq, exists_eq_left']
    cases s.localPathOn tree path with
    | none => simpa using eq_comm
    | some file =>
      by_cases h : isFile file
      · simp [h]
      · simpa [h] using eq_comm

/-- Verification of a collected forest is exact: it succeeds with the number of nodes in system scope
exactly when each of them has a local path that leads to a file, and else it blames the first one,
depth-first, that does not. -/
theorem verifyLocalFiles_collect_exact (preset : Preset) (scheme : KeyScheme)
    (policy : ScopeHandler) (tree : Node) (traversal : Traversal) (isFile : String → Bool) :
    let s := (root preset policy).withScheme scheme
    let verdict := (verifyLocalFiles policy isFile (s.collect tree traversal).value).value
    (∀ n, verdict = .ok n ↔ (s.systemPaths tree).length = n ∧
      ∀ path ∈ s.systemPaths tree, s.HasFile tree isFile path) ∧
    ∀ problem, verdict = .error problem ↔ ∃ before path after,
      s.systemPaths tree = before ++ path :: after ∧ (∀ p ∈ before, s.HasFile tree isFile p) ∧
        s.Blames tree isFile path problem := by
  intro s verdict
  have hverdict : verdict = firstFault ((s.systemPaths tree).map (s.faultOn tree isFile)) :=
    value_verifyLocalFiles_collect s tree traversal isFile
  have hfault : ∀ path ∈ s.systemPaths tree,
      (s.faultOn tree isFile path = none ↔ s.HasFile tree isFile path) ∧
        ∀ problem, s.faultOn tree isFile path = some problem ↔
          s.Blames tree isFile path problem :=
    fun path => faultOn_iff preset scheme policy isFile
  rw [hverdict]
  constructor
  · intro n
    rw [firstFault_map_eq_ok_iff]
    exact and_congr_right fun _ => forall₂_congr fun path hpath => (hfault path hpath).1
  · intro problem
    rw [firstFault_map_eq_error_iff]
    have hsplit : ∀ before path after, s.systemPaths tree = before ++ path :: after →
        ((∀ p ∈ before, s.faultOn tree isFile p = none) ∧
            s.faultOn tree isFile path = some problem ↔
          (∀ p ∈ before, s.HasFile tree isFile p) ∧ s.Blames tree isFile path problem) := by
      intro before path after hpaths
      refine and_congr (forall₂_congr fun p hp => ?_) ?_
      · exact (hfault p (by simp [hpaths, hp])).1
      · exact (hfault path (by simp [hpaths])).2 problem
    constructor
    · rintro ⟨before, path, after, hpaths, hboth⟩
      exact ⟨before, path, after, hpaths, (hsplit before path after hpaths).mp hboth⟩
    · rintro ⟨before, path, after, hpaths, hboth⟩
      exact ⟨before, path, after, hpaths, (hsplit before path after hpaths).mpr hboth⟩

end Snapshot

end NearestWins
