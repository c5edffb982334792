import NearestWins.Management.Snapshot
import NearestWins.Proofs.TableEntry

/-!
# Lineages of snapshots

Deriving again and again leads from a snapshot down a path of a tree. `Snapshot.deriveAll` is such a
run. Its depth counts the derivations as far as depths go, its thresholds, scheme and policy never
change, and its table has taken in the declarations that were derived at a depth below the limit:
`admitted` picks them from the lists of the run. From an empty root snapshot on, an entry of the
table is therefore what the admitted declarations for its key come to.
-/

namespace NearestWins

namespace Snapshot

theorem isDeriving_iff {m : Snapshot} : m.isDeriving ↔ m.depth < m.thresholds.deriveUntil := by
  rw [isDeriving, decide_eq_true_iff]

theorem isApplying_iff {m : Snapshot} : m.isApplying ↔ m.thresholds.applyFrom ≤ m.depth := by
  rw [isApplying, decide_eq_true_iff]

/-- A derived snapshot is one level deeper, and takes the declarations in while that is allowed. -/
theorem derive_value (s : Snapshot) (managed : List Dependency) :
    (s.derive managed).value =
      { s with
        depth := deeper s.depth
        table := if s.isDeriving then (s.table.declareAll s.policy s.scheme managed).1
          else s.table } := by
  rw [derive]
  by_cases h : s.isDeriving <;> simp [h]

@[simp] theorem derive_depth (s : Snapshot) (managed : List Dependency) :
    (s.derive managed).value.depth = deeper s.depth := by
  rw [derive_value]

@[simp] theorem derive_thresholds (s : Snapshot) (managed : List Dependency) :
    (s.derive managed).value.thresholds = s.thresholds := by
  rw [derive_value]

@[simp] theorem derive_scheme (s : Snapshot) (managed : List Dependency) :
    (s.derive managed).value.scheme = s.scheme := by
  rw [derive_value]

@[simp] theorem derive_policy (s : Snapshot) (managed : List Dependency) :
    (s.derive managed).value.policy = s.policy := by
  rw [derive_value]

/-- A derivation takes in, under each key, what is declared for it. -/
theorem entry_derive (s : Snapshot) (managed : List Dependency) (k : Key) :
    (s.derive managed).value.table.entry k =
      if s.isDeriving then
        (managed.filter (s.scheme.key ·.artifact = k)).foldl (TableEntry.declare s.policy)
          (s.table.entry k)
      else s.table.entry k := by
  rw [derive_value]
  split
  next => exact OverrideTable.entry_declareAll s.policy s.scheme managed s.table k
  next => rfl

/-! ## Snapshots in step -/

/-- Two snapshots at the same depth of runs with the same thresholds and the same key scheme, whose
entries are related key by key. -/
structure InStep (E : TableEntry → TableEntry → Prop) (m m' : Snapshot) : Prop where
  depth : m'.depth = m.depth
  thresholds : m'.thresholds = m.thresholds
  scheme : m'.scheme = m.scheme
  entries : ∀ k, E (m.table.entry k) (m'.table.entry k)

namespace InStep

variable {E : TableEntry → TableEntry → Prop} {m m' : Snapshot}

theorem isDeriving (h : InStep E m m') : m'.isDeriving = m.isDeriving := by
  rw [Snapshot.isDeriving, Snapshot.isDeriving, h.depth, h.thresholds]

theorem isApplying (h : InStep E m m') : m'.isApplying = m.isApplying := by
  rw [Snapshot.isApplying, Snapshot.isApplying, h.depth, h.thresholds]

/-- Snapshots stay in step where related declarations have the same keys and keep entries related. -/
theorem derive {R : Dependency → Dependency → Prop} (h : InStep E m m')
    (hkey : ∀ d d', R d d' → m.scheme.key d.artifact = m.scheme.key d'.artifact)
    (hdeclare : ∀ e e', E e e' → ∀ d d', R d d' → E (e.declare m.policy d) (e'.declare m'.policy d'))
    {l l' : List Dependency} (hl : List.Forall₂ R l l') :
    InStep E (m.derive l).value (m'.derive l').value := by
  constructor
  · rw [derive_depth, derive_depth, h.depth]
  · rw [derive_thresholds, derive_thresholds, h.thresholds]
  · rw [derive_scheme, derive_scheme, h.scheme]
  · intro k
    simp only [derive_value, h.isDeriving, h.scheme]
    split
    next => exact OverrideTable.rel_entry_declareAll hkey hdeclare hl (h.entries k)
    next => exact h.entries k

end InStep

/-! ## Runs of derivations -/

/-- The snapshot after deriving with one list of declarations after the other. -/
def deriveAll (s : Snapshot) (lists : List (List Dependency)) : Snapshot :=
  lists.foldl (fun s managed => (s.derive managed).value) s

@[simp] theorem deriveAll_nil (s : Snapshot) : s.deriveAll [] = s := rfl

@[simp] theorem deriveAll_cons (s : Snapshot) (managed : List Dependency)
    (lists : List (List Dependency)) :
    s.deriveAll (managed :: lists) = (s.derive managed).value.deriveAll lists := rfl

theorem deriveAll_append (s : Snapshot) (a b : List (List Dependency)) :
    s.deriveAll (a ++ b) = (s.deriveAll a).deriveAll b :=
  List.foldl_append

theorem deriveAll_keeps (s : Snapshot) (lists : List (List Dependency)) :
    (s.deriveAll lists).thresholds = s.thresholds ∧ (s.deriveAll lists).scheme = s.scheme ∧
      (s.deriveAll lists).policy = s.policy := by
  induction lists generalizing s with
  | nil => exact ⟨rfl, rfl, rfl⟩
  | cons managed lists ih => simpa using ih (s.derive managed).value

@[simp] theorem deriveAll_thresholds (s : Snapshot) (lists : List (List Dependency)) :
    (s.deriveAll lists).thresholds = s.thresholds :=
  (s.deriveAll_keeps lists).1

@[simp] theorem deriveAll_scheme (s : Snapshot) (lists : List (List Dependency)) :
    (s.deriveAll lists).scheme = s.scheme :=
  (s.deriveAll_keeps lists).2.1

@[simp] theorem deriveAll_policy (s : Snapshot) (lists : List (List Dependency)) :
    (s.deriveAll lists).policy = s.policy :=
  (s.deriveAll_keeps lists).2.2

/-- A run that derives at all gets as many levels deeper as it derives, as far as depths go. -/
theorem depth_deriveAll (s : Snapshot) {lists : List (List Dependency)} (h : lists ≠ []) :
    (s.deriveAll lists).depth = min (s.depth + lists.length) unboundedDepth := by
  induction lists generalizing s with
  | nil => exact absurd rfl h
  | cons managed lists ih =>
    have hdepth : (s.derive managed).value.depth = min (s.depth + 1) unboundedDepth := by
      rw [derive_depth, deeper]
    rw [deriveAll_cons]
    by_cases hnil : lists = []
    · subst hnil
      simpa using hdepth
    · rw [ih _ hnil, hdepth, List.length_cons]
      omega

/-! ## Lineages that change their key scheme -/

/-- A step of a lineage: a derivation, or a change of the key scheme. -/
inductive Step
  | derive (managed : List Dependency)
  | rekey (scheme : KeyScheme)

/-- The snapshot after one step. -/
def take (s : Snapshot) : Step → Snapshot
  | .derive managed => (s.derive managed).value
  | .rekey scheme => s.withScheme scheme

/-- The snapshot after one step after the other. -/
def follow (s : Snapshot) (steps : List Step) : Snapshot :=
  steps.foldl take s

@[simp] theorem follow_cons (s : Snapshot) (step : Step) (steps : List Step) :
    s.follow (step :: steps) = (s.take step).follow steps := rfl

/-! ## Runs from an empty root -/

/-- The declarations of a run from the root that are taken in: those of the lists that are derived
at a depth below the limit, in order. The depth of a list is its number in the run, as far as depths
go. -/
def admitted (deriveUntil : Nat) (lists : List (List Dependency)) : List Dependency :=
  (lists.zipIdx.filter fun (_, i) => min i unboundedDepth < deriveUntil).flatMap Prod.fst

theorem admitted_append (deriveUntil : Nat) (lists : List (List Dependency))
    (managed : List Dependency) :
    admitted deriveUntil (lists ++ [managed]) =
      admitted deriveUntil lists ++
        if min lists.length unboundedDepth < deriveUntil then managed else [] := by
  have hlast : [managed].zipIdx (0 + lists.length) = [(managed, lists.length)] := by
    rw [Nat.zero_add, List.zipIdx_singleton]
  rw [admitted, admitted, List.zipIdx_append, List.filter_append, List.flatMap_append, hlast]
  split
  next h => simp only [List.filter_cons, h, decide_true, if_true, List.filter_nil,
      List.flatMap_singleton]
  next h => simp only [List.filter_cons, h, decide_false, Bool.false_eq_true, if_false,
      List.filter_nil, List.flatMap_nil]

end Snapshot

namespace OverrideTable

theorem declareAll_cons (policy : ScopeHandler) (scheme : KeyScheme) (d : Dependency)
    (rest : List Dependency) (t : OverrideTable) :
    (t.declareAll policy scheme (d :: rest)).1 =
      ((t.declare policy (scheme.key d.artifact) d).1.declareAll policy scheme rest).1 := rfl

theorem declareAll_append (policy : ScopeHandler) (scheme : KeyScheme) (a b : List Dependency)
    (t : OverrideTable) :
    (t.declareAll policy scheme (a ++ b)).1 =
      ((t.declareAll policy scheme a).1.declareAll policy scheme b).1 := by
  induction a generalizing t with
  | nil => rfl
  | cons d rest ih => exact ih _

end OverrideTable

namespace Snapshot

variable (preset : Preset) (scheme : KeyScheme) (policy : ScopeHandler)

theorem depth_deriveAll_root (lists : List (List Dependency)) :
    (((root preset policy).withScheme scheme).deriveAll lists).depth =
      min lists.length unboundedDepth := by
  by_cases h : lists = []
  · subst h
    rfl
  · rw [depth_deriveAll _ h]
    simp [root, withScheme]

/-- A run from the root has taken in exactly the admitted declarations. -/
theorem table_deriveAll_root (lists : List (List Dependency)) :
    (((root preset policy).withScheme scheme).deriveAll lists).table =
      (OverrideTable.declareAll policy scheme
        (admitted preset.thresholds.deriveUntil lists) {}).1 := by
  induction lists using List.reverseRecOn with
  | nil => rfl
  | append_singleton lists managed ih =>
    have hdepth := depth_deriveAll_root preset scheme policy lists
    have hderiving : (((root preset policy).withScheme scheme).deriveAll lists).isDeriving ↔
        min lists.length unboundedDepth < preset.thresholds.deriveUntil := by
      rw [isDeriving, decide_eq_true_iff, hdepth, deriveAll_thresholds]
      rfl
    rw [deriveAll_append, deriveAll_cons, deriveAll_nil, derive_value, admitted_append,
      OverrideTable.declareAll_append, ← ih, deriveAll_policy, deriveAll_scheme]
    by_cases h : min lists.length unboundedDepth < preset.thresholds.deriveUntil
    · rw [if_pos (hderiving.mpr h), if_pos h]
      rfl
    · rw [if_neg (mt hderiving.mp h), if_neg h]
      rfl

/-- So an entry is what the admitted declarations for its key come to. -/
theorem entry_deriveAll_root (lists : List (List Dependency)) (k : Key) :
    (((root preset policy).withScheme scheme).deriveAll lists).table.entry k =
      TableEntry.nearest policy ((admitted preset.thresholds.deriveUntil lists).filter
        (scheme.key ·.artifact = k)) := by
  rw [table_deriveAll_root, OverrideTable.entry_declareAll, OverrideTable.entry_empty,
    TableEntry.foldl_declare]

end Snapshot

end NearestWins
