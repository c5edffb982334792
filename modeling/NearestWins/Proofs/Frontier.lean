import NearestWins.Proofs.Assembly

/-!
# The rounds of the work queue

What holds between two rounds of breadth-first expansion. `WellFormed` is about the arena: the slots
are filled, their links make a forest, and pending nodes have their parents in the arena. `Promises`
is about the outcome: it names for each slot the tree that the slot will be assembled to, whose
children are those linked so far, followed by those that become of the pending children. Both hold at
the start and are kept by every round, so they hold when the queue has run dry.
-/

namespace NearestWins

/-- What becomes of a pending node, with all that survives below it. -/
def Pending.expanded (p : Pending) : Option ResolvedNode :=
  p.snapshot.expandNode p.excluded p.node

namespace Operations

variable {ε : Type} {f : Frontier}

theorem run_of_nil (ops : Operations ε) (h : f.pending = []) : ops.run f = pure f := by
  rw [run]
  split
  next => rfl
  next hcons => exact absurd (h.symm.trans hcons) (List.cons_ne_nil _ _).symm

theorem run_of_cons (ops : Operations ε) {first : Pending} {rest : List Pending}
    (h : f.pending = first :: rest) : ops.run f = ops.step f first rest >>= ops.run := by
  rw [run]
  split
  next hnil => exact absurd (h.symm.trans hnil) (List.cons_ne_nil _ _)
  next hcons =>
    obtain ⟨rfl, rfl⟩ := List.cons.inj (hcons.symm.trans h)
    rfl

end Operations

namespace Frontier

/-- One round, as far as its value goes: the node is dropped, or placed with its children queued. -/
theorem step_value (f : Frontier) (first : Pending) (rest : List Pending) :
    (f.step first rest).value =
      match (first.snapshot.resolve first.excluded first.node).value with
      | none => { f with pending := rest }
      | some r =>
        { f.place first.parent r.node with
          pending := rest ++ queueChildren (some f.slots.size)
            (first.snapshot.derive first.node.managed).value r.inherited first.node.children } := by
  rw [step, Operations.step, Operations.resolve_reporting, Operations.derive_reporting,
    Traced.value_bind]
  cases (first.snapshot.resolve first.excluded first.node).value with
  | none => rfl
  | some r => rfl

/-- Rounds on end: the pending nodes that they take, first one first, lead from one state to another. -/
inductive Rounds : Frontier → List Pending → Frontier → Prop
  | none (f : Frontier) : Rounds f [] f
  | round {f last : Frontier} {first : Pending} {rest taken : List Pending}
      (hpending : f.pending = first :: rest) (hrest : Rounds (f.step first rest).value taken last) :
      Rounds f (first :: taken) last

/-- What every round keeps is kept by any number of rounds. -/
theorem Rounds.keeps {P : Frontier → Prop} {f last : Frontier} {taken : List Pending}
    (hstep : ∀ f first rest, f.pending = first :: rest → P f → P (f.step first rest).value)
    (h : Rounds f taken last) (hf : P f) : P last := by
  induction h with
  | none => exact hf
  | round hpending _ ih => exact ih (hstep _ _ _ hpending hf)

/-- A run is rounds until the queue is empty. -/
theorem exists_rounds_run (f : Frontier) :
    (∃ taken, Rounds f taken f.run.value) ∧ f.run.value.pending = [] := by
  induction hw : weight f.pending using Nat.strongRecOn generalizing f with
  | ind w ih =>
    cases hpending : f.pending with
    | nil =>
      rw [run, Operations.run_of_nil _ hpending]
      exact ⟨⟨[], .none f⟩, hpending⟩
    | cons first rest =>
      have hlt : weight (f.step first rest).value.pending < w := by
        rw [← hw, hpending]
        exact Operations.reporting.weight_step_lt f first rest
      obtain ⟨⟨taken, hrounds⟩, hempty⟩ := ih _ hlt _ rfl
      rw [run, Operations.run_of_cons _ hpending]
      exact ⟨⟨first :: taken, .round hpending hrounds⟩, hempty⟩

/-! ## The arena -/

/-- The arena between two rounds. -/
structure WellFormed (f : Frontier) : Prop where
  linked : Linked f.links f.topLevel f.slots.size
  filled : ∀ i < f.slots.size, ∃ node, f.slots[i]? = some (some node)
  parent_lt : ∀ p ∈ f.pending, ∀ i, p.parent = some i → i < f.slots.size

@[simp] theorem place_slots (f : Frontier) (parent : Option Nat) (node : ResolvedNode) :
    (f.place parent node).slots = f.slots.push (some node) := by
  cases parent <;> rfl

theorem place_links (f : Frontier) (parent : Option Nat) (node : ResolvedNode)
    (hsize : f.links.size = f.slots.size) (hparent : ∀ p, parent = some p → p < f.slots.size)
    (q : Nat) :
    (f.place parent node).links.getD q [] =
      f.links.getD q [] ++ if parent = some q then [f.slots.size] else [] := by
  have hpush : (f.links.push [])[q]?.getD [] = f.links[q]?.getD [] := by
    rw [Array.getElem?_push]
    split
    next hq => simp [hq]
    next => rfl
  cases parent with
  | none => simpa [place] using hpush
  | some p =>
    have hp : p < f.links.size := hsize ▸ hparent p rfl
    simp only [place, Array.getD_eq_getD_getElem?, Array.getElem?_modify, Option.some.injEq]
    by_cases hpq : p = q
    · subst hpq
      simp [Array.getElem?_push, Nat.ne_of_lt hp, hp]
    · simpa [hpq] using hpush

theorem place_topLevel (f : Frontier) (parent : Option Nat) (node : ResolvedNode) :
    (f.place parent node).topLevel =
      f.topLevel ++ if parent = none then [f.slots.size] else [] := by
  cases parent <;> simp [place]

theorem flatten_modify_perm (lists : List (List Nat)) (i n : Nat) (hi : i < lists.length) :
    (lists.modify i (· ++ [n])).flatten.Perm (n :: lists.flatten) := by
  induction lists generalizing i with
  | nil => exact absurd hi (Nat.not_lt_zero i)
  | cons list rest ih =>
    cases i with
    | zero => simp
    | succ i =>
      have hrest := ih i (Nat.lt_of_succ_lt_succ hi)
      simpa using (hrest.append_left list).trans List.perm_middle

/-- A new slot occurs in one place, and the others stay in theirs. -/
theorem place_places (f : Frontier) (parent : Option Nat) (node : ResolvedNode)
    (hsize : f.links.size = f.slots.size) (hparent : ∀ p, parent = some p → p < f.slots.size) :
    ((f.place parent node).topLevel ++ (f.place parent node).links.toList.flatten).Perm
      (f.slots.size :: (f.topLevel ++ f.links.toList.flatten)) := by
  cases parent with
  | none => simp [place]
  | some p =>
    have hp : p < f.links.toList.length := by simpa [hsize] using hparent p rfl
    have hlinks := flatten_modify_perm (f.links.push []).toList p f.slots.size
      (by simpa using Nat.lt_succ_of_lt hp)
    simp only [place, Array.toList_modify]
    refine (hlinks.append_left f.topLevel).trans ?_
    simp

theorem Linked.place {f : Frontier} (F : Linked f.links f.topLevel f.slots.size)
    (parent : Option Nat) (node : ResolvedNode)
    (hparent : ∀ p, parent = some p → p < f.slots.size) :
    Linked (f.place parent node).links (f.place parent node).topLevel
      (f.place parent node).slots.size := by
  have hlinks := place_links f parent node F.links_size hparent
  refine
    { links_size := ?_
      places := ?_
      parent_lt := ?_
      roots_ascending := ?_
      ascending := ?_ }
  · cases parent <;> simp [Frontier.place, F.links_size]
  · refine (place_places f parent node F.links_size hparent).trans ?_
    rw [place_slots, Array.size_push, List.range_succ]
    exact (F.places.cons _).trans (List.perm_append_singleton _ _).symm
  · intro p c hc
    rw [hlinks p] at hc
    rcases List.mem_append.mp hc with hc | hc
    · exact F.parent_lt p c hc
    · split at hc
      next hp =>
        obtain rfl := List.mem_singleton.mp hc
        exact hparent p hp
      next => exact absurd hc List.not_mem_nil
  · rw [place_topLevel]
    refine List.pairwise_append.mpr ⟨F.roots_ascending, by split <;> simp, fun a ha b hb => ?_⟩
    split at hb
    next =>
      obtain rfl := List.mem_singleton.mp hb
      exact F.root_lt ha
    next => exact absurd hb List.not_mem_nil
  · intro p
    rw [hlinks p]
    refine List.pairwise_append.mpr ⟨F.ascending p, by split <;> simp, fun a ha b hb => ?_⟩
    split at hb
    next =>
      obtain rfl := List.mem_singleton.mp hb
      exact F.child_lt ha
    next => exact absurd hb List.not_mem_nil

theorem wellFormed_start (snapshot : Snapshot) (excluded : ExclusionSet) (children : List Node) :
    WellFormed { pending := queueChildren none snapshot excluded children } where
  linked :=
    { links_size := rfl
      places := .refl _
      parent_lt := by simp
      roots_ascending := .nil
      ascending := by simp }
  filled := by simp
  parent_lt := by
    intro p hp i hi
    obtain ⟨child, _, rfl⟩ := List.mem_map.mp hp
    exact absurd hi (by simp)

/-- Every round keeps the arena well-formed. -/
theorem WellFormed.step {f : Frontier} {first : Pending} {rest : List Pending} (hf : WellFormed f)
    (hpending : f.pending = first :: rest) : WellFormed (f.step first rest).value := by
  have hparent := hf.parent_lt
  rw [hpending] at hparent
  have hrest : ∀ p ∈ rest, ∀ i, p.parent = some i → i < f.slots.size :=
    fun p hp => hparent p (List.mem_cons_of_mem _ hp)
  rw [step_value]
  split
  next => exact ⟨hf.linked, hf.filled, hrest⟩
  next r _ =>
    refine ⟨hf.linked.place first.parent r.node (hparent first (List.mem_cons_self ..)), ?_, ?_⟩
    · intro i hi
      simp only [place_slots, Array.size_push] at hi ⊢
      rw [Array.getElem?_push]
      split
      next => exact ⟨r.node, rfl⟩
      next hne => exact hf.filled i (by omega)
    · intro p hp i hi
      simp only [place_slots, Array.size_push]
      rcases List.mem_append.mp hp with hp | hp
      · exact Nat.lt_succ_of_lt (hrest p hp i hi)
      · obtain ⟨child, _, rfl⟩ := List.mem_map.mp hp
        obtain rfl := Option.some.inj hi
        exact Nat.lt_succ_self _

/-! ## The outcome -/

/-- What becomes of the pending children of a slot, or of those of the root. -/
def awaited (pending : List Pending) (parent : Option Nat) : List ResolvedNode :=
  (pending.filter (·.parent = parent)).filterMap Pending.expanded

/-- The trees that the slots will be assembled to, and the forest of those at the top level. -/
structure Promises (f : Frontier) (forest : List ResolvedNode) (tree : Nat → ResolvedNode) :
    Prop where
  slot : ∀ i < f.slots.size, f.slots[i]? = some (some (tree i).alone)
  /-- The children in a tree are those that are linked and those that are still pending. -/
  children : ∀ i < f.slots.size,
    (tree i).children = (f.links.getD i []).map tree ++ awaited f.pending (some i)
  top : forest = f.topLevel.map tree ++ awaited f.pending none

theorem awaited_cons (first : Pending) (rest : List Pending) (parent : Option Nat) :
    awaited (first :: rest) parent =
      (if first.parent = parent then first.expanded.toList else []) ++ awaited rest parent := by
  by_cases h : first.parent = parent
  · cases he : first.expanded <;> simp [awaited, h, he]
  · simp [awaited, h]

theorem awaited_append (a b : List Pending) (parent : Option Nat) :
    awaited (a ++ b) parent = awaited a parent ++ awaited b parent := by
  simp [awaited]

theorem awaited_queueChildren (origin parent : Option Nat) (snapshot : Snapshot)
    (excluded : ExclusionSet) (nodes : List Node) :
    awaited (queueChildren origin snapshot excluded nodes) parent =
      if origin = parent then nodes.filterMap (snapshot.expandNode excluded) else [] := by
  have hpending : ∀ node, Pending.expanded ⟨origin, node, snapshot, excluded⟩ =
      snapshot.expandNode excluded node := fun _ => rfl
  by_cases h : origin = parent
  · simp [awaited, queueChildren, List.filter_map, Function.comp_def, List.filterMap_map, h,
      ← hpending]
  · simp [awaited, queueChildren, List.filter_map, Function.comp_def, h]

theorem awaited_new_slot {pending : List Pending} {n : Nat}
    (h : ∀ p ∈ pending, ∀ i, p.parent = some i → i < n) : awaited pending (some n) = [] := by
  have hnone : pending.filter (·.parent = some n) = [] :=
    List.filter_eq_nil_iff.mpr fun p hp hn =>
      absurd (h p hp n (by simpa using hn)) (Nat.lt_irrefl n)
  rw [awaited, hnone]
  rfl

/-- Placing the root of a tree turns it from an awaited tree into one with a slot, and its children
into awaited ones. -/
theorem Promises.place {f : Frontier} {forest : List ResolvedNode} {tree : Nat → ResolvedNode}
    {parent : Option Nat} {placed : ResolvedNode} {rest queued : List Pending} (hf : WellFormed f)
    (hparent : ∀ p, parent = some p → p < f.slots.size)
    (hrest : awaited rest (some f.slots.size) = [])
    (hqueued : ∀ origin, awaited queued origin =
      if some f.slots.size = origin then placed.children else [])
    (hslot : ∀ i < f.slots.size, f.slots[i]? = some (some (tree i).alone))
    (hchildren : ∀ i < f.slots.size, (tree i).children = (f.links.getD i []).map tree ++
      ((if parent = some i then [placed] else []) ++ awaited rest (some i)))
    (htop : forest = f.topLevel.map tree ++
      ((if parent = none then [placed] else []) ++ awaited rest none)) :
    ∃ tree, Promises { f.place parent placed.alone with pending := rest ++ queued } forest tree := by
  let tree' i := if i = f.slots.size then placed else tree i
  have hold : ∀ indices : List Nat, (∀ i ∈ indices, i < f.slots.size) →
      indices.map tree' = indices.map tree := by
    intro indices h
    exact List.map_congr_left fun i hi => if_neg (Nat.ne_of_lt (h i hi))
  have hnew : tree' f.slots.size = placed := if_pos rfl
  have hlinks := place_links f parent placed.alone hf.linked.links_size hparent
  refine ⟨tree', ?_, ?_, ?_⟩
  · intro i hi
    simp only [place_slots, Array.size_push] at hi ⊢
    rw [Array.getElem?_push]
    by_cases h : i = f.slots.size
    · simp [h, hnew]
    · simpa [h, tree'] using hslot i (by omega)
  · intro i hi
    simp only [place_slots, Array.size_push] at hi
    simp only [hlinks, awaited_append, hqueued, List.map_append,
      hold _ fun _ hc => hf.linked.child_lt hc]
    by_cases h : i = f.slots.size
    · have hnone : parent ≠ some f.slots.size := fun hp => Nat.lt_irrefl _ (hparent _ hp)
      have hlinks₀ : f.links.getD f.slots.size [] = [] := by simp [hf.linked.links_size]
      subst h
      rw [hnew, hlinks₀, if_neg hnone, hrest]
      simp
    · have htree : tree' i = tree i := if_neg h
      rw [htree, hchildren i (by omega)]
      by_cases hp : parent = some i
      · simp [hp, hnew, Ne.symm h]
      · simp [hp, Ne.symm h]
  · simp only [place_topLevel, awaited_append, hqueued, List.map_append,
      hold _ fun _ hr => hf.linked.root_lt hr]
    rw [htop]
    by_cases hp : parent = none
    · simp [hp, hnew]
    · simp [hp]

/-- Every round keeps the promised forest. -/
theorem Promises.step {f : Frontier} {first : Pending} {rest : List Pending}
    {forest : List ResolvedNode} {tree : Nat → ResolvedNode} (hf : WellFormed f)
    (h : Promises f forest tree) (hpending : f.pending = first :: rest) :
    ∃ tree, Promises (f.step first rest).value forest tree := by
  obtain ⟨hslot, hchildren, htop⟩ := h
  have hparent := hf.parent_lt
  simp only [hpending, awaited_cons] at hparent hchildren htop
  rw [step_value]
  cases hr : (first.snapshot.resolve first.excluded first.node).value with
  | none =>
    have hnone : first.expanded = none := by
      simp [Pending.expanded, Snapshot.expandNode, hr]
    exact ⟨tree, hslot, by simpa [hnone] using hchildren, by simpa [hnone] using htop⟩
  | some r =>
    let placed : ResolvedNode :=
      { r.node with children := (first.snapshot.expand r.inherited first.node).value }
    have hfirst : first.expanded = some placed := by
      simp [Pending.expanded, Snapshot.expandNode, hr, placed]
    have halone : placed.alone = r.node := Snapshot.resolve_alone hr
    simp only [hfirst, Option.toList_some] at hchildren htop
    have hqueued : ∀ origin, awaited (queueChildren (some f.slots.size)
        (first.snapshot.derive first.node.managed).value r.inherited first.node.children) origin =
          if some f.slots.size = origin then placed.children else [] := by
      intro origin
      rw [awaited_queueChildren, ← Snapshot.value_expand]
    have hrest : awaited rest (some f.slots.size) = [] :=
      awaited_new_slot fun p hp => hparent p (List.mem_cons_of_mem _ hp)
    show ∃ tree, Promises { f.place first.parent r.node with pending := _ } forest tree
    rw [← halone]
    exact Promises.place hf (hparent first (List.mem_cons_self ..)) hrest hqueued hslot hchildren htop

/-- What is promised of an empty queue is what assembly takes out of the arena, down to the last node. -/
theorem Promises.takesOut {f : Frontier} {forest : List ResolvedNode} {tree : Nat → ResolvedNode}
    (hf : WellFormed f) (h : Promises f forest tree) (hpending : f.pending = []) :
    TakesOut f.links f.slots f.topLevel forest (Array.replicate f.slots.size none) := by
  have hholds : ∀ i ∈ f.topLevel, Holds f.links tree f.slots i := by
    intro i hi j hij
    have hj := hf.linked.lt_of_below (hf.linked.root_lt hi) hij
    exact ⟨h.slot j hj, by simpa [hpending, awaited] using h.children j hj⟩
  have htop : forest = f.topLevel.map tree := by simpa [hpending, awaited] using h.top
  exact htop ▸ takesOut_roots hf.linked rfl hholds

/-- The state before the first round: the children of the root are pending. -/
def start (s : Snapshot) (tree : Node) : Frontier :=
  { pending := queueChildren none (s.derive tree.managed).value ∅ tree.children }

theorem Rounds.wellFormed {s : Snapshot} {tree : Node} {taken : List Pending} {f : Frontier}
    (h : Rounds (start s tree) taken f) : f.WellFormed :=
  h.keeps (fun _ _ _ hcons hwf => hwf.step hcons) (wellFormed_start _ _ _)

/-- When the queue has run dry, assembly takes the depth-first expansion out of the arena. -/
theorem takesOut_run (s : Snapshot) (tree : Node) :
    let last := (start s tree).run.value
    TakesOut last.links last.slots last.topLevel (s.expand ∅ tree).value
      (Array.replicate last.slots.size none) := by
  have hstart : Promises (start s tree) (s.expand ∅ tree).value fun _ => default :=
    { slot := by simp [start]
      children := by simp [start]
      top := by simp [start, awaited_queueChildren, Snapshot.value_expand] }
  obtain ⟨⟨taken, hrounds⟩, hpending⟩ := exists_rounds_run (start s tree)
  obtain ⟨hwf, _, hpromises⟩ := hrounds.keeps
    (P := fun f => f.WellFormed ∧ ∃ tree', f.Promises (s.expand ∅ tree).value tree')
    (fun f first rest hcons ⟨hwf, _, h⟩ => ⟨hwf.step hcons, h.step hwf hcons⟩)
    ⟨wellFormed_start _ _ _, _, hstart⟩
  exact hpromises.takesOut hwf hpending

end Frontier

/-- Breadth-first expansion computes what depth-first expansion computes. -/
theorem Snapshot.value_expandBreadthFirst (s : Snapshot) (node : Node) :
    (s.expandBreadthFirst node).value = (s.expand ∅ node).value :=
  (Frontier.takesOut_run s node).assembleAll_eq.1

end NearestWins
