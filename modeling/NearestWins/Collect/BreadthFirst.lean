import NearestWins.Collect.Resolve

/-!
# Breadth-first expansion

The tree is expanded level by level from a work queue. Every node that survives gets a slot in an
arena and is linked from the slot of its parent; once the queue is empty the slots are assembled
into trees along the links. The queue runs dry because each round trades a pending node for its
children; assembly ends because each node it takes empties a slot for good.
-/

namespace NearestWins

/-- A node that waits to be resolved. -/
structure Pending where
  /-- The slot of its parent, `none` below the root. -/
  parent : Option Nat
  /-- The node. -/
  node : Node
  /-- The snapshot of its siblings. -/
  snapshot : Snapshot
  /-- The exclusions of its ancestors. -/
  excluded : ExclusionSet

/-- The state between two rounds. -/
structure Frontier where
  /-- The nodes that wait, in the order in which they were found. -/
  pending : List Pending := []
  /-- The resolved nodes, each in a slot of its own. -/
  slots : Array (Option ResolvedNode) := #[]
  /-- For each slot the slots of its children. -/
  links : Array (List Nat) := #[]
  /-- The slots of the children of the root. -/
  topLevel : List Nat := []

namespace Frontier

/-- The pending nodes that the children of a node become. -/
def queueChildren (parent : Option Nat) (snapshot : Snapshot) (excluded : ExclusionSet)
    (children : List Node) : List Pending :=
  children.map fun child => ⟨parent, child, snapshot, excluded⟩

/-- Puts a resolved node into a new slot and links it from its parent. -/
def place (f : Frontier) (parent : Option Nat) (node : ResolvedNode) : Frontier :=
  let index := f.slots.size
  let links := f.links.push []
  let placed := { f with slots := f.slots.push (some node), links := links }
  match parent with
  | some parent => { placed with links := links.modify parent (· ++ [index]) }
  | none => { placed with topLevel := f.topLevel ++ [index] }

/-- The number of nodes at or below pending ones. -/
def weight (pending : List Pending) : Nat :=
  Node.total (pending.map Pending.node)

theorem total_append (a b : List Node) : Node.total (a ++ b) = Node.total a + Node.total b := by
  induction a with
  | nil => simp [Node.total]
  | cons node rest ih => simp [Node.total, ih]; omega

theorem weight_append (a b : List Pending) : weight (a ++ b) = weight a + weight b := by
  simp [weight, total_append]

theorem weight_queueChildren (parent : Option Nat) (s : Snapshot) (excluded : ExclusionSet)
    (children : List Node) :
    weight (queueChildren parent s excluded children) = Node.total children := by
  simp [weight, queueChildren, List.map_map, Function.comp_def]

end Frontier

namespace Operations

variable {ε : Type}

/-- One round: the first pending node is resolved and, if it survives, its children wait in turn. -/
def step (ops : Operations ε) (f : Frontier) (first : Pending) (rest : List Pending) :
    Traced ε Frontier := do
  match ← ops.resolve first.snapshot first.excluded first.node with
  | none => pure { f with pending := rest }
  | some ⟨resolved, inherited⟩ =>
    let childSnapshot ← ops.derive first.snapshot first.node.managed
    let children :=
      Frontier.queueChildren (some f.slots.size) childSnapshot inherited first.node.children
    pure { f.place first.parent resolved with pending := rest ++ children }

/-- A round leaves the rest of the queue, or the rest and the children of the node it resolved. -/
theorem weight_step_lt (ops : Operations ε) (f : Frontier) (first : Pending) (rest : List Pending) :
    Frontier.weight (ops.step f first rest).value.pending < Frontier.weight (first :: rest) := by
  have hfirst : Frontier.weight (first :: rest) =
      1 + Node.total first.node.children + Frontier.weight rest := by
    obtain ⟨_, ⟨_, _, _⟩, _, _⟩ := first
    simp [Frontier.weight, Node.total, Node.descendants]
  rw [hfirst, step, Traced.value_bind]
  cases (ops.resolve first.snapshot first.excluded first.node).value with
  | none =>
    simp only [Traced.value_pure]
    omega
  | some r =>
    simp only [Traced.value_bind, Traced.value_pure, Frontier.weight_append,
      Frontier.weight_queueChildren]
    omega

/-- Rounds until nothing is pending. -/
def run (ops : Operations ε) (f : Frontier) : Traced ε Frontier :=
  match h : f.pending with
  | [] => pure f
  | first :: rest =>
    let next := ops.step f first rest
    have : Frontier.weight next.value.pending < Frontier.weight f.pending :=
      h ▸ ops.weight_step_lt f first rest
    let last := ops.run next.value
    { value := last.value, log := next.log ++ last.log }
termination_by Frontier.weight f.pending

end Operations

namespace Frontier

/-- One round with its events. -/
def step (f : Frontier) (first : Pending) (rest : List Pending) : Logged Frontier :=
  Operations.reporting.step f first rest

/-- Rounds until nothing is pending, with their events. -/
def run (f : Frontier) : Logged Frontier := Operations.reporting.run f

/-- The number of slots that still hold a node. -/
def filled (slots : Array (Option ResolvedNode)) : Nat :=
  slots.countP Option.isSome

theorem filled_set_none_lt (slots : Array (Option ResolvedNode)) (i : Nat) (node : ResolvedNode)
    (hi : i < slots.size) (h : slots[i] = some node) :
    filled (slots.set i none) < filled slots := by
  have hpos : 0 < filled slots := by
    rw [filled, Array.countP_pos_iff]
    exact ⟨slots[i], Array.getElem_mem hi, by simp [h]⟩
  have : filled (slots.set i none) = filled slots - 1 := by
    simp [filled, Array.countP_set, h]
  omega

mutual

/-- Takes the node out of a slot, with the nodes linked from it below. -/
def assemble (links : Array (List Nat)) (slots : Array (Option ResolvedNode)) (index : Nat) :
    Option ResolvedNode × { left : Array (Option ResolvedNode) // filled left ≤ filled slots } :=
  if hi : index < slots.size then
    match h : slots[index] with
    | some node =>
      have := filled_set_none_lt slots index node hi h
      let (children, ⟨left, hleft⟩) :=
        assembleAll links (slots.set index none) (links.getD index [])
      (some { node with children := children }, ⟨left, by omega⟩)
    | none => (none, ⟨slots, Nat.le_refl _⟩)
  else (none, ⟨slots, Nat.le_refl _⟩)
termination_by (filled slots, 0)

/-- Takes the nodes out of several slots, one after the other. -/
def assembleAll (links : Array (List Nat)) (slots : Array (Option ResolvedNode))
    (indices : List Nat) :
    List ResolvedNode × { left : Array (Option ResolvedNode) // filled left ≤ filled slots } :=
  match indices with
  | [] => ([], ⟨slots, Nat.le_refl _⟩)
  | index :: rest =>
    let (node, ⟨left, hleft⟩) := assemble links slots index
    let (nodes, ⟨last, hlast⟩) := assembleAll links left rest
    (node.toList ++ nodes, ⟨last, by omega⟩)
termination_by (filled slots, indices.length + 1)
decreasing_by
  · exact .right _ (Nat.succ_pos _)
  · rcases Nat.lt_or_eq_of_le hleft with h | h
    · exact .left _ _ h
    · rw [h]
      exact .right _ (by simp)

end

end Frontier

/-- The resolved children of a node, found level by level. -/
def Operations.expandBreadthFirst {ε : Type} (ops : Operations ε) (s : Snapshot) (node : Node) :
    Traced ε (List ResolvedNode) := do
  let childSnapshot ← ops.derive s node.managed
  let start : Frontier :=
    { pending := Frontier.queueChildren none childSnapshot ∅ node.children }
  let last ← ops.run start
  pure (Frontier.assembleAll last.links last.slots last.topLevel).1

/-- The resolved children of a node, found level by level, with the events of finding them. -/
def Snapshot.expandBreadthFirst (s : Snapshot) (node : Node) : Logged (List ResolvedNode) :=
  Operations.reporting.expandBreadthFirst s node

end NearestWins
