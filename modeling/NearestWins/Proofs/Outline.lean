import Mathlib.Algebra.Order.Ring.Nat
import Mathlib.Data.List.Lex
import NearestWins.Proofs.ApplicationFrame
import NearestWins.Proofs.Counterpart
import NearestWins.Proofs.Walk
import NearestWins.Report

/-!
# The layout of drawn forests

Drawing goes down a forest with an indent that grows by one piece for each level. Below, the line of a node is
told by its place instead: each ancestor below the top level contributes a piece, which says whether that
ancestor has further siblings. `ResolvedNode.outline` lists the nodes of a forest with their places, in the
order of a depth-first walk. Main statement: a drawn forest has the line of each node of its outline, then an
empty line and the summary.
-/

namespace NearestWins.ResolvedNode

/-! ## Places in the order of a walk -/

mutual

/-- The nodes of a tree with their places in a forest, given that of its root. -/
def outlineFrom (place : List Nat) : ResolvedNode → List (List Nat × ResolvedNode)
  | node@⟨_, _, _, _, _, _, children⟩ => (place, node) :: outlineSiblings place 0 children

/-- The nodes of siblings with their places in a forest, given the place of their parent and the number of
the first of them. -/
def outlineSiblings (above : List Nat) (i : Nat) : List ResolvedNode → List (List Nat × ResolvedNode)
  | [] => []
  | node :: rest => outlineFrom (above ++ [i]) node ++ outlineSiblings above (i + 1) rest

end

/-- The nodes of a forest with their places, depth-first. -/
def outline (forest : List ResolvedNode) : List (List Nat × ResolvedNode) :=
  outlineSiblings [] 0 forest

theorem outlineFrom_eq (place : List Nat) (node : ResolvedNode) :
    outlineFrom place node = (place, node) :: outlineSiblings place 0 node.children := by
  cases node
  rw [outlineFrom]

mutual

theorem map_snd_outlineFrom (place : List Nat) :
    ∀ node : ResolvedNode, (outlineFrom place node).map Prod.snd = node.walk
  | ⟨dependency, version, scope, depth, managed, system, children⟩ => by
    rw [outlineFrom, List.map_cons, map_snd_outlineSiblings place 0 children, walk]

theorem map_snd_outlineSiblings (above : List Nat) (i : Nat) :
    ∀ nodes : List ResolvedNode, (outlineSiblings above i nodes).map Prod.snd = walkAll nodes
  | [] => rfl
  | node :: rest => by
    rw [outlineSiblings, List.map_append, map_snd_outlineFrom (above ++ [i]) node,
      map_snd_outlineSiblings above (i + 1) rest, walkAll]

end

mutual

theorem prefix_of_mem_outlineFrom {place p : List Nat} {r : ResolvedNode} :
    ∀ node : ResolvedNode, (p, r) ∈ outlineFrom place node → place <+: p
  | ⟨dependency, version, scope, depth, managed, system, children⟩, h => by
    rw [outlineFrom] at h
    rcases List.mem_cons.mp h with heq | hbelow
    · obtain ⟨rfl, -⟩ := Prod.mk.inj heq
      exact List.prefix_refl _
    · obtain ⟨j, -, hj⟩ := prefix_of_mem_outlineSiblings children hbelow
      exact (List.prefix_append place [j]).trans hj

/-- The places of siblings and of the nodes below them go through the number of one of the siblings. -/
theorem prefix_of_mem_outlineSiblings {above p : List Nat} {i : Nat} {r : ResolvedNode} :
    ∀ nodes : List ResolvedNode, (p, r) ∈ outlineSiblings above i nodes →
      ∃ j, i ≤ j ∧ above ++ [j] <+: p
  | [], h => by
    rw [outlineSiblings] at h
    exact absurd h List.not_mem_nil
  | node :: rest, h => by
    rw [outlineSiblings] at h
    rcases List.mem_append.mp h with hnode | hrest
    · exact ⟨i, Nat.le_refl i, prefix_of_mem_outlineFrom node hnode⟩
    · obtain ⟨j, hij, hj⟩ := prefix_of_mem_outlineSiblings rest hrest
      exact ⟨j, by omega, hj⟩

end

/-- A place comes before those below it and those through a later sibling. -/
theorem lt_of_prefix_of_prefix {above p q : List Nat} {i j : Nat} (hij : i < j)
    (hp : above ++ [i] <+: p) (hq : above ++ [j] <+: q) : p < q := by
  obtain ⟨p, rfl⟩ := hp
  obtain ⟨q, rfl⟩ := hq
  rw [List.append_assoc, List.append_assoc]
  refine List.Lex.append_left _ ?_ above
  exact List.Lex.rel hij

mutual

theorem pairwise_outlineFrom (place : List Nat) : ∀ node : ResolvedNode,
    (outlineFrom place node).Pairwise fun a b => a.1 < b.1
  | ⟨dependency, version, scope, depth, managed, system, children⟩ => by
    rw [outlineFrom, List.pairwise_cons]
    refine ⟨?_, pairwise_outlineSiblings place 0 children⟩
    rintro ⟨p, r⟩ hr
    obtain ⟨j, -, p, rfl⟩ := prefix_of_mem_outlineSiblings children hr
    have hlonger : place ++ [] < place ++ ([j] ++ p) := List.Lex.append_left _ List.Lex.nil place
    rwa [List.append_nil, ← List.append_assoc] at hlonger

theorem pairwise_outlineSiblings (above : List Nat) (i : Nat) : ∀ nodes : List ResolvedNode,
    (outlineSiblings above i nodes).Pairwise fun a b => a.1 < b.1
  | [] => List.Pairwise.nil
  | node :: rest => by
    rw [outlineSiblings, List.pairwise_append]
    refine ⟨pairwise_outlineFrom _ node, pairwise_outlineSiblings above (i + 1) rest, ?_⟩
    rintro ⟨p, r⟩ hnode ⟨q, t⟩ hrest
    obtain ⟨j, hij, hq⟩ := prefix_of_mem_outlineSiblings rest hrest
    exact lt_of_prefix_of_prefix hij (prefix_of_mem_outlineFrom node hnode) hq

end

/-! ## The nodes at the places -/

theorem getElem?_mem_outlineSiblings {above : List Nat} {nodes : List ResolvedNode} {i j : Nat}
    {node : ResolvedNode} (h : nodes[j]? = some node) :
    (above ++ [i + j], node) ∈ outlineSiblings above i nodes := by
  induction nodes generalizing i j with
  | nil => simp at h
  | cons first rest ih =>
    rw [outlineSiblings, List.mem_append]
    cases j with
    | zero =>
      obtain rfl : first = node := by simpa using h
      left
      rw [outlineFrom_eq]
      exact List.mem_cons_self
    | succ j =>
      right
      rw [List.getElem?_cons_succ] at h
      have hrest := ih (i := i + 1) h
      rwa [Nat.add_assoc, Nat.add_comm 1 j] at hrest

mutual

theorem child_mem_outlineFrom {place p : List Nat} {r child : ResolvedNode} {j : Nat}
    (hchild : r.children[j]? = some child) : ∀ node : ResolvedNode,
      (p, r) ∈ outlineFrom place node → (p ++ [j], child) ∈ outlineFrom place node
  | ⟨dependency, version, scope, depth, managed, system, children⟩, h => by
    rw [outlineFrom] at h ⊢
    refine List.mem_cons_of_mem _ ?_
    rcases List.mem_cons.mp h with heq | hbelow
    · obtain ⟨rfl, rfl⟩ := Prod.mk.inj heq
      have hmem : (p ++ [0 + j], child) ∈ outlineSiblings p 0 children :=
        getElem?_mem_outlineSiblings hchild
      rwa [Nat.zero_add] at hmem
    · exact child_mem_outlineSiblings hchild children hbelow

/-- With a node its children are in the outline, at the places below its own. -/
theorem child_mem_outlineSiblings {above p : List Nat} {r child : ResolvedNode} {i j : Nat}
    (hchild : r.children[j]? = some child) : ∀ nodes : List ResolvedNode,
      (p, r) ∈ outlineSiblings above i nodes → (p ++ [j], child) ∈ outlineSiblings above i nodes
  | [], h => by
    rw [outlineSiblings] at h
    exact absurd h List.not_mem_nil
  | node :: rest, h => by
    rw [outlineSiblings, List.mem_append] at h ⊢
    rcases h with hnode | hrest
    · exact Or.inl (child_mem_outlineFrom hchild node hnode)
    · exact Or.inr (child_mem_outlineSiblings hchild rest hrest)

end

variable {forest : List ResolvedNode}

theorem childrenAt_of_nodeAt {place : List Nat} {node : ResolvedNode}
    (h : nodeAt forest place = some node) : childrenAt forest place = node.children := by
  rcases List.eq_nil_or_concat' place with rfl | ⟨above, i, rfl⟩
  · cases h
  · rw [childrenAt_concat, h]
    rfl

/-- The first of the siblings from a number on, and what comes behind it. -/
theorem nodeAt_of_drop {above : List Nat} {i : Nat} {node : ResolvedNode} {rest : List ResolvedNode}
    (h : (childrenAt forest above).drop i = node :: rest) :
    nodeAt forest (above ++ [i]) = some node ∧ (childrenAt forest above).drop (i + 1) = rest := by
  constructor
  · have hfirst : ((childrenAt forest above).drop i)[0]? = some node := by
      rw [h]
      rfl
    rwa [List.getElem?_drop, Nat.add_zero, ← nodeAt_concat] at hfirst
  · have htail := congrArg List.tail h
    rwa [List.tail_drop, List.tail_cons] at htail

mutual

theorem nodeAt_of_mem_outlineFrom {place p : List Nat} {r : ResolvedNode} : ∀ node : ResolvedNode,
    nodeAt forest place = some node → (p, r) ∈ outlineFrom place node → nodeAt forest p = some r
  | ⟨dependency, version, scope, depth, managed, system, children⟩, hnode, h => by
    rw [outlineFrom] at h
    rcases List.mem_cons.mp h with heq | hbelow
    · obtain ⟨rfl, rfl⟩ := Prod.mk.inj heq
      exact hnode
    · refine nodeAt_of_mem_outlineSiblings children (i := 0) ?_ hbelow
      rw [childrenAt_of_nodeAt hnode, List.drop_zero]

/-- What the outline of siblings lists is found at its place, if the siblings are the last ones at theirs. -/
theorem nodeAt_of_mem_outlineSiblings {above p : List Nat} {i : Nat} {r : ResolvedNode} :
    ∀ nodes : List ResolvedNode, (childrenAt forest above).drop i = nodes →
      (p, r) ∈ outlineSiblings above i nodes → nodeAt forest p = some r
  | [], _, h => by
    rw [outlineSiblings] at h
    exact absurd h List.not_mem_nil
  | node :: rest, hnodes, h => by
    obtain ⟨hnode, hrest⟩ := nodeAt_of_drop hnodes
    rw [outlineSiblings] at h
    rcases List.mem_append.mp h with hfirst | hothers
    · exact nodeAt_of_mem_outlineFrom node hnode hfirst
    · exact nodeAt_of_mem_outlineSiblings rest hrest hothers

end

/-- The outline of a forest lists what is found in the forest. -/
theorem mem_outline_iff {place : List Nat} {node : ResolvedNode} :
    (place, node) ∈ outline forest ↔ nodeAt forest place = some node := by
  constructor
  · exact nodeAt_of_mem_outlineSiblings forest rfl
  · intro h
    induction place using List.reverseRecOn generalizing node with
    | nil => cases h
    | append_singleton above i ih =>
      rw [nodeAt_concat] at h
      -- The siblings are at the top of the forest, or their parent is in the outline as well.
      rcases List.eq_nil_or_concat' above with rfl | ⟨higher, j, rfl⟩
      · have htop : ([] ++ [0 + i], node) ∈ outlineSiblings [] 0 forest := getElem?_mem_outlineSiblings h
        rwa [Nat.zero_add] at htop
      · cases hparent : nodeAt forest (higher ++ [j]) with
        | none =>
          rw [childrenAt_concat, hparent] at h
          cases h
        | some parent =>
          rw [childrenAt_of_nodeAt hparent] at h
          exact child_mem_outlineSiblings h forest (ih hparent)

/-! ## Lines by places -/

/-- Whether the node at a place is the last of its siblings. -/
def isLast (forest : List ResolvedNode) (place : List Nat) : Bool :=
  (childrenAt forest place.dropLast).length = place.getLastD 0 + 1

/-- The places below the top level on the way to a place, itself included, from the outside in. -/
def inner (place : List Nat) : List (List Nat) :=
  place.inits.filter (2 ≤ ·.length)

/-- What an ancestor contributes to the lines below it: a bar, unless it is the last of its siblings. -/
def bar (forest : List ResolvedNode) (ancestor : List Nat) : String :=
  if isLast forest ancestor then "    " else "│   "

/-- What all lines of the children of a node begin with: a piece for the node and for each of its ancestors,
those at the top level left out. -/
def bars (forest : List ResolvedNode) (place : List Nat) : String :=
  String.join ((inner place).map (bar forest))

/-- How the node at a place is connected: by a corner, if it is the last of its siblings, and else by a tee. -/
def connector (forest : List ResolvedNode) (place : List Nat) : String :=
  if isLast forest place then "└── " else "├── "

/-- What stands in the line of the node at a place before its description: nothing at the top level, and
further down a piece for each proper ancestor below the top level and a connector. -/
def lead (forest : List ResolvedNode) (place : List Nat) : String :=
  if place.length ≤ 1 then "" else bars forest place.dropLast ++ connector forest place

/-- The line of a node at its place. -/
def line (coloured : Bool) (forest : List ResolvedNode) (entry : List Nat × ResolvedNode) : String :=
  lead forest entry.1 ++ entry.2.describe coloured ++ "\n"

theorem isLast_concat (above : List Nat) (i : Nat) :
    isLast forest (above ++ [i]) = decide ((childrenAt forest above).length = i + 1) := by
  simp [isLast]

theorem lead_top (i : Nat) : lead forest [i] = "" := rfl

theorem bars_top (i : Nat) : bars forest [i] = "" := rfl

theorem lead_concat {above : List Nat} (h : above ≠ []) (i : Nat) :
    lead forest (above ++ [i]) = bars forest above ++ connector forest (above ++ [i]) := by
  have hpositive := List.length_pos_of_ne_nil h
  have hbelow : ¬ (above ++ [i]).length ≤ 1 := by
    rw [List.length_append, List.length_singleton]
    omega
  rw [lead, if_neg hbelow, List.dropLast_concat]

theorem bars_concat {above : List Nat} (h : above ≠ []) (i : Nat) :
    bars forest (above ++ [i]) = bars forest above ++ bar forest (above ++ [i]) := by
  have hpositive := List.length_pos_of_ne_nil h
  have hinits : (above ++ [i]).inits = above.inits ++ [above ++ [i]] := by
    simp [List.inits_append]
  have hbelow : 2 ≤ (above ++ [i]).length := by
    rw [List.length_append, List.length_singleton]
    omega
  have hkept : [above ++ [i]].filter (2 ≤ ·.length) = [above ++ [i]] := by
    refine List.filter_eq_self.mpr fun p hp => ?_
    obtain rfl := List.mem_singleton.mp hp
    exact decide_eq_true hbelow
  have hinner : inner (above ++ [i]) = inner above ++ [above ++ [i]] := by
    rw [inner, hinits, List.filter_append, hkept]
    rfl
  rw [bars, hinner, List.map_append, String.join_append]
  simp [bars]

mutual

theorem renderBelow_eq (coloured : Bool) {place : List Nat} : ∀ node : ResolvedNode,
    nodeAt forest place = some node → renderBelow coloured (bars forest place) node =
      String.join ((outlineSiblings place 0 node.children).map (line coloured forest))
  | ⟨dependency, version, scope, depth, managed, system, children⟩, hnode => by
    have hplace : place ≠ [] := by
      rintro rfl
      cases hnode
    rw [renderBelow]
    refine renderSiblings_eq coloured hplace children ?_
    rw [childrenAt_of_nodeAt hnode, List.drop_zero]

/-- Below the top level, the lines of siblings are those of their outline. -/
theorem renderSiblings_eq (coloured : Bool) {above : List Nat} {i : Nat} (h : above ≠ []) :
    ∀ nodes : List ResolvedNode, (childrenAt forest above).drop i = nodes →
      renderSiblings coloured (bars forest above) nodes =
        String.join ((outlineSiblings above i nodes).map (line coloured forest))
  | [], _ => rfl
  | node :: rest, hnodes => by
    obtain ⟨hnode, hrest⟩ := nodeAt_of_drop hnodes
    have hbelow := renderBelow_eq coloured node hnode
    have hothers := renderSiblings_eq coloured h rest hrest
    have hlast : isLast forest (above ++ [i]) = rest.isEmpty := by
      have hlength := congrArg List.length hnodes
      rw [List.length_drop, List.length_cons] at hlength
      rw [isLast_concat]
      cases rest with
      | nil =>
        rw [List.length_nil] at hlength
        exact decide_eq_true (by omega)
      | cons next others =>
        rw [List.length_cons] at hlength
        exact decide_eq_false (by omega)
    have hline : line coloured forest (above ++ [i], node) =
        bars forest above ++ connector forest (above ++ [i]) ++ node.describe coloured ++ "\n" := by
      rw [line, lead_concat h]
    rw [bars_concat h] at hbelow
    rw [outlineSiblings, outlineFrom_eq, List.cons_append, List.map_cons, List.map_append,
      String.join_cons, String.join_append, ← hbelow, ← hothers, hline, renderSiblings, connector, bar,
      hlast]
    cases rest with
    | nil => simp [String.append_assoc]
    | cons next others => simp [String.append_assoc]

end

/-- At the top level, each tree has the line of its root without a lead. -/
theorem join_trees_eq (coloured : Bool) {i : Nat} : ∀ nodes : List ResolvedNode, forest.drop i = nodes →
    String.join (nodes.map fun node => node.describe coloured ++ "\n" ++ renderBelow coloured "" node) =
      String.join ((outlineSiblings [] i nodes).map (line coloured forest))
  | [], _ => rfl
  | node :: rest, hnodes => by
    have htop : (childrenAt forest []).drop i = node :: rest := hnodes
    obtain ⟨hnode, hrest⟩ := nodeAt_of_drop htop
    have hbelow := renderBelow_eq coloured node hnode
    have hothers := join_trees_eq coloured rest hrest
    rw [List.nil_append, bars_top] at hbelow
    rw [outlineSiblings, outlineFrom_eq, List.cons_append, List.map_cons, List.map_cons, List.map_append,
      String.join_cons, String.join_cons, String.join_append, hothers, hbelow, List.nil_append, line,
      lead_top, String.empty_append]
    simp [String.append_assoc]

/-! ## The summary -/

mutual

theorem length_walk : ∀ node : ResolvedNode, node.walk.length = node.size
  | ⟨dependency, version, scope, depth, managed, system, children⟩ => by
    rw [walk, List.length_cons, length_walkAll children, size, Nat.add_comm]

theorem length_walkAll : ∀ nodes : List ResolvedNode, (walkAll nodes).length = total nodes
  | [] => rfl
  | node :: rest => by
    rw [walkAll, List.length_append, length_walk node, length_walkAll rest, total]

end

theorem total_eq_sum (nodes : List ResolvedNode) : total nodes = (nodes.map size).sum := by
  induction nodes with
  | nil => rfl
  | cons node rest ih => rw [total, List.map_cons, List.sum_cons, ih]

/-- A drawn forest has one line for each node of its outline, and behind an empty line the number of its nodes
and of those that are managed. The outline lists what is found at the places of the forest, each place before
those below it and those through later siblings. -/
theorem renderForest_layout (coloured : Bool) (forest : List ResolvedNode) :
    renderForest coloured forest =
        String.join ((outline forest).map (line coloured forest)) ++ "\n" ++
          s!"{(forest.map size).sum} dependencies, {(walkAll forest).countP (·.managed.Flagged)} managed\n" ∧
      (outline forest).map Prod.snd = walkAll forest ∧
      (∀ place node, (place, node) ∈ outline forest ↔ nodeAt forest place = some node) ∧
      ((outline forest).map Prod.fst).Pairwise (· < ·) := by
  refine ⟨?_, map_snd_outlineSiblings [] 0 forest, fun place node => mem_outline_iff, ?_⟩
  · have htrees := join_trees_eq coloured forest (List.drop_zero (l := forest))
    have hbreak : toString "\n" = "\n" := rfl
    rw [renderForest, htrees, ← outline, length_walkAll, total_eq_sum, ← List.countP_eq_length_filter]
    simp only [← ManagedFields.any_iff, Bool.decide_eq_true]
    simp [String.append_assoc, hbreak]
  · rw [List.pairwise_map]
    exact pairwise_outlineSiblings [] 0 forest

end NearestWins.ResolvedNode
