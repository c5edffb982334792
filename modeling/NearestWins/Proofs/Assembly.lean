import Mathlib.Data.List.Nodup
import Mathlib.Logic.Relation
import NearestWins.Proofs.Expansion

/-!
# Assembling an arena along its links

The links of an arena say which slots hold the children of which slot. `Linked` states that they make
a forest of all slots: each slot is linked from exactly one place, and from an earlier one. In such
an arena the slots at or below two siblings are disjoint, so taking the tree of one sibling out leaves
the slots of the others alone, and assembly finds a node in every slot it comes to.
-/

namespace NearestWins.Frontier

variable {links : Array (List Nat)} {roots : List Nat} {size : Nat}

/-- The links make a forest of the slots below `size`, with the trees of `roots` at the top. -/
structure Linked (links : Array (List Nat)) (roots : List Nat) (size : Nat) : Prop where
  links_size : links.size = size
  /-- Each slot occurs in exactly one place, among the roots or in one list of links. -/
  places : (roots ++ links.toList.flatten).Perm (List.range size)
  parent_lt : ∀ p, ∀ c ∈ links.getD p [], p < c
  roots_ascending : roots.Pairwise (· < ·)
  ascending : ∀ p, (links.getD p []).Pairwise (· < ·)

/-- Slot `j` is slot `i`, or linked from `i` through any number of slots. -/
def Below (links : Array (List Nat)) : Nat → Nat → Prop :=
  Relation.ReflTransGen fun p c => c ∈ links.getD p []

theorem Below.refl (links : Array (List Nat)) (i : Nat) : Below links i i :=
  Relation.ReflTransGen.refl

/-- What is at or below a slot is the slot itself or at or below one of its children. -/
theorem below_iff {i j : Nat} : Below links i j ↔ i = j ∨ ∃ c ∈ links.getD i [], Below links c j :=
  Relation.ReflTransGen.cases_head_iff

theorem getD_mem_toList {p c : Nat} (h : c ∈ links.getD p []) :
    ∃ hp : p < links.size, links.getD p [] = links[p] := by
  by_cases hp : p < links.size
  · exact ⟨hp, by simp [hp]⟩
  · simp [hp] at h

theorem mem_flatten_of_child {p c : Nat} (h : c ∈ links.getD p []) :
    c ∈ links.toList.flatten := by
  obtain ⟨hp, heq⟩ := getD_mem_toList h
  rw [heq] at h
  exact List.mem_flatten.mpr ⟨links[p], by simp, h⟩

namespace Linked

theorem nodup (F : Linked links roots size) : (roots ++ links.toList.flatten).Nodup :=
  F.places.nodup_iff.mpr List.nodup_range

theorem root_lt (F : Linked links roots size) {r : Nat} (h : r ∈ roots) : r < size :=
  List.mem_range.mp (F.places.mem_iff.mp (List.mem_append_left _ h))

theorem child_lt (F : Linked links roots size) {p c : Nat} (h : c ∈ links.getD p []) : c < size :=
  List.mem_range.mp (F.places.mem_iff.mp (List.mem_append_right _ (mem_flatten_of_child h)))

theorem parent_unique (F : Linked links roots size) {p q c : Nat} (hp : c ∈ links.getD p [])
    (hq : c ∈ links.getD q []) : p = q := by
  obtain ⟨hpl, hpe⟩ := getD_mem_toList hp
  obtain ⟨hql, hqe⟩ := getD_mem_toList hq
  rw [hpe] at hp
  rw [hqe] at hq
  have apart := (List.nodup_flatten.mp (List.nodup_append.mp F.nodup).2.1).2
  have hne : ∀ a b (ha : a < links.size) (hb : b < links.size), a < b →
      c ∈ links[a] → c ∉ links[b] := by
    intro a b ha hb hab hca hcb
    have := List.pairwise_iff_getElem.mp apart a b (by simpa) (by simpa) hab
    simp only [Array.getElem_toList] at this
    exact List.disjoint_left.mp this hca hcb
  rcases Nat.lt_trichotomy p q with hlt | heq | hgt
  · exact absurd hq (hne p q hpl hql hlt hp)
  · exact heq
  · exact absurd hp (hne q p hql hpl hgt hq)

theorem root_not_child (F : Linked links roots size) {r p : Nat} (hr : r ∈ roots)
    (h : r ∈ links.getD p []) : False :=
  (List.nodup_append.mp F.nodup).2.2 r hr r (mem_flatten_of_child h) rfl

theorem le_of_below (F : Linked links roots size) {i j : Nat} (h : Below links i j) : i ≤ j := by
  induction h with
  | refl => exact Nat.le_refl i
  | tail _ hc ih => exact Nat.le_trans ih (Nat.le_of_lt (F.parent_lt _ _ hc))

theorem lt_of_below (F : Linked links roots size) {i j : Nat} (hi : i < size)
    (h : Below links i j) : j < size := by
  cases h with
  | refl => exact hi
  | tail _ hc => exact F.child_lt hc

/-- Two slots above the same slot are one above the other. -/
theorem below_or_below (F : Linked links roots size) {a b j : Nat} (ha : Below links a j)
    (hb : Below links b j) : Below links a b ∨ Below links b a := by
  have upwards := Relation.ReflTransGen.total_of_right_unique
    (r := Function.swap fun p c => c ∈ links.getD p [])
    (fun _ _ _ h₁ h₂ => F.parent_unique h₁ h₂)
    (Relation.reflTransGen_swap.mpr ha) (Relation.reflTransGen_swap.mpr hb)
  rcases upwards with h | h
  · exact .inr (Relation.reflTransGen_swap.mp h)
  · exact .inl (Relation.reflTransGen_swap.mp h)

/-- The slots at or below one child of a slot are apart from those at or below another. -/
theorem children_apart (F : Linked links roots size) {p a b j : Nat} (ha : a ∈ links.getD p [])
    (hb : b ∈ links.getD p []) (haj : Below links a j) (hbj : Below links b j) : a = b := by
  have hne : ∀ x y, x ∈ links.getD p [] → y ∈ links.getD p [] → Below links x y → x = y := by
    intro x y hx hy hxy
    rcases Relation.ReflTransGen.cases_tail hxy with heq | ⟨q, hxq, hq⟩
    · exact heq.symm
    · rw [F.parent_unique hq hy] at hxq
      exact absurd (F.le_of_below hxq) (Nat.not_le.mpr (F.parent_lt p x hx))
  rcases F.below_or_below haj hbj with h | h
  · exact hne a b ha hb h
  · exact (hne b a hb ha h).symm

theorem roots_apart (F : Linked links roots size) {a b j : Nat} (ha : a ∈ roots) (hb : b ∈ roots)
    (haj : Below links a j) (hbj : Below links b j) : a = b := by
  have hne : ∀ x y, y ∈ roots → Below links x y → x = y := by
    intro x y hy hxy
    rcases Relation.ReflTransGen.cases_tail hxy with heq | ⟨_, _, hq⟩
    · exact heq.symm
    · exact absurd hq (F.root_not_child hy)
  rcases F.below_or_below haj hbj with h | h
  · exact hne a b hb h
  · exact (hne b a ha h).symm

theorem below_root (F : Linked links roots size) {j : Nat} (hj : j < size) :
    ∃ r ∈ roots, Below links r j := by
  induction j using Nat.strongRecOn with
  | ind j ih =>
    rcases List.mem_append.mp (F.places.mem_iff.mpr (List.mem_range.mpr hj)) with h | h
    · exact ⟨j, h, .refl links j⟩
    · obtain ⟨children, hchildren, hjc⟩ := List.mem_flatten.mp h
      obtain ⟨p, hp, rfl⟩ := List.mem_iff_getElem.mp hchildren
      have hpj : j ∈ links.getD p [] := by
        have hp' : p < links.size := by simpa using hp
        simpa [hp'] using hjc
      have hlt := F.parent_lt p j hpj
      obtain ⟨r, hr, hrp⟩ := ih p hlt (Nat.lt_trans hlt hj)
      exact ⟨r, hr, hrp.tail hpj⟩

end Linked

/-! ## Taking trees out -/

/-- A filled slot gives its node, with the children taken from the slots linked from it. -/
theorem assemble_filled (links : Array (List Nat)) (slots : Array (Option ResolvedNode)) (i : Nat)
    (node : ResolvedNode) (hi : i < slots.size) (h : slots[i] = some node) :
    (assemble links slots i).1 =
        some { node with
          children := (assembleAll links (slots.set i none) (links.getD i [])).1 } ∧
      (assemble links slots i).2.1 =
        (assembleAll links (slots.set i none) (links.getD i [])).2.1 := by
  rw [assemble, dif_pos hi]
  split
  next other hother =>
    obtain rfl : other = node := by simpa [h] using hother.symm
    exact ⟨rfl, rfl⟩
  next hnone => simp [h] at hnone

theorem assembleAll_cons (links : Array (List Nat)) (slots : Array (Option ResolvedNode)) (i : Nat)
    (rest : List Nat) :
    (assembleAll links slots (i :: rest)).1 =
        (assemble links slots i).1.toList ++
          (assembleAll links (assemble links slots i).2.1 rest).1 ∧
      (assembleAll links slots (i :: rest)).2.1 =
        (assembleAll links (assemble links slots i).2.1 rest).2.1 := by
  rw [assembleAll]
  exact ⟨rfl, rfl⟩

/-- `left` is `slots` with the slots at or below those of a list emptied and the others as they
were. -/
def Emptied (links : Array (List Nat)) (indices : List Nat)
    (slots left : Array (Option ResolvedNode)) : Prop :=
  ∀ j, ((∃ i ∈ indices, Below links i j) → left[j]? = some none) ∧
    ((¬ ∃ i ∈ indices, Below links i j) → left[j]? = slots[j]?)

/-- Slot `i` holds the root of a tree, and the slots below it the nodes below the root: each node is
in its slot without its children, whose trees are those of the slots linked from it. -/
def Holds (links : Array (List Nat)) (tree : Nat → ResolvedNode)
    (slots : Array (Option ResolvedNode)) (i : Nat) : Prop :=
  ∀ j, Below links i j → slots[j]? = some (some (tree j).alone) ∧
    (tree j).children = (links.getD j []).map tree

variable {tree : Nat → ResolvedNode} {slots left : Array (Option ResolvedNode)}

theorem Holds.child {i c : Nat} (h : Holds links tree slots i) (hc : c ∈ links.getD i []) :
    Holds links tree slots c :=
  fun j hj => h j (hj.head hc)

theorem Holds.of_emptied {indices : List Nat} {i : Nat} (h : Holds links tree slots i)
    (hleft : Emptied links indices slots left)
    (hapart : ∀ j, Below links i j → ¬ ∃ k ∈ indices, Below links k j) :
    Holds links tree left i :=
  fun j hj => ⟨((hleft j).2 (hapart j hj)).trans (h j hj).1, (h j hj).2⟩

/-! ## Assembly without a skip -/

/-- Assembly takes these nodes out of slots and leaves an arena behind. There is no rule for a slot that
does not exist, has no list of links or is empty: every slot that is come to holds a node, and is empty
afterwards. -/
inductive TakesOut (links : Array (List Nat)) : Array (Option ResolvedNode) → List Nat →
    List ResolvedNode → Array (Option ResolvedNode) → Prop
  | nil (slots : Array (Option ResolvedNode)) : TakesOut links slots [] [] slots
  | cons {slots between left : Array (Option ResolvedNode)} {i : Nat} {node : ResolvedNode}
      {children rest : List Nat} {below others : List ResolvedNode}
      (hslot : slots[i]? = some (some node)) (hlinks : links[i]? = some children)
      (hbelow : TakesOut links (slots.setIfInBounds i none) children below between)
      (hrest : TakesOut links between rest others left) :
      TakesOut links slots (i :: rest) ({ node with children := below } :: others) left

/-- Where assembly goes through without a skip, this is what it computes. -/
theorem TakesOut.assembleAll_eq {indices : List Nat} {nodes : List ResolvedNode}
    (h : TakesOut links slots indices nodes left) :
    (assembleAll links slots indices).1 = nodes ∧ (assembleAll links slots indices).2.1 = left := by
  induction h with
  | nil =>
    rw [assembleAll]
    exact ⟨rfl, rfl⟩
  | @cons slots _ _ i node children rest _ _ hslot hlinks _ _ ihbelow ihrest =>
    obtain ⟨hi, hnode⟩ := Array.getElem?_eq_some_iff.mp hslot
    obtain ⟨htree, hbetween⟩ := assemble_filled links slots i node hi hnode
    obtain ⟨hnodes, hleft⟩ := assembleAll_cons links slots i rest
    have hchildren : links.getD i [] = children := by simp [hlinks]
    have hset : slots.set i none hi = slots.setIfInBounds i none := by simp [Array.setIfInBounds, hi]
    rw [hchildren, hset] at htree hbetween
    rw [hnodes, hleft, hbetween, htree, ihbelow.1, ihbelow.2, ihrest.1, ihrest.2]
    exact ⟨rfl, rfl⟩

theorem TakesOut.append {between : Array (Option ResolvedNode)} {a b : List Nat}
    {first others : List ResolvedNode} (ha : TakesOut links slots a first between)
    (hb : TakesOut links between b others left) :
    TakesOut links slots (a ++ b) (first ++ others) left := by
  induction ha with
  | nil => exact hb
  | cons hslot hlinks hbelow _ _ ihrest => exact .cons hslot hlinks hbelow (ihrest hb)

theorem Emptied.append {between : Array (Option ResolvedNode)} {a b : List Nat}
    (ha : Emptied links a slots between) (hb : Emptied links b between left) :
    Emptied links (a ++ b) slots left := by
  intro j
  by_cases h : ∃ i ∈ b, Below links i j
  · obtain ⟨i, hi, hij⟩ := h
    exact ⟨fun _ => (hb j).1 ⟨i, hi, hij⟩,
      fun hnot => absurd ⟨i, List.mem_append_right a hi, hij⟩ hnot⟩
  · rw [(hb j).2 h]
    refine ⟨?_, fun hnot => (ha j).2 ?_⟩
    · rintro ⟨i, hi, hij⟩
      rcases List.mem_append.mp hi with hi | hi
      · exact (ha j).1 ⟨i, hi, hij⟩
      · exact absurd ⟨i, hi, hij⟩ h
    · rintro ⟨i, hi, hij⟩
      exact hnot ⟨i, List.mem_append_left b hi, hij⟩

/-- Trees in slots that are apart from each other are taken out one after the other, if each of them can
be taken out on its own. -/
theorem takesOut_of_apart (indices : List Nat)
    (hone : ∀ i ∈ indices, ∀ slots, Holds links tree slots i →
      ∃ left, TakesOut links slots [i] [tree i] left ∧ Emptied links [i] slots left)
    (hapart : indices.Pairwise fun a b => ∀ j, Below links a j → ¬ Below links b j)
    (hslots : ∀ i ∈ indices, Holds links tree slots i) :
    ∃ left, TakesOut links slots indices (indices.map tree) left ∧
      Emptied links indices slots left := by
  induction indices generalizing slots with
  | nil => exact ⟨slots, .nil slots, fun j => ⟨by simp, fun _ => rfl⟩⟩
  | cons i rest ih =>
    obtain ⟨hi, hrest⟩ := List.pairwise_cons.mp hapart
    obtain ⟨between, hnode, hempty⟩ :=
      hone i (List.mem_cons_self ..) slots (hslots i (List.mem_cons_self ..))
    have hholds : ∀ k ∈ rest, Holds links tree between k := by
      intro k hk
      refine (hslots k (List.mem_cons_of_mem _ hk)).of_emptied hempty fun j hkj => ?_
      rintro ⟨_, hmem, hij⟩
      obtain rfl := List.mem_singleton.mp hmem
      exact hi k hk j hij hkj
    obtain ⟨left, hothers, hleft⟩ := ih (fun k hk => hone k (List.mem_cons_of_mem _ hk)) hrest hholds
    exact ⟨left, hnode.append hothers, hempty.append hleft⟩

/-- The tree that is in place at a slot can be taken out there, which empties the slots of the tree. -/
theorem takesOut_of_holds (F : Linked links roots size) {i : Nat} (hi : i < size)
    (hslots : Holds links tree slots i) :
    ∃ left, TakesOut links slots [i] [tree i] left ∧ Emptied links [i] slots left := by
  -- children are in later slots, so the distance to the end of the arena goes down
  induction hd : size - i using Nat.strongRecOn generalizing i slots with
  | ind d ih =>
    obtain ⟨hslot, hchildren⟩ := hslots i (.refl links i)
    obtain ⟨hlt, -⟩ := Array.getElem?_eq_some_iff.mp hslot
    have hlinks : links[i]? = some (links.getD i []) := by simp [F.links_size, hi]
    have hne : ∀ c ∈ links.getD i [], ∀ j, Below links c j → i ≠ j := by
      intro c hc j hcj
      have h₁ := F.parent_lt i c hc
      have h₂ := F.le_of_below hcj
      omega
    have hset : ∀ j, i ≠ j → (slots.setIfInBounds i none)[j]? = slots[j]? :=
      fun j hij => Array.getElem?_setIfInBounds_ne hij
    have hbelow : ∀ c ∈ links.getD i [], Holds links tree (slots.setIfInBounds i none) c := by
      intro c hc j hcj
      rw [hset j (hne c hc j hcj)]
      exact hslots.child hc j hcj
    have hapart : (links.getD i []).Pairwise fun a b => ∀ j, Below links a j → ¬ Below links b j :=
      (F.ascending i).imp_of_mem fun ha hb hab j haj hbj =>
        Nat.ne_of_lt hab (F.children_apart ha hb haj hbj)
    obtain ⟨left, hnodes, hempty⟩ := takesOut_of_apart (links.getD i [])
      (fun c hc slots' hc' => ih (size - c)
        (by have := F.parent_lt i c hc; have := F.child_lt hc; omega) (F.child_lt hc) hc' rfl)
      hapart hbelow
    rw [← hchildren] at hnodes
    refine ⟨left, (tree i).alone_with_children ▸ .cons hslot hlinks hnodes (.nil left), fun j => ?_⟩
    simp only [List.mem_singleton, exists_eq_left, below_iff (i := i)]
    by_cases hc : ∃ c ∈ links.getD i [], Below links c j
    · exact ⟨fun _ => (hempty j).1 hc, fun hnot => absurd (Or.inr hc) hnot⟩
    · rw [(hempty j).2 hc]
      refine ⟨?_, fun hnot => hset j fun h => hnot (Or.inl h)⟩
      rintro (rfl | h)
      · simp [hlt]
      · exact absurd h hc

/-- The trees of the roots can be taken out one after the other, and then every slot is empty. -/
theorem takesOut_roots (F : Linked links roots size) (hsize : slots.size = size)
    (hslots : ∀ i ∈ roots, Holds links tree slots i) :
    TakesOut links slots roots (roots.map tree) (Array.replicate size none) := by
  have hapart : roots.Pairwise fun a b => ∀ j, Below links a j → ¬ Below links b j :=
    F.roots_ascending.imp_of_mem fun ha hb hab j haj hbj =>
      Nat.ne_of_lt hab (F.roots_apart ha hb haj hbj)
  obtain ⟨left, hnodes, hempty⟩ := takesOut_of_apart roots
    (fun i hi _ h => takesOut_of_holds F (F.root_lt hi) h) hapart hslots
  have hleft : left = Array.replicate size none := by
    refine Array.ext_getElem? fun j => ?_
    rw [Array.getElem?_replicate]
    split
    next hj => exact (hempty j).1 (F.below_root hj)
    next hj =>
      have hoff : ¬ ∃ i ∈ roots, Below links i j := by
        rintro ⟨i, hi, hij⟩
        exact hj (F.lt_of_below (F.root_lt hi) hij)
      rw [(hempty j).2 hoff, Array.getElem?_eq_none (by omega)]
  exact hleft ▸ hnodes

end NearestWins.Frontier
