import Mathlib.Data.List.Forall2
import NearestWins.Proofs.Counterpart

/-!
# Aligned runs

Two runs over trees of the same shape may prune differently, so their forests do not match, but their
counterparts can be compared place by place. Let `S` relate snapshots of the two runs and `R` what is
declared in the two trees. `Aligned S R` asks for single steps only: derivation keeps `S`, and from
related snapshots the second run gets at least the exclusions of the first. Main statement: then every
node that survives the second run survives the first, and the records of a node that survives both are
those of related dependencies under related snapshots.
-/

namespace NearestWins

/-! ## Trees of the same shape -/

/-- Two trees of the same shape that agree on which nodes carry a dependency, with related dependencies
and related declarations at the same places. -/
inductive Node.Matched (R : Dependency → Dependency → Prop) : Node → Node → Prop
  | node {a b : Node} : Option.Rel R a.dependency b.dependency → List.Forall₂ R a.managed b.managed →
      List.Forall₂ (Matched R) a.children b.children → Matched R a b

namespace Node.Matched

variable {R : Dependency → Dependency → Prop} {a b : Node}

theorem managed (h : Matched R a b) : List.Forall₂ R a.managed b.managed := by
  cases h
  assumption

theorem children (h : Matched R a b) : List.Forall₂ (Matched R) a.children b.children := by
  cases h
  assumption

theorem exists_dependency {d : Dependency} (h : Matched R a b) (hd : b.dependency = some d) :
    ∃ c, a.dependency = some c ∧ R c d := by
  obtain ⟨hdependency, -, -⟩ := h
  rw [hd] at hdependency
  cases hc : a.dependency with
  | none =>
    rw [hc] at hdependency
    cases hdependency
  | some c =>
    rw [hc] at hdependency
    cases hdependency with
    | some hR => exact ⟨c, rfl, hR⟩

end Node.Matched

mutual

theorem Node.matched_self : ∀ node : Node, Node.Matched Eq node node
  | ⟨dependency, managed, children⟩ => by
    have hchildren := Node.forall₂_matched_self children
    refine .node ?_ ((List.forall₂_eq_eq_eq (α := Dependency)).symm ▸ rfl) hchildren
    cases dependency with
    | none => exact .none
    | some d => exact .some rfl

theorem Node.forall₂_matched_self : ∀ nodes : List Node, List.Forall₂ (Node.Matched Eq) nodes nodes
  | [] => .nil
  | node :: rest => .cons (Node.matched_self node) (Node.forall₂_matched_self rest)

end

mutual

theorem Node.Matched.symm {R : Dependency → Dependency → Prop} (hR : ∀ c d, R c d → R d c) :
    ∀ {a b : Node}, Node.Matched R a b → Node.Matched R b a
  | ⟨_, managed, children⟩, ⟨_, _, _⟩, ⟨hdependency, hmanaged, hchildren⟩ => by
    have hmanaged' : List.Forall₂ (flip R) managed _ := hmanaged.imp fun _ _ h => hR _ _ h
    refine .node ?_ hmanaged'.flip (Node.forall₂_matched_symm hR hchildren)
    cases hdependency with
    | some h => exact .some (hR _ _ h)
    | none => exact .none

theorem Node.forall₂_matched_symm {R : Dependency → Dependency → Prop}
    (hR : ∀ c d, R c d → R d c) : ∀ {l l' : List Node},
    List.Forall₂ (Node.Matched R) l l' → List.Forall₂ (Node.Matched R) l' l
  | [], [], .nil => .nil
  | _ :: _, _ :: _, .cons hfirst hrest =>
    .cons (Node.Matched.symm hR hfirst) (Node.forall₂_matched_symm hR hrest)

end

theorem exists_getElem?_of_forall₂ {α β : Type} {R : α → β → Prop} {l₁ : List α} {l₂ : List β} {i : Nat}
    {b : β} (h : List.Forall₂ R l₁ l₂) (hb : l₂[i]? = some b) : ∃ a, l₁[i]? = some a ∧ R a b := by
  obtain ⟨hi, rfl⟩ := List.getElem?_eq_some_iff.mp hb
  have hi' : i < l₁.length := by
    rw [h.length_eq]
    exact hi
  exact ⟨l₁[i], List.getElem?_eq_getElem hi', h.get hi' hi⟩

namespace Snapshot

/-! ## Runs of related snapshots -/

/-- Single steps of two runs keep their snapshots related, and the second run excludes more. -/
structure Aligned (S : Snapshot → Snapshot → Prop) (R : Dependency → Dependency → Prop) : Prop where
  derive : ∀ {m₁ m₂ l₁ l₂}, S m₁ m₂ → List.Forall₂ R l₁ l₂ →
    S (m₁.derive l₁).value (m₂.derive l₂).value
  excludes : ∀ {d₁ d₂}, R d₁ d₂ → ∀ x : Exclusion, x.excludes d₁.artifact = x.excludes d₂.artifact
  exclusions : ∀ {m₁ m₂ d₁ d₂}, S m₁ m₂ → R d₁ d₂ →
    ∀ x ∈ (m₁.effective d₁).exclusions, x ∈ (m₂.effective d₂).exclusions

variable {S : Snapshot → Snapshot → Prop} {R : Dependency → Dependency → Prop}
  {s₁ s₂ : Snapshot} {tree₁ tree₂ : Node}

/-- What aligned runs keep on the paths to the same place. -/
structure AlignedPaths (S : Snapshot → Snapshot → Prop) (R : Dependency → Dependency → Prop)
    (s₁ s₂ : Snapshot) (tree₁ tree₂ : Node) (path₁ path₂ : List Node) : Prop where
  below : S (s₁.below tree₁ path₁) (s₂.below tree₂ path₂)
  children : List.Forall₂ (Node.Matched R) (tree₁.childrenAfter path₁) (tree₂.childrenAfter path₂)
  survives : s₂.Survives tree₂ path₂ → s₁.Survives tree₁ path₁
  inherited : s₂.Survives tree₂ path₂ → ∀ x ∈ s₁.inherited tree₁ path₁, x ∈ s₂.inherited tree₂ path₂

theorem AlignedPaths.nil (A : Aligned S R) (hS : S s₁ s₂) (hR : Node.Matched R tree₁ tree₂) :
    AlignedPaths S R s₁ s₂ tree₁ tree₂ [] [] where
  below := A.derive hS hR.managed
  children := hR.children
  survives _ := survives_nil s₁ tree₁
  inherited _ x hx := by
    obtain ⟨higher, hhigher, e, he, -⟩ := mem_inherited.mp hx
    obtain rfl := List.prefix_nil.mp hhigher
    cases he

theorem AlignedPaths.concat {above₁ above₂ : List Node} {node₁ node₂ : Node} (A : Aligned S R)
    (h : AlignedPaths S R s₁ s₂ tree₁ tree₂ above₁ above₂) (hR : Node.Matched R node₁ node₂) :
    AlignedPaths S R s₁ s₂ tree₁ tree₂ (above₁ ++ [node₁]) (above₂ ++ [node₂]) := by
  -- If the node survives the second run, no exclusion of the first one meets it either.
  have hboth : s₂.Survives tree₂ (above₂ ++ [node₂]) →
      s₁.Survives tree₁ (above₁ ++ [node₁]) ∧
        ∀ x ∈ s₁.inherited tree₁ (above₁ ++ [node₁]), x ∈ s₂.inherited tree₂ (above₂ ++ [node₂]) := by
    intro hsurvives
    obtain ⟨habove, d₂, hd₂, hkept⟩ := survives_concat.mp hsurvives
    obtain ⟨d₁, hd₁, hd⟩ := hR.exists_dependency hd₂
    have hinherited := h.inherited habove
    refine ⟨survives_concat.mpr ⟨h.survives habove, d₁, hd₁, fun x hx => ?_⟩, fun x hx => ?_⟩
    · rw [A.excludes hd]
      exact hkept x (hinherited x hx)
    · rw [inherited_concat hd₁, Std.ExtTreeSet.mem_union_iff] at hx
      rw [inherited_concat hd₂, Std.ExtTreeSet.mem_union_iff]
      exact hx.imp (hinherited x) (A.exclusions h.below hd x)
  constructor
  · rw [below_concat, below_concat]
    exact A.derive h.below hR.managed
  · rw [Node.childrenAfter_concat, Node.childrenAfter_concat]
    exact hR.children
  · exact fun hsurvives => (hboth hsurvives).1
  · exact fun hsurvives => (hboth hsurvives).2

theorem exists_alignedPaths (A : Aligned S R) (hS : S s₁ s₂) (hR : Node.Matched R tree₁ tree₂)
    {place : List Nat} {path₂ : List Node} (h : tree₂.along place = some path₂) :
    ∃ path₁, tree₁.along place = some path₁ ∧ AlignedPaths S R s₁ s₂ tree₁ tree₂ path₁ path₂ := by
  induction place using List.reverseRecOn generalizing path₂ with
  | nil =>
    obtain rfl : path₂ = [] := by simpa [Node.along, eq_comm] using h
    exact ⟨[], rfl, .nil A hS hR⟩
  | append_singleton place i ih =>
    obtain ⟨above₂, node₂, habove₂, hnode₂, rfl⟩ := Node.along_concat.mp h
    obtain ⟨above₁, habove₁, haligned⟩ := ih habove₂
    obtain ⟨node₁, hnode₁, hmatched⟩ := exists_getElem?_of_forall₂ haligned.children hnode₂
    exact ⟨above₁ ++ [node₁], Node.along_concat.mpr ⟨above₁, node₁, habove₁, hnode₁, rfl⟩,
      haligned.concat A hmatched⟩

/-- Aligned runs, place by place: what survives the second run survives the first, and where both have
a counterpart, it is that of related dependencies under related snapshots. -/
theorem counterpart_aligned (A : Aligned S R) (hS : S s₁ s₂) (hR : Node.Matched R tree₁ tree₂)
    (traversal₁ traversal₂ : Traversal) (place : List Nat) :
    ((s₂.counterpart tree₂ traversal₂ place).isSome →
        (s₁.counterpart tree₁ traversal₁ place).isSome) ∧
      ∀ r₁ r₂, s₁.counterpart tree₁ traversal₁ place = some r₁ →
        s₂.counterpart tree₂ traversal₂ place = some r₂ →
        ∃ m₁ m₂ d₁ d₂, S m₁ m₂ ∧ R d₁ d₂ ∧ r₁.alone = m₁.resolved d₁ (m₁.manage d₁).value ∧
          r₂.alone = m₂.resolved d₂ (m₂.manage d₂).value := by
  rcases List.eq_nil_or_concat' place with rfl | ⟨place, i, rfl⟩
  · simp [counterpart_nil]
  · have hsecond : (s₂.counterpart tree₂ traversal₂ (place ++ [i])).isSome →
        ∃ above₁ above₂ node₁ node₂, tree₁.along place = some above₁ ∧
          tree₂.along place = some above₂ ∧ (tree₁.childrenAfter above₁)[i]? = some node₁ ∧
          (tree₂.childrenAfter above₂)[i]? = some node₂ ∧ Node.Matched R node₁ node₂ ∧
          AlignedPaths S R s₁ s₂ tree₁ tree₂ above₁ above₂ ∧
          s₂.Survives tree₂ (above₂ ++ [node₂]) := by
      intro h
      obtain ⟨above₂, node₂, habove₂, hnode₂, hsurvives⟩ := isSome_counterpart_concat.mp h
      obtain ⟨above₁, habove₁, haligned⟩ := exists_alignedPaths A hS hR habove₂
      obtain ⟨node₁, hnode₁, hmatched⟩ := exists_getElem?_of_forall₂ haligned.children hnode₂
      exact ⟨above₁, above₂, node₁, node₂, habove₁, habove₂, hnode₁, hnode₂, hmatched, haligned,
        hsurvives⟩
    constructor
    · intro h
      obtain ⟨above₁, _, node₁, _, habove₁, -, hnode₁, -, hmatched, haligned, hsurvives⟩ := hsecond h
      have hsurvives₁ := (haligned.concat A hmatched).survives hsurvives
      exact isSome_counterpart_concat.mpr ⟨above₁, node₁, habove₁, hnode₁, hsurvives₁⟩
    · intro r₁ r₂ hr₁ hr₂
      obtain ⟨above₁, above₂, node₁, node₂, habove₁, habove₂, hnode₁, hnode₂, hmatched, haligned,
        hsurvives⟩ := hsecond (by simp [hr₂])
      obtain ⟨-, d₂, hd₂, -⟩ := survives_concat.mp hsurvives
      obtain ⟨d₁, hd₁, hd⟩ := hmatched.exists_dependency hd₂
      have halong₁ := Node.along_concat.mpr ⟨above₁, node₁, habove₁, hnode₁, rfl⟩
      have halong₂ := Node.along_concat.mpr ⟨above₂, node₂, habove₂, hnode₂, rfl⟩
      exact ⟨_, _, d₁, d₂, haligned.below, hd, alone_counterpart halong₁ hd₁ hr₁,
        alone_counterpart halong₂ hd₂ hr₂⟩

end Snapshot

end NearestWins
