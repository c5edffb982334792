import Mathlib.Data.List.Forall2
import NearestWins.Data.Reader

/-!
# Tables in any order

A document lists the entries of a table in the order of their names, a record in that of its fields, and no
reader may depend on which. `Value.Relisted` says that two values hold the same data, the entries of tables
listed in any order. Entries may be read in any order if what is known after some of them depends on their
names only: `foldlM_eq_ok_of_part`, and with it `Schema.fit_of_relisted` for records.
-/

namespace NearestWins

/-! ## The same data -/

/-- Each entry of the first list, with a related value, has a place of its own in the second, and nothing
else is there. -/
inductive EntriesAlike (R : Value → Value → Prop) : List (String × Value) → List (String × Value) → Prop
  | nil : EntriesAlike R [] []
  | cons {name : String} {v w : Value} {rest : List (String × Value)} (before after : List (String × Value))
      (related : R v w) (others : EntriesAlike R rest (before ++ after)) :
      EntriesAlike R ((name, v) :: rest) (before ++ (name, w) :: after)

namespace EntriesAlike

variable {R : Value → Value → Prop} {entries entries' : List (String × Value)} {x : String × Value}

theorem of_reflexive (hR : ∀ v, R v v) (entries : List (String × Value)) :
    EntriesAlike R entries entries := by
  induction entries with
  | nil => exact nil
  | cons x rest ih => exact cons [] rest (hR x.2) ih

theorem exists_right (h : EntriesAlike R entries entries') (hx : x ∈ entries) :
    ∃ w, (x.1, w) ∈ entries' ∧ R x.2 w := by
  induction h with
  | nil => cases hx
  | @cons name v w rest before after related others ih =>
    rcases List.mem_cons.1 hx with rfl | hx
    · exact ⟨w, by simp, related⟩
    · obtain ⟨u, hu, hR⟩ := ih hx
      refine ⟨u, ?_, hR⟩
      rw [List.mem_append] at hu ⊢
      exact hu.imp_right (List.mem_cons_of_mem _)

theorem exists_left (h : EntriesAlike R entries entries') (hx : x ∈ entries') :
    ∃ v, (x.1, v) ∈ entries ∧ R v x.2 := by
  induction h with
  | nil => cases hx
  | @cons name v w rest before after related others ih =>
    rcases List.mem_append.1 hx with hx | hx
    · obtain ⟨u, hu, hR⟩ := ih (List.mem_append_left _ hx)
      exact ⟨u, List.mem_cons_of_mem _ hu, hR⟩
    · rcases List.mem_cons.1 hx with rfl | hx
      · exact ⟨v, List.mem_cons_self .., related⟩
      · obtain ⟨u, hu, hR⟩ := ih (List.mem_append_right _ hx)
        exact ⟨u, List.mem_cons_of_mem _ hu, hR⟩

end EntriesAlike

namespace Value

/-- The same data, the entries of tables listed in any order. -/
inductive Relisted : Value → Value → Prop
  | refl (v : Value) : Relisted v v
  | array {items items' : List Value} (alike : List.Forall₂ Relisted items items') :
      Relisted (.array items) (.array items')
  | table {entries entries' : List (String × Value)} (alike : EntriesAlike Relisted entries entries') :
      Relisted (.table entries) (.table entries')

/-- Whether a value has no parts. -/
def isLeaf : Value → Bool
  | .array _ | .table _ => false
  | _ => true

/-- The entries of a table. -/
def listed (v : Value) : List (String × Value) := v.entries?.getD []

namespace Relisted

variable {v w u : Value} {name : String}

theorem array_eq {items : List Value} (h : (Value.array items).Relisted w) :
    ∃ items', w = .array items' ∧ List.Forall₂ Relisted items items' := by
  cases h with
  | refl => exact ⟨items, rfl, List.forall₂_same.2 fun v _ => refl v⟩
  | array alike => exact ⟨_, rfl, alike⟩

theorem table_eq {entries : List (String × Value)} (h : (Value.table entries).Relisted w) :
    ∃ entries', w = .table entries' ∧ EntriesAlike Relisted entries entries' := by
  cases h with
  | refl => exact ⟨entries, rfl, .of_reflexive refl entries⟩
  | table alike => exact ⟨_, rfl, alike⟩

theorem eq_of_isLeaf (h : v.Relisted w) (leaf : v.isLeaf ∨ w.isLeaf) : w = v := by
  cases h with
  | refl => rfl
  | array => simp [isLeaf] at leaf
  | table => simp [isLeaf] at leaf

theorem exists_right (h : v.Relisted w) (hu : (name, u) ∈ v.listed) :
    ∃ u', (name, u') ∈ w.listed ∧ u.Relisted u' := by
  cases h with
  | refl => exact ⟨u, hu, refl u⟩
  | array => cases hu
  | table alike => exact alike.exists_right hu

theorem exists_left (h : v.Relisted w) (hu : (name, u) ∈ w.listed) :
    ∃ u', (name, u') ∈ v.listed ∧ u'.Relisted u := by
  cases h with
  | refl => exact ⟨u, hu, refl u⟩
  | array => cases hu
  | table alike => exact alike.exists_left hu

theorem mem_listed_iff (h : v.Relisted w) (name : String) (leaf : u.isLeaf) :
    (name, u) ∈ v.listed ↔ (name, u) ∈ w.listed := by
  constructor
  · intro hu
    obtain ⟨u', hu', related⟩ := h.exists_right hu
    rwa [related.eq_of_isLeaf (.inl leaf)] at hu'
  · intro hu
    obtain ⟨u', hu', related⟩ := h.exists_left hu
    rwa [← related.eq_of_isLeaf (.inr leaf)] at hu'

end Relisted

end Value

/-! ## Reading in any order -/

@[simp] theorem Fit.ok_bind {α β : Type} (a : α) (f : α → Fit β) : (Except.ok a >>= f) = f a := rfl

@[simp] theorem Fit.map_ok {α β : Type} (f : α → β) (a : α) : f <$> (Except.ok a : Fit α) = .ok (f a) := rfl

section Reading

variable {σ : Type} {entries : List (String × Value)} {schema : Schema σ} {format : DataFormat}

/-- `part names` is what is known from the entries under these names. If each entry adds itself to what is
known from any others, then all of them can be read, whatever their order. -/
theorem foldlM_eq_ok_of_part {read : σ → String × Value → Fit σ} (part : List String → σ)
    (step : ∀ x ∈ entries, ∀ names, read (part names) x = .ok (part (x.1 :: names)))
    (names : List String) :
    entries.foldlM read (part names) = .ok (part ((entries.map Prod.fst).reverse ++ names)) := by
  induction entries generalizing names with
  | nil => rfl
  | cons x rest ih =>
    have first := step x (List.mem_cons_self ..) names
    have others := ih (fun y hy => step y (List.mem_cons_of_mem _ hy)) (x.1 :: names)
    rw [List.foldlM_cons, first, Fit.ok_bind, others]
    simp

theorem Schema.checkPresent_eq_ok
    (present : ∀ field ∈ schema.fields, field.required → ∃ v, (field.name, v) ∈ entries) :
    schema.checkPresent entries = .ok () := by
  have complete :
      schema.fields.find? (fun f => f.required && !(entries.any (·.1 = f.name))) = none := by
    rw [List.find?_eq_none]
    intro field hfield missing
    rw [Bool.and_eq_true] at missing
    obtain ⟨v, hv⟩ := present field hfield missing.1
    have found : entries.any (·.1 = field.name) = true := List.any_eq_true.2 ⟨_, hv, by simp⟩
    simp [found] at missing
  rw [checkPresent, complete]

/-- A table is read as a record, its entries in any order, if each of them is read as
`foldlM_eq_ok_of_part` asks, none is missing, and what is known from all of them is the record. -/
theorem Schema.fit_of_relisted {record : σ} {w : Value} (part : List String → σ)
    (step : ∀ name v v', (name, v) ∈ entries → v.Relisted v' → ∀ names,
      schema.readEntry format (part names) (name, v') = .ok (part (name :: names)))
    (present : ∀ field ∈ schema.fields, field.required → ∃ v, (field.name, v) ∈ entries)
    (whole : ∀ names, (∀ name v, (name, v) ∈ entries → name ∈ names) → part names = record)
    (h : (Value.table entries).Relisted w) : schema.fit format (part []) w = .ok record := by
  obtain ⟨entries', rfl, alike⟩ := h.table_eq
  have step' : ∀ x ∈ entries', ∀ names,
      schema.readEntry format (part names) x = .ok (part (x.1 :: names)) := by
    intro x hx
    obtain ⟨v, hv, related⟩ := alike.exists_left hx
    exact step x.1 v x.2 hv related
  have present' : ∀ field ∈ schema.fields, field.required → ∃ v, (field.name, v) ∈ entries' := by
    intro field hfield hrequired
    obtain ⟨v, hv⟩ := present field hfield hrequired
    obtain ⟨v', hv', -⟩ := alike.exists_right hv
    exact ⟨v', hv'⟩
  have whole' : part ((entries'.map Prod.fst).reverse ++ []) = record := by
    apply whole
    intro name v hv
    obtain ⟨v', hv', -⟩ := alike.exists_right hv
    exact List.mem_append_left _ (List.mem_reverse.2 (List.mem_map.2 ⟨_, hv', rfl⟩))
  change schema.readTable format (part []) entries' = _
  rw [readTable, foldlM_eq_ok_of_part part step' [], whole', Fit.ok_bind, checkPresent_eq_ok present']
  rfl

theorem Value.fitList_eq_ok {α : Type} {read : Value → Fit α} {xs : List α} {items : List Value}
    (h : List.Forall₂ (fun x v => read v = .ok x) xs items) :
    (Value.array items).fitList format read = .ok xs := by
  rw [Value.fitList]
  induction h with
  | nil => rfl
  | cons head _ ih => simp [head, ih]

end Reading

end NearestWins
