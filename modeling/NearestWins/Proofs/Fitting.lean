import Mathlib.Data.List.Forall2
import NearestWins.Toml.Reader

/-!
# What was read

A value that was read tells what stands in the document: `Value.eq_of_fitString` and its companions for single
values, `foldlM_holds` for the fields of a record. `Holds` relates a field of a table to what it was read as,
whatever the order of the entries.
-/

namespace NearestWins

theorem Fit.exists_of_bind_eq_ok {α β : Type} {x : Fit α} {f : α → Fit β} {b : β} (h : (x >>= f) = .ok b) :
    ∃ a, x = .ok a ∧ f a = .ok b := by
  cases x with
  | ok a => exact ⟨a, rfl, h⟩
  | error reason => cases h

theorem Fit.exists_of_map_eq_ok {α β : Type} {x : Fit α} {f : α → β} {b : β} (h : f <$> x = .ok b) :
    ∃ a, x = .ok a ∧ f a = b := by
  cases x with
  | ok a => exact ⟨a, rfl, Except.ok.inj h⟩
  | error reason => cases h

namespace Value

/-- A value that may be null. -/
def ofOption {α : Type} (write : α → Value) : Option α → Value
  | none => .null
  | some a => write a

/-- The items of a list are related to other items, one by one. -/
def ListOf {α : Type} (R : Value → α → Prop) (v : Value) (as : List α) : Prop :=
  ∃ items, v = .array items ∧ List.Forall₂ R items as

variable {α : Type} {format : DataFormat} {v : Value} {fit : Value → Fit α}

theorem eq_of_fitString {text : String} (h : v.fitString format = .ok text) : v = .string text := by
  unfold fitString at h
  split at h <;> cases h
  rfl

theorem eq_of_fitBool {b : Bool} (h : v.fitBool format = .ok b) : v = .boolean b := by
  unfold fitBool at h
  split at h <;> cases h
  rfl

theorem eq_of_fitOption {write : α → Value} (hfit : ∀ {v a}, fit v = .ok a → v = write a) {a : Option α}
    (h : v.fitOption fit = .ok a) : v = ofOption write a := by
  unfold fitOption at h
  split at h
  · cases h
    rfl
  · obtain ⟨b, hb, rfl⟩ := Fit.exists_of_map_eq_ok h
    exact hfit hb

theorem forall₂_of_mapM {R : Value → α → Prop} (hfit : ∀ {v a}, fit v = .ok a → R v a) {items : List Value}
    {as : List α} (h : items.mapM fit = .ok as) : List.Forall₂ R items as := by
  induction items generalizing as with
  | nil =>
    cases h
    exact .nil
  | cons v rest ih =>
    rw [List.mapM_cons] at h
    obtain ⟨a, hfirst, h⟩ := Fit.exists_of_bind_eq_ok h
    obtain ⟨others, hrest, h⟩ := Fit.exists_of_bind_eq_ok h
    cases h
    exact .cons (hfit hfirst) (ih hrest)

theorem listOf_of_fitList {R : Value → α → Prop} (hfit : ∀ {v a}, fit v = .ok a → R v a) {as : List α}
    (h : v.fitList format fit = .ok as) : v.ListOf R as := by
  unfold fitList at h
  split at h
  · exact ⟨_, rfl, forall₂_of_mapM hfit h⟩
  · cases h

theorem eq_of_fitTexts {texts : List String} (h : v.fitList format (·.fitString format) = .ok texts) :
    v = .array (texts.map .string) := by
  have hlist : v.ListOf (· = .string ·) texts := listOf_of_fitList eq_of_fitString h
  clear h
  obtain ⟨items, rfl, hitems⟩ := hlist
  induction hitems with
  | nil => rfl
  | cons hfirst _ ih => rw [List.map_cons, hfirst, Value.array.inj ih]

/-- The entries of a table of texts. -/
def textEntries (texts : List (String × String)) : List (String × Value) :=
  texts.map fun (name, text) => (name, .string text)

theorem textEntries_of_foldlM {entries : List (String × Value)} {start map : Std.ExtTreeMap String String}
    (h : entries.foldlM (fun map (name, value) => map.insert name <$> value.fitString format) start = .ok map) :
    ∃ texts, entries = textEntries texts ∧ map = start.insertMany texts := by
  induction entries generalizing start with
  | nil =>
    cases h
    exact ⟨[], rfl, by simp⟩
  | cons entry rest ih =>
    obtain ⟨name, value⟩ := entry
    rw [List.foldlM_cons] at h
    obtain ⟨next, hentry, hrest⟩ := Fit.exists_of_bind_eq_ok h
    obtain ⟨text, htext, rfl⟩ := Fit.exists_of_map_eq_ok (x := value.fitString format) hentry
    obtain ⟨texts, rfl, rfl⟩ := ih hrest
    refine ⟨(name, text) :: texts, ?_, Std.ExtTreeMap.insertMany_cons.symm⟩
    rw [eq_of_fitString htext]
    rfl

/-- A map from texts to texts is what a table lists. -/
theorem textEntries_of_fitTextMap {map : Std.ExtTreeMap String String} (h : v.fitTextMap format = .ok map) :
    ∃ texts, v.entries? = some (textEntries texts) ∧ map = .ofList texts := by
  unfold fitTextMap at h
  split at h
  · rename_i entries hentries
    obtain ⟨texts, rfl, rfl⟩ := textEntries_of_foldlM h
    exact ⟨texts, hentries, Std.ExtTreeMap.ofList_eq_insertMany_empty.symm⟩
  · cases h

end Value

/-! ## Fields -/

section Fields

variable {α σ : Type} {entries : List (String × Value)} {name : String} {R : Value → α → Prop} {blank a : α}

/-- A field of a table was read as `a`: by `R` from a value under its name, or as blank if there is none. -/
def Holds (entries : List (String × Value)) (name : String) (R : Value → α → Prop) (blank a : α) : Prop :=
  (∃ v, (name, v) ∈ entries ∧ R v a) ∨ (∀ v, (name, v) ∉ entries) ∧ a = blank

namespace Holds

theorem nil : Holds [] name R blank blank :=
  .inr ⟨fun _ => List.not_mem_nil, rfl⟩

theorem head {v : Value} {rest : List (String × Value)} (h : R v a) : Holds ((name, v) :: rest) name R blank a :=
  .inl ⟨v, List.mem_cons_self .., h⟩

theorem cons {other : String} {v : Value} (hother : other ≠ name) (h : Holds entries name R blank a) :
    Holds ((other, v) :: entries) name R blank a := by
  rcases h with ⟨w, hw, hread⟩ | ⟨habsent, rfl⟩
  · exact .inl ⟨w, List.mem_cons_of_mem _ hw, hread⟩
  · refine .inr ⟨fun w hw => ?_, rfl⟩
    rcases List.mem_cons.1 hw with hhead | htail
    · exact hother (Prod.mk.inj hhead).1.symm
    · exact habsent w htail

/-- A field that is there was read from what stands there. -/
theorem mem {write : α → Value} (h : Holds entries name (· = write ·) blank a)
    (hpresent : ∃ v, (name, v) ∈ entries) : (name, write a) ∈ entries := by
  obtain ⟨v, hv⟩ := hpresent
  rcases h with ⟨_, hmem, rfl⟩ | ⟨habsent, -⟩
  · exact hmem
  · exact absurd hv (habsent v)

/-- The items of a list that a field was read as; a missing field has none. -/
theorem items {β : Type} {R : Value → β → Prop} {as : List β} (h : Holds entries name (Value.ListOf R) [] as) :
    ∃ items, Holds entries name (· = .array ·) [] items ∧ List.Forall₂ R items as := by
  rcases h with ⟨v, hv, items, rfl, hitems⟩ | ⟨habsent, rfl⟩
  · exact ⟨items, .inl ⟨_, hv, rfl⟩, hitems⟩
  · exact ⟨[], .inr ⟨habsent, rfl⟩, .nil⟩

end Holds

/-- Entries are read into a record one after the other. If only those under its name determine a field, then
the field was read from one of them, or is what it was before. -/
theorem foldlM_holds {read : σ → String × Value → Fit σ} (get : σ → α)
    (own : ∀ {s s' v}, read s (name, v) = .ok s' → R v (get s'))
    (others : ∀ {s s' other v}, other ≠ name → read s (other, v) = .ok s' → get s' = get s) {s s' : σ}
    (h : entries.foldlM read s = .ok s') : Holds entries name R (get s) (get s') := by
  induction entries generalizing s with
  | nil =>
    cases h
    exact .nil
  | cons entry rest ih =>
    obtain ⟨other, v⟩ := entry
    rw [List.foldlM_cons] at h
    obtain ⟨next, hentry, hrest⟩ := Fit.exists_of_bind_eq_ok h
    by_cases hother : other = name
    · subst hother
      rcases ih hrest with ⟨w, hw, hread⟩ | ⟨-, hsame⟩
      · exact .inl ⟨w, List.mem_cons_of_mem _ hw, hread⟩
      · exact .head (hsame ▸ own hentry)
    · rw [← others hother hentry]
      exact .cons hother (ih hrest)

end Fields

/-! ## Records -/

namespace Schema

variable {ρ : Type} {schema : Schema ρ} {format : DataFormat} {entries : List (String × Value)} {r r' : ρ}

/-- A field that must be there is there. -/
theorem exists_of_checkPresent (h : schema.checkPresent entries = .ok ()) {field : Field ρ}
    (hfield : field ∈ schema.fields) (hrequired : field.required) : ∃ v, (field.name, v) ∈ entries := by
  unfold checkPresent at h
  split at h
  · cases h
  · rename_i hnone
    have hpresent := List.find?_eq_none.1 hnone field hfield
    simp only [hrequired, Bool.true_and, Bool.not_eq_true', Bool.not_eq_false, List.any_eq_true,
      decide_eq_true_eq] at hpresent
    obtain ⟨⟨name, v⟩, hmem, rfl⟩ := hpresent
    exact ⟨v, hmem⟩

theorem field?_eq_some {name : String} {field : Field ρ} (h : schema.field? name = some field) :
    field ∈ schema.fields ∧ field.name = name :=
  ⟨List.mem_of_find?_eq_some h, by simpa using List.find?_some h⟩

theorem field?_eq_none_iff {name : String} : schema.field? name = none ↔ name ∉ schema.fieldNames := by
  simp [field?, fieldNames, List.find?_eq_none]

/-- A closed record is read from its own fields only. -/
theorem mem_fieldNames_of_readEntry (hclosed : schema.closed = true) {name : String} {v : Value}
    (h : schema.readEntry format r (name, v) = .ok r') : name ∈ schema.fieldNames := by
  by_contra hname
  rw [readEntry, field?_eq_none_iff.2 hname, hclosed] at h
  cases h

theorem mem_fieldNames_of_foldlM (hclosed : schema.closed = true)
    (h : entries.foldlM (schema.readEntry format) r = .ok r') : ∀ entry ∈ entries, entry.1 ∈ schema.fieldNames := by
  induction entries generalizing r with
  | nil => simp
  | cons entry rest ih =>
    rw [List.foldlM_cons] at h
    obtain ⟨next, hentry, hrest⟩ := Fit.exists_of_bind_eq_ok h
    exact List.forall_mem_cons.2 ⟨mem_fieldNames_of_readEntry hclosed hentry, ih hrest⟩

/-- The items of a list are read as the fields in declaration order would be. -/
theorem foldlM_of_readItems {length index : Nat} {fields : List (Field ρ)} {items : List Value}
    (hfields : ∀ field ∈ fields, schema.field? field.name = some field)
    (h : schema.readItems format length index r fields items = .ok r') :
    ((fields.map Field.name).zip items).foldlM (schema.readEntry format) r = .ok r' := by
  induction fields generalizing items index r with
  | nil =>
    cases items with
    | nil => exact h
    | cons item items =>
      rw [readItems] at h
      split at h
      · cases h
      · exact h
  | cons field fields ih =>
    have hothers := fun field hfield => hfields field (List.mem_cons_of_mem _ hfield)
    cases items with
    | nil =>
      rw [readItems] at h
      split at h
      · cases h
      · simpa using ih hothers h
    | cons item items =>
      rw [readItems] at h
      obtain ⟨next, hitem, hrest⟩ := Fit.exists_of_bind_eq_ok h
      rw [List.map_cons, List.zip_cons_cons, List.foldlM_cons, readEntry, hfields field (List.mem_cons_self ..)]
      dsimp only
      rw [hitem]
      exact ih hothers hrest

/-- The fields of a record in a document: the entries of a table, or the items of a list in the order of the
names. -/
def entriesOf? (schema : Schema ρ) (v : Value) : Option (List (String × Value)) :=
  match v with
  | .array items => some (schema.fieldNames.zip items)
  | v => v.entries?

theorem foldlM_of_readTable (h : schema.readTable format r entries = .ok r') :
    entries.foldlM (schema.readEntry format) r = .ok r' := by
  obtain ⟨read, hread, h⟩ := Fit.exists_of_bind_eq_ok h
  obtain ⟨_, -, h⟩ := Fit.exists_of_bind_eq_ok h
  cases h
  exact hread

/-- However a record is written, its fields are read one after the other. -/
theorem foldlM_of_fit {v : Value} (hfields : ∀ field ∈ schema.fields, schema.field? field.name = some field)
    (h : schema.fit format r v = .ok r') :
    ∃ entries, schema.entriesOf? v = some entries ∧ entries.foldlM (schema.readEntry format) r = .ok r' := by
  cases v with
  | array items => exact ⟨_, rfl, foldlM_of_readItems hfields h⟩
  | table entries => exact ⟨_, rfl, foldlM_of_readTable h⟩
  | datetime text => exact ⟨_, rfl, foldlM_of_readTable h⟩
  | _ => cases h

end Schema

end NearestWins
