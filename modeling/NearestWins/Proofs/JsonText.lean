import Mathlib.Data.List.Infix
import NearestWins.Json.Writer

/-!
# JSON texts tell their values

The layout with one entry to a line is unambiguous: whoever knows the text knows the value. The induction
is on the value and needs more than injectivity, since the text of an item is followed by others:
`Tells` says that the text can be split off the front of every longer one. Nothing marks the end of a
number but a character that is no digit. `Plain` leaves out the values that are written like others: what
has no number is written as null, and dates as texts.
-/

namespace NearestWins.Json

/-! ## Strings -/

/-- Whether a character is escaped. -/
def Escaped (c : Char) : Prop := c = '"' ∨ c = '\\' ∨ c < ' '

theorem escape_of_not_escaped {c : Char} (h : ¬Escaped c) : escape c = [c] := by
  simp only [Escaped, not_or] at h
  obtain ⟨quote, backslash, control⟩ := h
  have ne {d : Char} (hd : d < ' ') : c ≠ d := by
    rintro rfl
    exact control hd
  rw [escape, if_neg quote, if_neg backslash, if_neg (ne (by decide)), if_neg (ne (by decide)),
    if_neg (ne (by decide)), if_neg (ne (by decide)), if_neg (ne (by decide)), if_neg control]

theorem escape_of_escaped {c : Char} (h : Escaped c) : ∃ rest, escape c = '\\' :: rest := by
  rw [escape]
  split_ifs with quote backslash b f n r t control
  case neg => exact absurd h (by simp [Escaped, quote, backslash, control])
  all_goals exact ⟨_, rfl⟩

/-- The codes of the characters that are escaped. -/
def escapedCodes : List Nat := 34 :: 92 :: List.range 32

theorem mem_escapedCodes {c : Char} (h : Escaped c) : c.toNat ∈ escapedCodes := by
  rcases h with rfl | rfl | control
  · decide
  · decide
  · have small : c.toNat < 32 := control
    simp [escapedCodes, small]

theorem code_eq_of_prefix_escape : ∀ m ∈ escapedCodes, ∀ n ∈ escapedCodes,
    escape (Char.ofNat m) <+: escape (Char.ofNat n) → m = n := by
  decide +kernel

/-- No escape begins another one. -/
theorem eq_of_prefix_escape {c d : Char} (hc : Escaped c) (hd : Escaped d)
    (h : escape c <+: escape d) : c = d := by
  apply Char.toNat_inj.1
  apply code_eq_of_prefix_escape _ (mem_escapedCodes hc) _ (mem_escapedCodes hd)
  rwa [Char.ofNat_toNat, Char.ofNat_toNat]

/-- What is written for a character can be split off the front of a text. -/
theorem escape_append_inj {c d : Char} {r s : List Char} (h : escape c ++ r = escape d ++ s) :
    c = d ∧ r = s := by
  suffices same : c = d by
    subst same
    exact ⟨rfl, List.append_cancel_left h⟩
  by_cases hc : Escaped c <;> by_cases hd : Escaped d
  · rcases List.append_eq_append_iff.1 h with ⟨more, longer, -⟩ | ⟨more, longer, -⟩
    · exact eq_of_prefix_escape hc hd ⟨more, longer.symm⟩
    · exact (eq_of_prefix_escape hd hc ⟨more, longer.symm⟩).symm
  · obtain ⟨rest, hr⟩ := escape_of_escaped hc
    rw [hr, escape_of_not_escaped hd] at h
    exact absurd (.inr (.inl (List.cons.inj h).1.symm)) hd
  · obtain ⟨rest, hr⟩ := escape_of_escaped hd
    rw [hr, escape_of_not_escaped hc] at h
    exact absurd (.inr (.inl (List.cons.inj h).1)) hc
  · rw [escape_of_not_escaped hc, escape_of_not_escaped hd] at h
    exact (List.cons.inj h).1

theorem escape_append_ne_quote (c : Char) (r s : List Char) : escape c ++ r ≠ '"' :: s := by
  intro h
  by_cases hc : Escaped c
  · obtain ⟨rest, hr⟩ := escape_of_escaped hc
    rw [hr] at h
    exact absurd (List.cons.inj h).1 (by decide)
  · rw [escape_of_not_escaped hc] at h
    exact hc (.inl (List.cons.inj h).1)

/-- The closing quote is the first one that is not escaped, so a text ends where it seems to. -/
theorem flatMap_escape_append_inj : ∀ {cs ds r s : List Char},
    cs.flatMap escape ++ '"' :: r = ds.flatMap escape ++ '"' :: s → cs = ds ∧ r = s
  | [], [], _, _, h => ⟨rfl, (List.cons.inj h).2⟩
  | [], d :: ds, _, _, h => by
    rw [List.flatMap_cons, List.append_assoc] at h
    exact absurd h.symm (escape_append_ne_quote d _ _)
  | c :: cs, [], _, _, h => by
    rw [List.flatMap_cons, List.append_assoc] at h
    exact absurd h (escape_append_ne_quote c _ _)
  | c :: cs, d :: ds, _, _, h => by
    rw [List.flatMap_cons, List.append_assoc, List.flatMap_cons, List.append_assoc] at h
    obtain ⟨rfl, others⟩ := escape_append_inj h
    obtain ⟨rfl, rfl⟩ := flatMap_escape_append_inj others
    exact ⟨rfl, rfl⟩

theorem toList_quote (text : String) :
    (quote text).toList = '"' :: (text.toList.flatMap escape ++ ['"']) :=
  String.toList_ofList

/-- Quoted texts can be split off the front of a text. -/
theorem quote_append_inj {a b : String} {r s : List Char}
    (h : (quote a).toList ++ r = (quote b).toList ++ s) : a = b ∧ r = s := by
  rw [toList_quote, toList_quote] at h
  simp only [List.cons_append, List.append_assoc, List.nil_append, List.cons.injEq, true_and] at h
  obtain ⟨texts, rests⟩ := flatMap_escape_append_inj h
  exact ⟨String.toList_inj.1 texts, rests⟩

/-! ## Numbers -/

/-- Whether no digit begins a text, so that it ends a number. -/
def EndsNumber (text : List Char) : Prop := text.takeWhile Char.isDigit = []

theorem takeWhile_toDigits_append (n : Nat) {r : List Char} (hr : EndsNumber r) :
    (Nat.toDigits 10 n ++ r).takeWhile Char.isDigit = Nat.toDigits 10 n := by
  rw [List.takeWhile_append_of_pos, hr, List.append_nil]
  intro c hc
  exact Nat.isDigit_of_mem_toDigits (by decide) (by decide) hc

/-- Numbers can, if no digit follows. -/
theorem toDigits_append_inj {m n : Nat} {r s : List Char} (hr : EndsNumber r) (hs : EndsNumber s)
    (h : Nat.toDigits 10 m ++ r = Nat.toDigits 10 n ++ s) : m = n ∧ r = s := by
  have digits : Nat.toDigits 10 m = Nat.toDigits 10 n := by
    rw [← takeWhile_toDigits_append m hr, h, takeWhile_toDigits_append n hs]
  constructor
  · calc
      m = Nat.ofDigitChars 10 (Nat.toDigits 10 m) 0 := Nat.ofDigitChars_ten_toDigits.symm
      _ = Nat.ofDigitChars 10 (Nat.toDigits 10 n) 0 := by rw [digits]
      _ = n := Nat.ofDigitChars_ten_toDigits
  · rw [digits] at h
    exact List.append_cancel_left h

/-! ## Blocks -/

/-- A line of a block with what follows. -/
def blockLine (indent line rest : List Char) : List Char :=
  '\n' :: (indent ++ ' ' :: ' ' :: (line ++ rest))

/-- What follows the first line of a block, up to its closing bracket. -/
def blockTail (indent : List Char) (closing : Char) : List (List Char) → List Char
  | [] => '\n' :: (indent ++ [closing])
  | line :: lines => ',' :: blockLine indent line (blockTail indent closing lines)

/-- The characters of a block. -/
def blockText (opening closing : Char) (indent : List Char) : List (List Char) → List Char
  | [] => [opening, closing]
  | line :: lines => opening :: blockLine indent line (blockTail indent closing lines)

theorem endsNumber_blockTail (indent : List Char) (closing : Char) (lines : List (List Char))
    (r : List Char) : EndsNumber (blockTail indent closing lines ++ r) := by
  cases lines with
  | nil => rfl
  | cons line lines => rfl

theorem intercalate_append_blockTail (indent : List Char) (closing : Char) (line : List Char)
    (lines : List (List Char)) :
    (',' :: '\n' :: (indent ++ [' ', ' '])).intercalate (line :: lines) ++ blockTail indent closing [] =
      line ++ blockTail indent closing lines := by
  induction lines generalizing line with
  | nil => simp
  | cons next lines ih =>
    rw [List.intercalate_cons_cons, List.append_assoc, ih next]
    simp [blockTail, blockLine]

/-- A block, character by character. -/
theorem toList_block {opening closing : String} {o c : Char} (ho : opening.toList = [o])
    (hc : closing.toList = [c]) (indent : String) (lines : List String) :
    (block opening closing indent lines).toList =
      blockText o c indent.toList (lines.map String.toList) := by
  cases lines with
  | nil => simp [block, blockText, ho, hc]
  | cons line lines =>
    rw [List.map_cons, blockText, blockLine, ← intercalate_append_blockTail]
    simp [block, blockTail, ho, hc, String.toList_intercalate]

/-- Whether what is written for `a` tells `a` from everything else that `P` holds of: it can be split off
the front of every text that goes on with no digit. -/
def Tells {α : Type} (P : α → Prop) (write : α → String) (a : α) : Prop :=
  ∀ b r s, P b → EndsNumber r → EndsNumber s → (write a).toList ++ r = (write b).toList ++ s →
    a = b ∧ r = s

section Blocks

variable {α : Type} {P : α → Prop} {write : α → String} {indent : List Char} {closing : Char}
  {as bs : List α} {r s : List Char}

theorem blockLine_append_inj {a b : α} (told : Tells P write a) (hb : P b) {rest rest' : List Char}
    (hr : EndsNumber (rest ++ r)) (hs : EndsNumber (rest' ++ s))
    (h : blockLine indent (write a).toList rest ++ r = blockLine indent (write b).toList rest' ++ s) :
    a = b ∧ rest ++ r = rest' ++ s := by
  simp only [blockLine, List.cons_append, List.append_assoc, List.cons.injEq, true_and,
    List.append_cancel_left_eq] at h
  exact told b _ _ hb hr hs h

/-- The tail of a block is told by its lines: a comma goes on, a line break ends it. -/
theorem blockTail_append_inj (told : ∀ a ∈ as, Tells P write a) (hbs : ∀ b ∈ bs, P b)
    (h : blockTail indent closing (as.map fun a => (write a).toList) ++ r =
      blockTail indent closing (bs.map fun a => (write a).toList) ++ s) : as = bs ∧ r = s := by
  induction as generalizing bs with
  | nil =>
    cases bs with
    | nil => exact ⟨rfl, List.append_cancel_left h⟩
    | cons b bs => exact absurd (List.cons.inj h).1 (by decide)
  | cons a as ih =>
    cases bs with
    | nil => exact absurd (List.cons.inj h).1 (by decide)
    | cons b bs =>
      rw [List.forall_mem_cons] at told hbs
      obtain ⟨rfl, others⟩ := blockLine_append_inj told.1 hbs.1 (endsNumber_blockTail ..)
        (endsNumber_blockTail ..) (List.cons.inj h).2
      obtain ⟨rfl, rfl⟩ := ih told.2 hbs.2 others
      exact ⟨rfl, rfl⟩

/-- A block is told, if each of its lines is. -/
theorem blockText_append_inj {opening : Char} (hclosing : closing ≠ '\n')
    (told : ∀ a ∈ as, Tells P write a) (hbs : ∀ b ∈ bs, P b)
    (h : blockText opening closing indent (as.map fun a => (write a).toList) ++ r =
      blockText opening closing indent (bs.map fun a => (write a).toList) ++ s) : as = bs ∧ r = s := by
  cases as with
  | nil =>
    cases bs with
    | nil => exact ⟨rfl, List.append_cancel_left h⟩
    | cons b bs => exact absurd (List.cons.inj (List.cons.inj h).2).1 hclosing
  | cons a as =>
    cases bs with
    | nil => exact absurd (List.cons.inj (List.cons.inj h).2).1.symm hclosing
    | cons b bs =>
      rw [List.forall_mem_cons] at told hbs
      obtain ⟨rfl, others⟩ := blockLine_append_inj told.1 hbs.1 (endsNumber_blockTail ..)
        (endsNumber_blockTail ..) (List.cons.inj h).2
      obtain ⟨rfl, rfl⟩ := blockTail_append_inj told.2 hbs.2 others
      exact ⟨rfl, rfl⟩

end Blocks

/-! ## Values -/

/-- Truth values, numbers without sign, texts, and lists and tables of such. -/
inductive Plain : Value → Prop
  | boolean (b : Bool) : Plain (.boolean b)
  | integer (n : Nat) : Plain (.integer n)
  | string (text : String) : Plain (.string text)
  | array {items : List Value} (plain : ∀ v ∈ items, Plain v) : Plain (.array items)
  | table {entries : List (String × Value)} (plain : ∀ x ∈ entries, Plain x.2) : Plain (.table entries)

/-- An entry of a table as it stands on its line. -/
def prettyEntry (indent : String) (x : String × Value) : String :=
  quote x.1 ++ ": " ++ pretty indent x.2

section Kinds

variable (indent : String)

theorem prettyItems_eq_map (items : List Value) :
    prettyItems indent items = items.map (pretty indent) := by
  induction items with
  | nil => rfl
  | cons v rest ih => rw [prettyItems, ih, List.map_cons]

theorem prettyEntries_eq_map (entries : List (String × Value)) :
    prettyEntries indent entries = entries.map (prettyEntry indent) := by
  induction entries with
  | nil => rfl
  | cons x rest ih => rw [prettyEntries, ih, List.map_cons, prettyEntry]

theorem toList_pretty_boolean (b : Bool) :
    (pretty indent (.boolean b)).toList = if b then "true".toList else "false".toList := by
  cases b <;> simp [pretty, scalar]

theorem toList_pretty_integer (n : Nat) :
    (pretty indent (.integer n)).toList = Nat.toDigits 10 n := by
  have text : scalar (.integer n) = String.ofList (Nat.toDigits 10 n) := rfl
  simp [pretty, text]

theorem toList_pretty_string (text : String) :
    (pretty indent (.string text)).toList = (quote text).toList := by
  simp [pretty, scalar]

theorem toList_pretty_array (items : List Value) :
    (pretty indent (.array items)).toList =
      blockText '[' ']' indent.toList (items.map fun v => (pretty (indent ++ "  ") v).toList) := by
  rw [pretty, toList_block (by rfl) (by rfl), prettyItems_eq_map, List.map_map]
  rfl

theorem toList_pretty_table (entries : List (String × Value)) :
    (pretty indent (.table entries)).toList =
      blockText '\x7b' '\x7d' indent.toList (entries.map fun x => (prettyEntry (indent ++ "  ") x).toList) := by
  rw [pretty, toList_block (by rfl) (by rfl), prettyEntries_eq_map, List.map_map]
  rfl

end Kinds

/-- The character that stands for those with which a kind of value begins. -/
def mark : Value → Char
  | .boolean _ => 't'
  | .integer _ => '0'
  | .string _ => '"'
  | .array _ => '['
  | .table _ => '\x7b'
  | _ => 'n'

/-- The character that stands for one with which a value begins. -/
def markOf (c : Char) : Char := if c = 'f' then 't' else if c.isDigit then '0' else c

/-- How a value begins tells its kind. -/
theorem exists_first {v : Value} (hv : Plain v) (indent : String) :
    ∃ c rest, (pretty indent v).toList = c :: rest ∧ markOf c = mark v := by
  cases hv with
  | boolean b =>
    rw [toList_pretty_boolean]
    cases b
    · exact ⟨'f', _, rfl, rfl⟩
    · exact ⟨'t', _, rfl, rfl⟩
  | integer n =>
    rw [toList_pretty_integer]
    obtain ⟨c, rest, hn⟩ := List.exists_cons_of_ne_nil (Nat.toDigits_ne_nil (n := n) (b := 10))
    have digit : c.isDigit :=
      Nat.isDigit_of_mem_toDigits (by decide) (by decide) (hn ▸ List.mem_cons_self)
    have noWord : c ≠ 'f' := by
      rintro rfl
      cases digit
    exact ⟨c, rest, hn, by rw [markOf, if_neg noWord, if_pos digit, mark]⟩
  | string text =>
    rw [toList_pretty_string, toList_quote]
    exact ⟨'"', _, rfl, rfl⟩
  | @array items plain =>
    rw [toList_pretty_array]
    cases items with
    | nil => exact ⟨'[', _, rfl, rfl⟩
    | cons v rest => exact ⟨'[', _, rfl, rfl⟩
  | @table entries plain =>
    rw [toList_pretty_table]
    cases entries with
    | nil => exact ⟨'\x7b', _, rfl, rfl⟩
    | cons x rest => exact ⟨'\x7b', _, rfl, rfl⟩

/-- So values whose texts begin alike are of one kind. -/
theorem mark_eq {v w : Value} (hv : Plain v) (hw : Plain w) {indent : String} {r s : List Char}
    (h : (pretty indent v).toList ++ r = (pretty indent w).toList ++ s) : mark v = mark w := by
  obtain ⟨c, rest, hc, kind⟩ := exists_first hv indent
  obtain ⟨d, rest', hd, kind'⟩ := exists_first hw indent
  rw [hc, hd] at h
  rw [← kind, ← kind', (List.cons.inj h).1]

/-- An entry is told by its line, if its value is. -/
theorem tells_prettyEntry {indent : String} {x : String × Value}
    (told : Tells Plain (pretty indent) x.2) :
    Tells (fun x => Plain x.2) (prettyEntry indent) x := by
  intro y r s hy hr hs h
  simp only [prettyEntry, String.toList_append, List.append_assoc] at h
  obtain ⟨name, others⟩ := quote_append_inj h
  obtain ⟨value, rfl⟩ := told y.2 r s hy hr hs (List.append_cancel_left others)
  exact ⟨Prod.ext name value, rfl⟩

/-- Every plain value is told by its text at any indent. -/
theorem tells_pretty {v : Value} (hv : Plain v) (indent : String) : Tells Plain (pretty indent) v := by
  induction hv generalizing indent with
  | boolean b =>
    intro w r s hw hr hs h
    have kinds := mark_eq (.boolean b) hw h
    cases hw with
    | boolean b' =>
      rw [toList_pretty_boolean, toList_pretty_boolean] at h
      cases b <;> cases b' <;> simp_all
    | _ => simp [mark] at kinds
  | integer n =>
    intro w r s hw hr hs h
    have kinds := mark_eq (.integer n) hw h
    cases hw with
    | integer n' =>
      rw [toList_pretty_integer, toList_pretty_integer] at h
      obtain ⟨rfl, rfl⟩ := toDigits_append_inj hr hs h
      exact ⟨rfl, rfl⟩
    | _ => simp [mark] at kinds
  | string text =>
    intro w r s hw hr hs h
    have kinds := mark_eq (.string text) hw h
    cases hw with
    | string text' =>
      rw [toList_pretty_string, toList_pretty_string] at h
      obtain ⟨rfl, rfl⟩ := quote_append_inj h
      exact ⟨rfl, rfl⟩
    | _ => simp [mark] at kinds
  | array plain ih =>
    intro w r s hw hr hs h
    have kinds := mark_eq (.array plain) hw h
    cases hw with
    | array plain' =>
      rw [toList_pretty_array, toList_pretty_array] at h
      have told := fun v hv => ih v hv (indent ++ "  ")
      obtain ⟨rfl, rfl⟩ := blockText_append_inj (by decide) told plain' h
      exact ⟨rfl, rfl⟩
    | _ => simp [mark] at kinds
  | table plain ih =>
    intro w r s hw hr hs h
    have kinds := mark_eq (.table plain) hw h
    cases hw with
    | table plain' =>
      rw [toList_pretty_table, toList_pretty_table] at h
      have told := fun x hx => tells_prettyEntry (ih x hx (indent ++ "  "))
      obtain ⟨rfl, rfl⟩ := blockText_append_inj (by decide) told plain' h
      exact ⟨rfl, rfl⟩
    | _ => simp [mark] at kinds

/-- Plain values that are printed alike are the same. -/
theorem eq_of_pretty_eq {v w : Value} (hv : Plain v) (hw : Plain w) {indent : String}
    (h : pretty indent v = pretty indent w) : v = w :=
  (tells_pretty hv indent w [] [] hw rfl rfl (by rw [h])).1

end NearestWins.Json
