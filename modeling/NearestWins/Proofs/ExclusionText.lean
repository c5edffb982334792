import NearestWins.Exclusion
import NearestWins.Proofs.SeparatedText

/-!
# Exclusions and their texts

A text that names an exclusion has two or four fields, none of them empty: two where classifier and
extension are left to the wildcard. The exclusions that can be written are the `Expressible` ones, whose
fields are not empty and hold no colon. Main statement: reading the text of an exclusion gives it back
exactly if it is expressible, and reading gives no other exclusions, so that each has one text of its own.
-/

namespace NearestWins.Exclusion

/-! ## Reading -/

/-- Whether a text names an exclusion: it has two or four fields, none of them empty. -/
def IsText (text : String) : Prop :=
  ((colonFields text).length = 2 ∨ (colonFields text).length = 4) ∧ ∀ field ∈ colonFields text, field ≠ ""

instance decidableIsText (text : String) : Decidable (IsText text) :=
  inferInstanceAs (Decidable (_ ∧ _))

/-- The exclusion that the fields of a text name. -/
def ofText? (text : String) : Option Exclusion := ofFields? (colonFields text)

theorem isSome_ofFields?_iff (fields : List String) :
    (ofFields? fields).isSome ↔ fields.length = 2 ∨ fields.length = 4 := by
  unfold ofFields?
  split
  · simp
  · simp
  · rename_i htwo hfour
    simp only [Option.isSome_none, Bool.false_eq_true, false_iff, not_or]
    constructor
    · intro hlength
      match fields, hlength with
      | [a, b], _ => exact htwo a b rfl
    · intro hlength
      match fields, hlength with
      | [a, b, c, d], _ => exact hfour a b c d rfl

theorem any_isEmpty_iff (fields : List String) :
    fields.any String.isEmpty = true ↔ ¬ ∀ field ∈ fields, field ≠ "" := by
  simp [String.isEmpty_iff]

theorem parse_of_isText {text : String} (h : IsText text) : ∃ e, ofText? text = some e ∧ parse text = .ok e := by
  obtain ⟨hcount, hfilled⟩ := h
  obtain ⟨e, he⟩ := Option.isSome_iff_exists.1 ((isSome_ofFields?_iff _).2 hcount)
  have hany : ¬ (colonFields text).any String.isEmpty = true := fun hany => (any_isEmpty_iff _).1 hany hfilled
  refine ⟨e, he, ?_⟩
  simp only [parse, if_neg hany, he]

theorem parse_of_not_isText {text : String} (h : ¬ IsText text) :
    parse text = .error (.invalidExclusion text) := by
  unfold parse
  dsimp only
  split
  · rfl
  · rename_i hany
    have hfilled := Decidable.not_not.1 (mt (any_isEmpty_iff _).2 hany)
    have hcount : ¬ ((colonFields text).length = 2 ∨ (colonFields text).length = 4) :=
      fun hcount => h ⟨hcount, hfilled⟩
    rw [← isSome_ofFields?_iff, Option.not_isSome_iff_eq_none] at hcount
    rw [hcount]

variable {e : Exclusion} {text : String}

theorem parse_eq_ok_iff : parse text = .ok e ↔ IsText text ∧ ofText? text = some e := by
  by_cases h : IsText text
  · obtain ⟨named, hnamed, hparse⟩ := parse_of_isText h
    simp [h, hnamed, hparse]
  · simp [h, parse_of_not_isText h]

/-- Reading accepts the texts of two or four fields, none of them empty. -/
theorem exists_parse_iff :
    (∃ e, parse text = .ok e) ↔ ∃ fields, SplitsInto text fields ∧
      (fields.length = 2 ∨ fields.length = 4) ∧ ∀ field ∈ fields, field ≠ "" := by
  constructor
  · rintro ⟨e, h⟩
    exact ⟨_, splitsInto_colonFields text, (parse_eq_ok_iff.mp h).1⟩
  · rintro ⟨fields, hsplit, hfields⟩
    have htext : IsText text := by rwa [IsText, splitsInto_iff.mp hsplit]
    obtain ⟨e, -, h⟩ := parse_of_isText htext
    exact ⟨e, h⟩

/-! ## Writing -/

/-- An exclusion that a text can name. -/
structure Expressible (e : Exclusion) : Prop where
  filled : ∀ field ∈ [e.groupId, e.artifactId, e.classifier, e.extension], field ≠ ""
  no_colon : ∀ field ∈ [e.groupId, e.artifactId, e.classifier, e.extension], ':' ∉ field.toList

/-- The fields of the text of an exclusion. -/
def fields (e : Exclusion) : List String :=
  if e.classifier = wildcard ∧ e.extension = wildcard then [e.groupId, e.artifactId]
  else [e.groupId, e.artifactId, e.classifier, e.extension]

theorem text_eq (e : Exclusion) : e.text = ":".intercalate e.fields := by
  rw [text, fields]
  split <;> simp [String.intercalate_cons_cons, String.append_assoc]

theorem mem_of_mem_fields {field : String} (h : field ∈ e.fields) :
    field ∈ [e.groupId, e.artifactId, e.classifier, e.extension] := by
  rw [fields] at h
  split at h
  · simp only [List.mem_cons, List.not_mem_nil, or_false] at h ⊢
    exact h.imp_right .inl
  · exact h

/-- Nothing of an exclusion is lost in its fields. -/
theorem ofFields?_fields (e : Exclusion) : ofFields? e.fields = some e := by
  obtain ⟨group, artifact, classifier, extension⟩ := e
  rw [fields]
  split
  next h =>
    obtain ⟨rfl, rfl⟩ := h
    rfl
  next => rfl

/-- The text of an expressible exclusion is read back. -/
theorem Expressible.parse_text (h : e.Expressible) : parse e.text = .ok e := by
  have hsplit : SplitsInto e.text e.fields :=
    { ne_nil := by rw [fields]; split <;> simp
      text_eq := (text_eq e).symm
      no_colon := fun field hfield => h.no_colon field (mem_of_mem_fields hfield) }
  rw [parse_eq_ok_iff, IsText, ofText?, splitsInto_iff.mp hsplit, ofFields?_fields]
  have hcount : e.fields.length = 2 ∨ e.fields.length = 4 := by
    rw [← isSome_ofFields?_iff, ofFields?_fields, Option.isSome_some]
  exact ⟨⟨hcount, fun field hfield => h.filled field (mem_of_mem_fields hfield)⟩, rfl⟩

theorem mem_of_ofFields? {fields : List String} (h : ofFields? fields = some e) :
    ∀ field ∈ [e.groupId, e.artifactId, e.classifier, e.extension], field ∈ fields ∨ field = wildcard := by
  unfold ofFields? at h
  split at h
  case h_3 => contradiction
  all_goals
    obtain rfl := Option.some.inj h
    simp

/-- What is read is expressible: its fields are fields of a text that was cut at every colon, or wildcards. -/
theorem expressible_of_parse (h : parse text = .ok e) : e.Expressible := by
  obtain ⟨⟨-, hfilled⟩, hnamed⟩ := parse_eq_ok_iff.mp h
  have hfields := mem_of_ofFields? hnamed
  have hsplit := (splitsInto_colonFields text).no_colon
  constructor
  · intro field hfield
    rcases hfields field hfield with hmem | rfl
    · exact hfilled field hmem
    · decide
  · intro field hfield
    rcases hfields field hfield with hmem | rfl
    · exact hsplit field hmem
    · decide

/-! ## Short texts and long ones -/

/-- The wildcards that a text of two fields leaves out can be written behind it. -/
theorem splitsInto_long {group artifact : String} (h : SplitsInto text [group, artifact]) :
    SplitsInto (text ++ ":*:*") [group, artifact, wildcard, wildcard] := by
  obtain ⟨-, rfl, hcolon⟩ := h
  have hwildcard : ':' ∉ wildcard.toList := by decide
  refine ⟨by simp, ?_, ?_⟩
  · simp [String.intercalate_cons_cons, String.append_assoc, wildcard]
  · simp_all

theorem excludes_short (group artifact : String) (a : Artifact) :
    Exclusion.excludes { groupId := group, artifactId := artifact } a =
      (fieldMatches group a.groupId && fieldMatches artifact a.artifactId) := by
  simp [excludes, fieldMatches]

/-- A text of two fields and the long one that spells its wildcards out name the same exclusion. -/
theorem parse_short {group artifact : String} (h : SplitsInto text [group, artifact]) (hgroup : group ≠ "")
    (hartifact : artifact ≠ "") :
    parse text = .ok { groupId := group, artifactId := artifact } ∧
      parse (text ++ ":*:*") = .ok { groupId := group, artifactId := artifact } := by
  have hwildcard : wildcard ≠ "" := by decide
  constructor
  · rw [parse_eq_ok_iff, IsText, ofText?, splitsInto_iff.mp h]
    simp [hgroup, hartifact, ofFields?]
  · rw [parse_eq_ok_iff, IsText, ofText?, splitsInto_iff.mp (splitsInto_long h)]
    simp [hgroup, hartifact, hwildcard, ofFields?]

/-! ## The correspondence -/

/-- Texts and expressible exclusions correspond: an exclusion is read back from its text exactly if it is
expressible, whatever is read is expressible, exclusions that were read have the same text only if they are
the same, and exactly the texts of two or four fields, none of them empty, are read. A short text names the
exclusion that its long form names, which meets whatever has that group and that artifact. -/
theorem text_corresponds :
    (∀ e : Exclusion, parse e.text = .ok e ↔ e.Expressible) ∧
    (∀ text e, parse text = .ok e → e.Expressible) ∧
    (∀ first second e d, parse first = .ok e → parse second = .ok d → (e.text = d.text ↔ e = d)) ∧
    (∀ text, (∃ e, parse text = .ok e) ↔ ∃ fields, SplitsInto text fields ∧
      (fields.length = 2 ∨ fields.length = 4) ∧ ∀ field ∈ fields, field ≠ "") ∧
    ∀ text group artifact, SplitsInto text [group, artifact] → group ≠ "" → artifact ≠ "" →
      ∃ e, parse text = .ok e ∧ parse (text ++ ":*:*") = .ok e ∧
        ∀ a, e.excludes a = (fieldMatches group a.groupId && fieldMatches artifact a.artifactId) := by
  refine ⟨fun e => ⟨expressible_of_parse, Expressible.parse_text⟩, fun text e => expressible_of_parse,
    ?_, fun text => exists_parse_iff, ?_⟩
  · intro first second e d he hd
    refine ⟨fun htext => ?_, congrArg text⟩
    have hread := (expressible_of_parse he).parse_text
    rw [htext, (expressible_of_parse hd).parse_text] at hread
    exact (Except.ok.inj hread).symm
  · intro text group artifact hsplit hgroup hartifact
    obtain ⟨hshort, hlong⟩ := parse_short hsplit hgroup hartifact
    exact ⟨_, hshort, hlong, excludes_short group artifact⟩

/-- The text that leaves everything to wildcards, in both its forms. -/
theorem text_corresponds_sample :
    let e : Exclusion := { groupId := "*", artifactId := "*" }
    parse "*:*:*:*" = .ok e ∧ e.Expressible ∧ e.text = "*:*" ∧ parse "*:*" = .ok e ∧
      ∃ d, parse "*:*" = .ok d ∧ parse "*:*:*:*" = .ok d ∧ ∀ a, d.excludes a = true := by
  have hlong : parse "*:*:*:*" = .ok { groupId := "*", artifactId := "*" } :=
    parse_eq_ok_iff.mpr ⟨by decide +kernel, by decide +kernel⟩
  have hexpressible := text_corresponds.2.1 _ _ hlong
  have hsplit : SplitsInto "*:*" ["*", "*"] := splitsInto_iff.mpr (by decide +kernel)
  obtain ⟨d, hd, hdlong, hmatch⟩ :=
    text_corresponds.2.2.2.2 "*:*" "*" "*" hsplit (by decide) (by decide)
  exact ⟨hlong, hexpressible, rfl, (text_corresponds.1 _).mpr hexpressible, d, hd, hdlong, hmatch⟩

end NearestWins.Exclusion
