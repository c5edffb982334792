import NearestWins.Text.Fields

/-!
# Separated texts

A text that is written as fields with colons between them can be cut back into its fields as long as none
of them holds a colon itself. `SplitsInto` states what the fields of a text are without saying how they
are found. Main statement: every text has fields, and these are the ones that cutting it gives.
-/

namespace NearestWins

/-- The text is these fields, with a colon between neighbours and none inside a field. -/
structure SplitsInto (text : String) (fields : List String) : Prop where
  ne_nil : fields ≠ []
  text_eq : ":".intercalate fields = text
  no_colon : ∀ field ∈ fields, ':' ∉ field.toList

theorem splitFields_eq_splitOn (sep : Char) (text : List Char) :
    splitFields sep text = text.splitOn sep := by
  induction text with
  | nil => rfl
  | cons c rest ih =>
    rw [splitFields, List.splitOn, List.splitOnP_cons_eq_if_modifyHead, ← List.splitOn, ← ih]
    obtain ⟨field, fields, hsplit⟩ := List.exists_cons_of_ne_nil (splitFields_ne_nil sep rest)
    simp [hsplit]

theorem map_toList_colonFields (text : String) :
    (colonFields text).map String.toList = text.toList.splitOn ':' := by
  rw [colonFields, List.map_map, splitFields_eq_splitOn]
  simp [Function.comp_def]

/-- Cutting a text at its colons gives its fields, and no other list of fields is one. -/
theorem splitsInto_iff {text : String} {fields : List String} :
    SplitsInto text fields ↔ colonFields text = fields := by
  constructor
  · rintro ⟨hne, rfl, hcolon⟩
    have hlists : ∀ field ∈ fields.map String.toList, ':' ∉ field := by simpa using hcolon
    have hcut := List.splitOn_intercalate ':' hlists (by simpa using hne)
    refine (List.map_inj_right fun _ _ => String.toList_inj.mp).mp ?_
    rw [map_toList_colonFields, String.toList_intercalate]
    exact hcut
  · rintro rfl
    refine ⟨?_, ?_, ?_⟩
    · simp [colonFields, splitFields_ne_nil]
    · rw [← String.toList_inj, String.toList_intercalate, map_toList_colonFields]
      exact List.intercalate_splitOn ':'
    · intro field hfield
      obtain ⟨chars, hchars, rfl⟩ := List.mem_map.mp hfield
      rw [String.toList_ofList]
      exact sep_notMem_of_mem_splitFields hchars

theorem splitsInto_colonFields (text : String) : SplitsInto text (colonFields text) :=
  splitsInto_iff.mpr rfl

end NearestWins
