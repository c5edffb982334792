/-!
# Separated fields

Coordinates and exclusions are written as fields with a separator between them. `splitFields` cuts
a text at every separator and keeps empty fields, so a text with `n` separators always has `n + 1`
fields.
-/

namespace NearestWins

/-- The fields of a text: the stretches between separators, empty ones included. -/
def splitFields (sep : Char) : List Char → List (List Char)
  | [] => [[]]
  | c :: rest =>
    if c = sep then [] :: splitFields sep rest
    else match splitFields sep rest with
      | [] => [[c]]
      | field :: fields => (c :: field) :: fields

theorem splitFields_ne_nil (sep : Char) (text : List Char) : splitFields sep text ≠ [] := by
  cases text with
  | nil => simp [splitFields]
  | cons c rest =>
    rw [splitFields]
    split
    · simp
    · split <;> simp

/-- No field holds the separator. -/
theorem sep_notMem_of_mem_splitFields {sep : Char} {text field : List Char}
    (h : field ∈ splitFields sep text) : sep ∉ field := by
  induction text generalizing field with
  | nil => simp_all [splitFields]
  | cons c rest ih =>
    rw [splitFields] at h
    obtain ⟨first, fields, hs⟩ := List.exists_cons_of_ne_nil (splitFields_ne_nil sep rest)
    rw [hs] at ih h
    split at h
    · rcases List.mem_cons.1 h with rfl | h
      · simp
      · exact ih h
    · rename_i hc
      rcases List.mem_cons.1 h with rfl | h
      · simp [Ne.symm hc, ih (List.mem_cons_self ..)]
      · exact ih (List.mem_cons_of_mem _ h)

/-- The fields of a text that are separated by colons. -/
def colonFields (text : String) : List String :=
  (splitFields ':' text.toList).map String.ofList

end NearestWins
