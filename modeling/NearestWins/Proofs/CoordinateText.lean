import NearestWins.Artifact.Coordinate
import NearestWins.Proofs.SeparatedText

/-!
# Coordinates and artifacts

A coordinate says everything about an artifact that has a name, no colon in its fields and no properties;
these are the `Expressible` artifacts. Main statement: reading the coordinate of an artifact gives the
artifact back exactly if it is expressible, reading gives no other artifacts, and it succeeds on the texts
of two to five fields that name a group and an artifact.
-/

namespace NearestWins.Artifact

/-- An artifact that a coordinate can express. -/
structure Expressible (a : Artifact) : Prop where
  groupId_ne : a.groupId ≠ ""
  artifactId_ne : a.artifactId ≠ ""
  no_colon : ∀ field ∈ [a.groupId, a.artifactId, a.classifier, a.extension, a.version],
    ':' ∉ field.toList
  no_properties : a.properties = ∅

/-- The fields of the coordinate of an artifact. -/
def fields (a : Artifact) : List String :=
  [a.groupId, a.artifactId, a.extension] ++ (if a.classifier = "" then [] else [a.classifier]) ++
    [a.version]

variable {a : Artifact} {text : String}

theorem coordinate_eq (a : Artifact) : a.coordinate = ":".intercalate a.fields := by
  rw [coordinate, fields]
  by_cases h : a.classifier = ""
  · simp [h, String.intercalate_cons_cons, String.append_assoc]
  · have hempty : a.classifier.isEmpty = false := by simpa [String.isEmpty_iff] using h
    simp [h, hempty, String.intercalate_cons_cons, String.append_assoc]

theorem Expressible.splitsInto (h : a.Expressible) : SplitsInto a.coordinate a.fields where
  ne_nil := by simp [fields]
  text_eq := (coordinate_eq a).symm
  no_colon := by
    intro field hfield
    refine h.no_colon field ?_
    rw [fields] at hfield
    split at hfield <;> simp at hfield ⊢ <;> grind

/-! ## Fields and artifacts -/

/-- Reading the fields of a coordinate loses nothing but the properties. -/
theorem ofFields?_fields (a : Artifact) : ofFields? a.fields = some { a with properties := ∅ } := by
  obtain ⟨group, artifact, classifier, extension, version, properties⟩ := a
  rw [fields]
  by_cases h : classifier = ""
  · subst h
    rfl
  · simp [ofFields?, h]

/-- Two to five fields name an artifact: its group and its artifact are the first two, and its other texts are
fields or the defaults. -/
theorem ofFields?_eq_some {fields : List String} (h : ofFields? fields = some a) :
    (∃ others, fields = a.groupId :: a.artifactId :: others ∧ others.length ≤ 3) ∧
      (∀ field ∈ [a.classifier, a.extension, a.version],
        field ∈ fields ∨ field = "" ∨ field = defaultExtension) ∧ a.properties = ∅ := by
  unfold ofFields? at h
  split at h
  case h_5 => contradiction
  all_goals
    obtain rfl := Option.some.inj h
    simp

theorem exists_ofFields? (group artifact : String) {others : List String} (h : others.length ≤ 3) :
    ∃ a, ofFields? (group :: artifact :: others) = some a ∧ a.groupId = group ∧
      a.artifactId = artifact := by
  match others, h with
  | [], _ => exact ⟨_, rfl, rfl, rfl⟩
  | [_], _ => exact ⟨_, rfl, rfl, rfl⟩
  | [_, _], _ => exact ⟨_, rfl, rfl, rfl⟩
  | [_, _, _], _ => exact ⟨_, rfl, rfl, rfl⟩

/-! ## Reading -/

theorem parse_eq_ok_iff :
    parse text = .ok a ↔
      ofFields? (colonFields text) = some a ∧ a.groupId ≠ "" ∧ a.artifactId ≠ "" := by
  unfold parse
  cases h : ofFields? (colonFields text) with
  | none => simp
  | some b =>
    simp only [Bool.or_eq_true, String.isEmpty_iff, Option.some.injEq]
    grind

/-- What is read is expressible: its texts are fields of a text that was cut at every colon, or defaults. -/
theorem expressible_of_parse (h : parse text = .ok a) : a.Expressible := by
  obtain ⟨hfields, hgroup, hartifact⟩ := parse_eq_ok_iff.mp h
  obtain ⟨⟨others, hcut, -⟩, htexts, hproperties⟩ := ofFields?_eq_some hfields
  have hsplit := (splitsInto_colonFields text).no_colon
  have hdefaults : ':' ∉ "".toList ∧ ':' ∉ defaultExtension.toList := by decide
  refine ⟨hgroup, hartifact, ?_, hproperties⟩
  intro field hfield
  rcases List.mem_cons.mp hfield with rfl | hfield
  · exact hsplit _ (by simp [hcut])
  rcases List.mem_cons.mp hfield with rfl | hfield
  · exact hsplit _ (by simp [hcut])
  rcases htexts field hfield with hmem | rfl | rfl
  · exact hsplit field hmem
  · exact hdefaults.1
  · exact hdefaults.2

/-- The coordinate of an expressible artifact is read back. -/
theorem Expressible.parse_coordinate (h : a.Expressible) : parse a.coordinate = .ok a := by
  refine parse_eq_ok_iff.mpr ⟨?_, h.groupId_ne, h.artifactId_ne⟩
  rw [splitsInto_iff.mp h.splitsInto, ofFields?_fields, ← h.no_properties]

/-- Reading accepts the texts of two to five fields of which the first two are not empty. -/
theorem exists_parse_iff :
    (∃ a, parse text = .ok a) ↔ ∃ group artifact others,
      SplitsInto text (group :: artifact :: others) ∧ others.length ≤ 3 ∧ group ≠ "" ∧
        artifact ≠ "" := by
  constructor
  · rintro ⟨a, h⟩
    obtain ⟨hfields, hgroup, hartifact⟩ := parse_eq_ok_iff.mp h
    obtain ⟨⟨others, hcut, hcount⟩, -⟩ := ofFields?_eq_some hfields
    exact ⟨_, _, others, splitsInto_iff.mpr hcut, hcount, hgroup, hartifact⟩
  · rintro ⟨group, artifact, others, hsplit, hcount, hgroup, hartifact⟩
    obtain ⟨a, hfields, rfl, rfl⟩ := exists_ofFields? group artifact hcount
    exact ⟨a, parse_eq_ok_iff.mpr ⟨splitsInto_iff.mp hsplit ▸ hfields, hgroup, hartifact⟩⟩

/-- Coordinates and expressible artifacts correspond: an artifact is read back from its coordinate exactly if it
is expressible, whatever is read is expressible, so reading, writing and reading again is reading, and exactly
the texts of two to five fields with a group and an artifact are read. -/
theorem coordinate_corresponds :
    (∀ a : Artifact, parse a.coordinate = .ok a ↔ a.Expressible) ∧
    (∀ text a, parse text = .ok a → a.Expressible) ∧
    (∀ text, (parse text >>= fun a => parse a.coordinate) = parse text) ∧
    ∀ text, (∃ a, parse text = .ok a) ↔ ∃ group artifact others,
      SplitsInto text (group :: artifact :: others) ∧ others.length ≤ 3 ∧ group ≠ "" ∧
        artifact ≠ "" := by
  refine ⟨fun a => ⟨expressible_of_parse, Expressible.parse_coordinate⟩,
    fun text a => expressible_of_parse, fun text => ?_, fun text => exists_parse_iff⟩
  cases h : parse text with
  | error problem => rfl
  | ok a => exact (expressible_of_parse h).parse_coordinate

/-- Three empty fields behind the name: an artifact without classifier, extension and version, which is written
with two. -/
theorem coordinate_corresponds_sample :
    let a : Artifact := { groupId := "g", artifactId := "a", extension := "" }
    parse "g:a:::" = .ok a ∧ a.Expressible ∧ a.coordinate = "g:a::" ∧ parse "g:a::" = .ok a := by
  have hread : parse "g:a:::" = .ok { groupId := "g", artifactId := "a", extension := "" } :=
    parse_eq_ok_iff.mpr ⟨by decide +kernel, by decide, by decide⟩
  have hexpressible := coordinate_corresponds.2.1 _ _ hread
  exact ⟨hread, hexpressible, by decide +kernel, (coordinate_corresponds.1 _).mpr hexpressible⟩

end NearestWins.Artifact
