import NearestWins.Data.Records
import NearestWins.Proofs.JsonText
import NearestWins.Proofs.Relisting

/-!
# Nothing is lost in writing

Records leave out the fields that are empty, and each comes back as what is empty for it. The extension has
a default that is not empty and is therefore always written. For each record, `part` keeps the fields of
some names and leaves the others blank: what is known when the entries under these names were read. Main
statement: reading what was written for a dependency gives it back, and neither the data nor the text of two
resolved forests agree unless the forests do.
-/

namespace NearestWins

@[simp] theorem mem_textEntry {name text : String} {x : String × Value} :
    x ∈ textEntry name text ↔ text ≠ "" ∧ x = (name, .string text) := by
  rw [textEntry]
  split <;> simp_all

@[simp] theorem mem_optionEntry {α : Type} {name : String} {write : α → Value} {o : Option α}
    {x : String × Value} : x ∈ optionEntry name write o ↔ ∃ a, o = some a ∧ x = (name, write a) := by
  cases o <;> simp [optionEntry]

/-- A field may be taken for blank where it is. -/
theorem ite_blank_eq {α : Type} {P : Prop} [Decidable P] {x blank : α} (h : x ≠ blank → P) :
    (if P then x else blank) = x := by
  by_cases hP : P
  · rw [if_pos hP]
  · rw [if_neg hP]
    exact (of_not_not (mt h hP)).symm

namespace Properties

variable {properties : Properties}

/-- The properties of some names. -/
def part (properties : Properties) (names : List String) : Properties :=
  properties.filter fun key _ => key ∈ names

theorem getElem?_part (properties : Properties) (names : List String) (key : String) :
    (properties.part names)[key]? = if key ∈ names then properties[key]? else none := by
  rw [part, Std.ExtTreeMap.getElem?_filter']
  by_cases hk : key ∈ names
  · cases properties[key]? <;> simp [hk]
  · cases properties[key]? <;> simp [hk]

theorem part_nil (properties : Properties) : properties.part [] = ∅ := by
  apply Std.ExtTreeMap.ext_getElem?
  intro key
  simp [getElem?_part]

theorem insert_part {key text : String} (h : properties[key]? = some text) (names : List String) :
    (properties.part names).insert key text = properties.part (key :: names) := by
  apply Std.ExtTreeMap.ext_getElem?
  intro other
  rw [Std.ExtTreeMap.getElem?_insert, getElem?_part, getElem?_part]
  by_cases hk : key = other
  · subst hk
    simp [h]
  · simp [hk, Ne.symm hk]

theorem part_eq_self {names : List String} (h : ∀ x ∈ properties.toList, x.1 ∈ names) :
    properties.part names = properties := by
  apply Std.ExtTreeMap.ext_getElem?
  intro key
  rw [getElem?_part]
  cases hp : properties[key]? with
  | none => simp
  | some text => simp [h _ (Std.ExtTreeMap.mem_toList_iff_getElem?_eq_some.2 hp)]

/-- Properties are read back from their entries in any order. -/
theorem fitTextMap_of_relisted {w : Value} {format : DataFormat} (h : properties.toValue.Relisted w) :
    w.fitTextMap format = .ok properties := by
  obtain ⟨entries, rfl, alike⟩ := h.table_eq
  have step : ∀ x ∈ entries, ∀ names,
      (properties.part names).insert x.1 <$> x.2.fitString format =
        .ok (properties.part (x.1 :: names)) := by
    intro x hx names
    obtain ⟨v, hv, related⟩ := alike.exists_left hx
    obtain ⟨⟨key, text⟩, hmem, heq⟩ := List.mem_map.1 hv
    obtain ⟨rfl, rfl⟩ := Prod.mk.inj heq
    rw [related.eq_of_isLeaf (.inl rfl), Value.fitString, Fit.map_ok,
      insert_part (Std.ExtTreeMap.mem_toList_iff_getElem?_eq_some.1 hmem)]
  have whole : properties.part ((entries.map Prod.fst).reverse ++ []) = properties := by
    apply part_eq_self
    intro x hx
    obtain ⟨w, hw, -⟩ := alike.exists_right (List.mem_map_of_mem hx)
    exact List.mem_append_left _ (List.mem_reverse.2 (List.mem_map_of_mem hw))
  change entries.foldlM _ ∅ = _
  rw [← properties.part_nil, foldlM_eq_ok_of_part properties.part step [], whole]

end Properties

/-! ## Dependencies -/

namespace Artifact

variable {a : Artifact}

/-- The artifact with the fields of some names, blank in the others. -/
def part (a : Artifact) (names : List String) : Artifact where
  groupId := if "group_id" ∈ names then a.groupId else ""
  artifactId := if "artifact_id" ∈ names then a.artifactId else ""
  classifier := if "classifier" ∈ names then a.classifier else ""
  extension := if "extension" ∈ names then a.extension else defaultExtension
  version := if "version" ∈ names then a.version else ""
  properties := if "properties" ∈ names then a.properties else ∅

/-- Five texts, two of which may be left out, and a table. -/
theorem mem_listed {name : String} {v : Value} :
    (name, v) ∈ a.toValue.listed ↔
      ((name = "group_id" ∧ v = .string a.groupId) ∨ (name = "artifact_id" ∧ v = .string a.artifactId) ∨
        (a.classifier ≠ "" ∧ name = "classifier" ∧ v = .string a.classifier) ∨
        (name = "extension" ∧ v = .string a.extension) ∨
        (a.version ≠ "" ∧ name = "version" ∧ v = .string a.version)) ∨
      (a.properties ≠ ∅ ∧ name = "properties" ∧ v = a.properties.toValue) := by
  simp [toValue, Value.listed, Value.entries?, or_assoc]

/-- An artifact is read back from its entries in any order. -/
theorem fit_of_relisted {w : Value} {format : DataFormat} (h : a.toValue.Relisted w) :
    fit format w = .ok a := by
  refine Schema.fit_of_relisted a.part ?_ ?_ ?_ h
  · intro name v v' hv related names
    rcases (mem_listed (a := a)).1 hv with text | ⟨-, rfl, rfl⟩
    · rcases text with ⟨rfl, rfl⟩ | ⟨rfl, rfl⟩ | ⟨-, rfl, rfl⟩ | ⟨rfl, rfl⟩ | ⟨-, rfl, rfl⟩
      all_goals
        rw [related.eq_of_isLeaf (.inl rfl)]
        simp [Schema.readEntry, Schema.field?, schema, Value.fitString, part]
    · have read : v'.fitTextMap format = .ok a.properties := Properties.fitTextMap_of_relisted related
      simp [Schema.readEntry, Schema.field?, schema, part, read]
  · simp [schema]
  · intro names listed
    have group : "group_id" ∈ names := listed _ (.string a.groupId) (by simp)
    have artifact : "artifact_id" ∈ names := listed _ (.string a.artifactId) (by simp)
    have classifier (hne : a.classifier ≠ "") : "classifier" ∈ names :=
      listed _ (.string a.classifier) (by simp [hne])
    have extension : "extension" ∈ names := listed _ (.string a.extension) (by simp)
    have version (hne : a.version ≠ "") : "version" ∈ names :=
      listed _ (.string a.version) (by simp [hne])
    have properties (hne : a.properties ≠ ∅) : "properties" ∈ names :=
      listed _ a.properties.toValue (by simp [hne])
    rw [part, if_pos group, if_pos artifact, if_pos extension, ite_blank_eq classifier,
      ite_blank_eq version, ite_blank_eq properties]

/-- What is written for an artifact is told by its text. -/
theorem plain_toValue (a : Artifact) : Json.Plain a.toValue := by
  apply Json.Plain.table
  intro x hx
  rcases (mem_listed (a := a)).1 hx with text | ⟨-, -, hv⟩
  · rcases text with ⟨-, hv⟩ | ⟨-, hv⟩ | ⟨-, -, hv⟩ | ⟨-, hv⟩ | ⟨-, -, hv⟩
    all_goals
      rw [hv]
      exact .string _
  · rw [hv]
    apply Json.Plain.table
    intro x hx
    obtain ⟨⟨key, text⟩, -, rfl⟩ := List.mem_map.1 hx
    exact .string text

end Artifact

namespace Exclusion

variable {e : Exclusion}

/-- The exclusion with the fields of some names, wildcards in the others. -/
def part (e : Exclusion) (names : List String) : Exclusion where
  groupId := if "group_id" ∈ names then e.groupId else ""
  artifactId := if "artifact_id" ∈ names then e.artifactId else ""
  classifier := if "classifier" ∈ names then e.classifier else wildcard
  extension := if "extension" ∈ names then e.extension else wildcard

theorem mem_listed {name : String} {v : Value} :
    (name, v) ∈ e.toValue.listed ↔
      (name = "group_id" ∧ v = .string e.groupId) ∨ (name = "artifact_id" ∧ v = .string e.artifactId) ∨
      (name = "classifier" ∧ v = .string e.classifier) ∨
      (name = "extension" ∧ v = .string e.extension) := by
  simp [toValue, Value.listed, Value.entries?]

/-- An exclusion is read back from its entries in any order. -/
theorem fit_of_relisted {w : Value} {format : DataFormat} (h : e.toValue.Relisted w) :
    fit format w = .ok e := by
  refine Schema.fit_of_relisted e.part ?_ ?_ ?_ h
  · intro name v v' hv related names
    rcases (mem_listed (e := e)).1 hv with ⟨rfl, rfl⟩ | ⟨rfl, rfl⟩ | ⟨rfl, rfl⟩ | ⟨rfl, rfl⟩
    all_goals
      rw [related.eq_of_isLeaf (.inl rfl)]
      simp [Schema.readEntry, Schema.field?, schema, Value.fitString, part]
  · simp [schema]
  · intro names listed
    have group : "group_id" ∈ names := listed _ (.string e.groupId) (by simp)
    have artifact : "artifact_id" ∈ names := listed _ (.string e.artifactId) (by simp)
    have classifier : "classifier" ∈ names := listed _ (.string e.classifier) (by simp)
    have extension : "extension" ∈ names := listed _ (.string e.extension) (by simp)
    rw [part, if_pos group, if_pos artifact, if_pos classifier, if_pos extension]

theorem plain_toValue (e : Exclusion) : Json.Plain e.toValue := by
  apply Json.Plain.table
  intro x hx
  rcases (mem_listed (e := e)).1 hx with ⟨-, hv⟩ | ⟨-, hv⟩ | ⟨-, hv⟩ | ⟨-, hv⟩
  all_goals
    rw [hv]
    exact .string _

end Exclusion

/-- The exclusions of a set are read back in their order, as lists keep theirs. -/
theorem ExclusionSet.fitList_of_relisted {set : ExclusionSet} {w : Value} {format : DataFormat}
    (h : (Value.array (set.toList.map Exclusion.toValue)).Relisted w) :
    w.fitList format (Exclusion.fit format) = .ok set.toList := by
  obtain ⟨items, rfl, alike⟩ := h.array_eq
  apply Value.fitList_eq_ok
  rw [List.forall₂_map_left_iff] at alike
  exact alike.imp fun e v related => Exclusion.fit_of_relisted related

theorem ExclusionSet.ofList_toList (set : ExclusionSet) : Std.ExtTreeSet.ofList set.toList = set := by
  ext e
  simp

namespace Dependency

variable {d e : Dependency}

/-- The dependency with the fields of some names, blank in the others. -/
def part (d : Dependency) (names : List String) : Dependency where
  artifact := if "artifact" ∈ names then d.artifact else Artifact.blank
  scope := if "scope" ∈ names then d.scope else ""
  optional := if "optional" ∈ names then d.optional else none
  exclusions := if "exclusions" ∈ names then d.exclusions else ∅

theorem mem_listed {name : String} {v : Value} :
    (name, v) ∈ d.toValue.listed ↔
      (name = "artifact" ∧ v = d.artifact.toValue) ∨ (d.scope ≠ "" ∧ name = "scope" ∧ v = .string d.scope) ∨
      (∃ b, d.optional = some b ∧ name = "optional" ∧ v = .boolean b) ∨
      (d.exclusions ≠ ∅ ∧ name = "exclusions" ∧
        v = .array (d.exclusions.toList.map Exclusion.toValue)) := by
  simp [toValue, Value.listed, Value.entries?]

/-- A dependency is read back from its entries in any order, at both levels. -/
theorem fit_of_relisted {w : Value} {format : DataFormat} (h : d.toValue.Relisted w) :
    fit format w = .ok d := by
  refine Schema.fit_of_relisted d.part ?_ ?_ ?_ h
  · intro name v v' hv related names
    rcases (mem_listed (d := d)).1 hv with
      ⟨rfl, rfl⟩ | ⟨-, rfl, rfl⟩ | ⟨b, hb, rfl, rfl⟩ | ⟨-, rfl, rfl⟩
    · have read : Artifact.fit format v' = .ok d.artifact := Artifact.fit_of_relisted related
      simp [Schema.readEntry, Schema.field?, schema, part, read]
    · rw [related.eq_of_isLeaf (.inl rfl)]
      simp [Schema.readEntry, Schema.field?, schema, Value.fitString, part]
    · rw [related.eq_of_isLeaf (.inl rfl)]
      simp [Schema.readEntry, Schema.field?, schema, Value.fitOption, Value.fitBool, part, hb]
    · have read : v'.fitList format (Exclusion.fit format) = .ok d.exclusions.toList :=
        ExclusionSet.fitList_of_relisted related
      simp [Schema.readEntry, Schema.field?, schema, part, read, ExclusionSet.ofList_toList]
  · simp [schema]
  · intro names listed
    have artifact : "artifact" ∈ names := listed _ d.artifact.toValue (by simp)
    have scope (hne : d.scope ≠ "") : "scope" ∈ names := listed _ (.string d.scope) (by simp [hne])
    have optional (hne : d.optional ≠ none) : "optional" ∈ names := by
      obtain ⟨b, hb⟩ := Option.ne_none_iff_exists'.1 hne
      exact listed _ (.boolean b) (by simp [hb])
    have exclusions (hne : d.exclusions ≠ ∅) : "exclusions" ∈ names :=
      listed _ (.array (d.exclusions.toList.map Exclusion.toValue)) (by simp [hne])
    rw [part, if_pos artifact, ite_blank_eq scope, ite_blank_eq optional, ite_blank_eq exclusions]

/-- So dependencies with the same data are the same. -/
theorem eq_of_relisted (h : d.toValue.Relisted e.toValue) : d = e := by
  have fromD : fit .json e.toValue = .ok d := fit_of_relisted h
  have fromE : fit .json e.toValue = .ok e := fit_of_relisted (.refl e.toValue)
  rw [fromD] at fromE
  exact Except.ok.inj fromE

theorem plain_toValue (d : Dependency) : Json.Plain d.toValue := by
  apply Json.Plain.table
  intro x hx
  rcases (mem_listed (d := d)).1 hx with ⟨-, hv⟩ | ⟨-, -, hv⟩ | ⟨b, -, -, hv⟩ | ⟨-, -, hv⟩
  all_goals rw [hv]
  · exact d.artifact.plain_toValue
  · exact .string _
  · exact .boolean b
  · apply Json.Plain.array
    intro v hv
    obtain ⟨e, -, rfl⟩ := List.mem_map.1 hv
    exact e.plain_toValue

end Dependency

/-! ## Resolved nodes -/

namespace ManagedFields

theorem mem_listed {f : ManagedFields} {name : String} {v : Value} :
    (name, v) ∈ f.toValue.listed ↔
      (name = "version" ∧ v = .boolean f.version) ∨ (name = "scope" ∧ v = .boolean f.scope) ∨
      (name = "optional" ∧ v = .boolean f.optional) ∨ (name = "properties" ∧ v = .boolean f.properties) ∨
      (name = "exclusions" ∧ v = .boolean f.exclusions) := by
  simp [toValue, Value.listed, Value.entries?]

/-- Each flag is written under its own name, so flags with the same data are the same. -/
theorem eq_of_relisted {f g : ManagedFields} (h : f.toValue.Relisted g.toValue) : f = g := by
  have field (name : String) (b : Bool) := h.mem_listed_iff name (u := .boolean b) rfl
  have version : f.version = g.version := by simpa [mem_listed] using field "version" f.version
  have scope : f.scope = g.scope := by simpa [mem_listed] using field "scope" f.scope
  have optional : f.optional = g.optional := by simpa [mem_listed] using field "optional" f.optional
  have properties : f.properties = g.properties := by
    simpa [mem_listed] using field "properties" f.properties
  have exclusions : f.exclusions = g.exclusions := by
    simpa [mem_listed] using field "exclusions" f.exclusions
  cases f
  cases g
  simp_all

theorem plain_toValue (f : ManagedFields) : Json.Plain f.toValue := by
  apply Json.Plain.table
  intro x hx
  rcases (mem_listed (f := f)).1 hx with ⟨-, hv⟩ | ⟨-, hv⟩ | ⟨-, hv⟩ | ⟨-, hv⟩ | ⟨-, hv⟩
  all_goals
    rw [hv]
    exact .boolean _

end ManagedFields

namespace ResolvedNode

theorem mem_listed {n : ResolvedNode} {name : String} {v : Value} :
    (name, v) ∈ n.toValue.listed ↔
      (name = "dependency" ∧ v = n.dependency.toValue) ∨
      (∃ text, n.premanagedVersion = some text ∧ name = "premanaged_version" ∧ v = .string text) ∨
      (∃ text, n.premanagedScope = some text ∧ name = "premanaged_scope" ∧ v = .string text) ∨
      (name = "depth" ∧ v = .integer n.depth) ∨ (name = "managed" ∧ v = n.managed.toValue) ∨
      (name = "system" ∧ v = .boolean n.system) ∨
      (n.children ≠ [] ∧ name = "children" ∧ v = .array (toValues n.children)) := by
  obtain ⟨dependency, version, scope, depth, managed, system, children⟩ := n
  simp [toValue, Value.listed, Value.entries?]

theorem toValue_eq_table (n : ResolvedNode) : n.toValue = .table n.toValue.listed := by
  cases n
  rw [toValue]
  rfl

section Fields

variable {a b : ResolvedNode} (h : a.toValue.Relisted b.toValue)

include h

/-- The dependency is read back; what else a node says is compared entry by entry. -/
theorem dependency_eq : a.dependency = b.dependency := by
  have listed : ("dependency", a.dependency.toValue) ∈ a.toValue.listed := by simp [mem_listed]
  obtain ⟨v, hv, related⟩ := h.exists_right listed
  obtain rfl : v = b.dependency.toValue := by simpa [mem_listed] using hv
  exact Dependency.eq_of_relisted related

theorem premanaged_eq :
    a.premanagedVersion = b.premanagedVersion ∧ a.premanagedScope = b.premanagedScope := by
  have field (name text : String) := h.mem_listed_iff name (u := .string text) rfl
  constructor
  · apply Option.ext
    intro text
    simpa [mem_listed] using field "premanaged_version" text
  · apply Option.ext
    intro text
    simpa [mem_listed] using field "premanaged_scope" text

theorem depth_eq : a.depth = b.depth := by
  have field := h.mem_listed_iff "depth" (u := .integer a.depth) rfl
  have integers : (a.depth : Int) = b.depth := by simpa [mem_listed] using field
  exact_mod_cast integers

theorem managed_eq : a.managed = b.managed := by
  have listed : ("managed", a.managed.toValue) ∈ a.toValue.listed := by simp [mem_listed]
  obtain ⟨v, hv, related⟩ := h.exists_right listed
  obtain rfl : v = b.managed.toValue := by simpa [mem_listed] using hv
  exact ManagedFields.eq_of_relisted related

theorem system_eq : a.system = b.system := by
  simpa [mem_listed] using h.mem_listed_iff "system" (u := .boolean a.system) rfl

/-- A node without children has no entry for them, so it is not taken for one whose children say
nothing. -/
theorem children_relisted :
    List.Forall₂ Value.Relisted (toValues a.children) (toValues b.children) := by
  by_cases leaf : a.children = []
  · have leaf' : b.children = [] := by
      by_contra inner
      have listed : ("children", .array (toValues b.children)) ∈ b.toValue.listed := by
        simp [mem_listed, inner]
      obtain ⟨v, hv, -⟩ := h.exists_left listed
      simp [mem_listed, leaf] at hv
    rw [leaf, leaf', toValues]
    exact .nil
  · have listed : ("children", .array (toValues a.children)) ∈ a.toValue.listed := by
      simp [mem_listed, leaf]
    obtain ⟨v, hv, related⟩ := h.exists_right listed
    obtain ⟨items, rfl, alike⟩ := related.array_eq
    have same : b.children ≠ [] ∧ items = toValues b.children := by simpa [mem_listed] using hv
    rwa [← same.2]

end Fields

mutual

theorem eq_of_relisted : ∀ {a b : ResolvedNode}, a.toValue.Relisted b.toValue → a = b
  | ⟨dependency, version, scope, depth, managed, system, children⟩,
    ⟨dependency', version', scope', depth', managed', system', children'⟩, h => by
    obtain rfl : dependency = dependency' := dependency_eq h
    obtain ⟨rfl, rfl⟩ : version = version' ∧ scope = scope' := premanaged_eq h
    obtain rfl : depth = depth' := depth_eq h
    obtain rfl : managed = managed' := managed_eq h
    obtain rfl : system = system' := system_eq h
    have below : children = children' := forest_eq_of_relisted (children_relisted h)
    rw [below]

/-- Resolved forests with the same data are the same. -/
theorem forest_eq_of_relisted : ∀ {f g : List ResolvedNode},
    List.Forall₂ Value.Relisted (toValues f) (toValues g) → f = g
  | [], [], _ => rfl
  | a :: f, b :: g, .cons head tail => by
    rw [eq_of_relisted head, forest_eq_of_relisted tail]

end

mutual

theorem plain_toValue : ∀ n : ResolvedNode, Json.Plain n.toValue
  | ⟨dependency, version, scope, depth, managed, system, children⟩ => by
    rw [toValue_eq_table]
    apply Json.Plain.table
    intro x hx
    rcases mem_listed.1 hx with ⟨-, hv⟩ | ⟨text, -, -, hv⟩ | ⟨text, -, -, hv⟩ | ⟨-, hv⟩ |
      ⟨-, hv⟩ | ⟨-, hv⟩ | ⟨-, -, hv⟩
    all_goals rw [hv]
    · exact dependency.plain_toValue
    · exact .string text
    · exact .string text
    · exact .integer depth
    · exact managed.plain_toValue
    · exact .boolean system
    · exact .array (plain_toValues children)

/-- What is written for a resolved forest is told by its text. -/
theorem plain_toValues : ∀ forest : List ResolvedNode, ∀ v ∈ toValues forest, Json.Plain v
  | [], _, hv => by cases hv
  | n :: rest, v, hv => by
    rw [toValues, List.mem_cons] at hv
    rcases hv with rfl | hv
    · exact plain_toValue n
    · exact plain_toValues rest v hv

end

end ResolvedNode

/-- A dependency is read back from its data, whatever the order in which the entries of tables are listed.
Resolved forests with the same data are the same, and so are resolved forests printed alike. -/
theorem json_loses_nothing :
    (∀ (d : Dependency) (v : Value), d.toValue.Relisted v → Dependency.fit .json v = .ok d) ∧
      (∀ f g : List ResolvedNode,
        (Value.array (ResolvedNode.toValues f)).Relisted (.array (ResolvedNode.toValues g)) → f = g) ∧
      ∀ f g : List ResolvedNode,
        Json.pretty "" (.array (ResolvedNode.toValues f)) =
          Json.pretty "" (.array (ResolvedNode.toValues g)) → f = g := by
  have sameData : ∀ f g : List ResolvedNode,
      (Value.array (ResolvedNode.toValues f)).Relisted (.array (ResolvedNode.toValues g)) → f = g := by
    intro f g h
    obtain ⟨items, hitems, alike⟩ := h.array_eq
    obtain rfl := Value.array.inj hitems
    exact ResolvedNode.forest_eq_of_relisted alike
  refine ⟨fun d v => Dependency.fit_of_relisted, sameData, ?_⟩
  intro f g h
  have plain (forest : List ResolvedNode) : Json.Plain (.array (ResolvedNode.toValues forest)) :=
    .array (ResolvedNode.plain_toValues forest)
  have data := Json.eq_of_pretty_eq (plain f) (plain g) h
  apply sameData
  rw [data]
  exact .refl _

/-- A dependency without extension that is declared required is read back from its entries in the order of
their names. A declared version that is empty is not taken for none. -/
theorem json_loses_nothing_sample :
    let d : Dependency :=
      { artifact := { groupId := "g", artifactId := "a", extension := "" }, optional := some false }
    let byName : Value := .table
      [("artifact", .table [("artifact_id", .string "a"), ("extension", .string ""), ("group_id", .string "g")]),
        ("optional", .boolean false)]
    let forest (version : Option String) : List ResolvedNode :=
      [{ dependency := d, premanagedVersion := version, depth := 1, system := false }]
    d.toValue.Relisted byName ∧ Dependency.fit .json byName = .ok d ∧
      ¬(Value.array (ResolvedNode.toValues (forest none))).Relisted
        (.array (ResolvedNode.toValues (forest (some "")))) ∧
      Json.pretty "" (.array (ResolvedNode.toValues (forest none))) ≠
        Json.pretty "" (.array (ResolvedNode.toValues (forest (some "")))) := by
  intro d byName forest
  obtain ⟨readBack, sameData, sameText⟩ := json_loses_nothing
  have relisted : d.toValue.Relisted byName := by
    have artifact : d.artifact.toValue.Relisted (.table
        [("artifact_id", .string "a"), ("extension", .string ""), ("group_id", .string "g")]) := by
      apply Value.Relisted.table
      apply EntriesAlike.cons [_, _] [] (.refl (.string "g"))
      apply EntriesAlike.cons [] [_] (.refl (.string "a"))
      exact .cons [] [] (.refl (.string "")) .nil
    apply Value.Relisted.table
    apply EntriesAlike.cons [] [_] artifact
    exact .cons [] [] (.refl (.boolean false)) .nil
  have apart : forest none ≠ forest (some "") := by simp [forest]
  exact ⟨relisted, readBack d byName relisted, fun h => apart (sameData _ _ h),
    fun h => apart (sameText _ _ h)⟩

end NearestWins
