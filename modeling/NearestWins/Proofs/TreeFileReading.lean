import NearestWins.Proofs.Fitting
import NearestWins.Proofs.TreeFileFaults
import NearestWins.Toml.Document

/-!
# Tree files and their documents

What a document says, told apart from how it is read: `TreeFile.ReadFrom` relates a document to the records that
hold it, field by field at every depth, names without meaning included. Main statement: for every text that is
fitted to a tree file, the file is what the document says, a tree comes out of it exactly if no entry at any
depth has a name without meaning or an exclusion that does not read, this tree has the shape of the file and
the dependencies of its entries, and otherwise the problem is that of the first entry with a fault.
-/

namespace NearestWins

/-! ## Entries -/

namespace Entry

/-- The names that have a meaning in every entry. -/
def fieldNames : List String :=
  ["group", "artifact", "version", "classifier", "extension", "scope", "optional", "exclusions", "system_path",
   "properties"]

/-- What one field of a table adds to an entry. -/
inductive Takes (e : Entry) : String → Value → Entry → Prop
  | group (text : String) : Takes e "group" (.string text) { e with group := text }
  | artifact (text : String) : Takes e "artifact" (.string text) { e with artifact := text }
  | version (text : String) : Takes e "version" (.string text) { e with version := text }
  | classifier (text : String) : Takes e "classifier" (.string text) { e with classifier := text }
  | extension (text : Option String) :
      Takes e "extension" (.ofOption .string text) { e with extension := text }
  | scope (text : String) : Takes e "scope" (.string text) { e with scope := text }
  | optional (b : Option Bool) : Takes e "optional" (.ofOption .boolean b) { e with optional := b }
  | exclusions (texts : List String) :
      Takes e "exclusions" (.array (texts.map .string)) { e with exclusions := texts }
  | systemPath (path : Option String) :
      Takes e "system_path" (.ofOption .string path) { e with systemPath := path }
  | properties {v : Value} {texts : List (String × String)} (h : v.entries? = some (Value.textEntries texts)) :
      Takes e "properties" v { e with properties := .ofList texts }
  | unclaimed {name : String} {v : Value} (h : name ∉ fieldNames) : Takes e name v e

theorem takes_of_readField {e e' : Entry} {name : String} {v : Value} (h : e.readField (name, v) = .ok e') :
    e.Takes name v e' := by
  rw [readField] at h
  split at h
  · rename_i field hfield
    obtain ⟨hmem, rfl⟩ := Schema.field?_eq_some hfield
    simp only [schema, List.mem_cons, List.not_mem_nil, or_false] at hmem
    obtain rfl | rfl | rfl | rfl | rfl | rfl | rfl | rfl | rfl | rfl := hmem <;>
      obtain ⟨a, ha, h⟩ := Fit.exists_of_bind_eq_ok h <;> cases h
    · exact Value.eq_of_fitString ha ▸ .group a
    · exact Value.eq_of_fitString ha ▸ .artifact a
    · exact Value.eq_of_fitString ha ▸ .version a
    · exact Value.eq_of_fitString ha ▸ .classifier a
    · exact Value.eq_of_fitOption Value.eq_of_fitString ha ▸ .extension a
    · exact Value.eq_of_fitString ha ▸ .scope a
    · exact Value.eq_of_fitOption Value.eq_of_fitBool ha ▸ .optional a
    · exact Value.eq_of_fitTexts ha ▸ .exclusions a
    · exact Value.eq_of_fitOption Value.eq_of_fitString ha ▸ .systemPath a
    · obtain ⟨texts, htexts, rfl⟩ := Value.textEntries_of_fitTextMap ha
      exact .properties htexts
  · rename_i hnone
    obtain ⟨-, -, h⟩ := Fit.exists_of_bind_eq_ok h
    cases h
    exact .unclaimed (Schema.field?_eq_none_iff.1 hnone)

/-- An entry holds what the fields of a table say: group and artifact are there, what else is missing is blank,
and names without meaning are listed. -/
structure FieldsFrom (entries : List (String × Value)) (e : Entry) : Prop where
  group : ("group", .string e.group) ∈ entries
  artifact : ("artifact", .string e.artifact) ∈ entries
  version : Holds entries "version" (· = .string ·) "" e.version
  classifier : Holds entries "classifier" (· = .string ·) "" e.classifier
  extension : Holds entries "extension" (· = .ofOption .string ·) none e.extension
  scope : Holds entries "scope" (· = .string ·) "" e.scope
  optional : Holds entries "optional" (· = .ofOption .boolean ·) none e.optional
  exclusions : Holds entries "exclusions" (fun v texts => v = .array (texts.map .string)) [] e.exclusions
  systemPath : Holds entries "system_path" (· = .ofOption .string ·) none e.systemPath
  properties : Holds entries "properties"
    (fun v map => ∃ texts, v.entries? = some (Value.textEntries texts) ∧ map = .ofList texts) ∅ e.properties
  unknown : e.unknown = (entries.map Prod.fst).filter (· ∉ fieldNames)

theorem map_fst_unclaimed (entries : List (String × Value)) :
    (unclaimed entries).map Prod.fst = (entries.map Prod.fst).filter (· ∉ fieldNames) := by
  rw [List.filter_map]
  congr 1
  refine List.filter_congr fun entry _ => ?_
  have hiff : schema.field? entry.1 = none ↔ entry.1 ∉ fieldNames := Schema.field?_eq_none_iff
  exact Bool.eq_iff_iff.2 (Option.isNone_iff_eq_none.trans (hiff.trans decide_eq_true_iff.symm))

/-- Every field of an entry was read from what stands under its name, as no other name determines it. -/
theorem holds_of_foldlM {α : Type} {R : Value → α → Prop} {entries : List (String × Value)} {e e' : Entry}
    (hread : entries.foldlM readField e = .ok e') (name : String) (get : Entry → α)
    (step : ∀ {s s' other v}, Takes s other v s' → if other = name then R v (get s') else get s' = get s) :
    Holds entries name R (get e) (get e') :=
  foldlM_holds get (fun h => by simpa using step (takes_of_readField h))
    (fun hother h => by simpa [hother] using step (takes_of_readField h)) hread

theorem fieldsFrom_of_ofFields {entries : List (String × Value)} {e : Entry} (h : ofFields entries = .ok e) :
    e.FieldsFrom entries := by
  obtain ⟨read, hread, h⟩ := Fit.exists_of_bind_eq_ok h
  obtain ⟨_, hpresent, h⟩ := Fit.exists_of_bind_eq_ok h
  obtain ⟨-, -, h⟩ := Fit.exists_of_bind_eq_ok h
  cases h
  have hgroup : Holds entries "group" (· = .string ·) "" read.group :=
    holds_of_foldlM hread _ group fun h => by cases h <;> simp_all [fieldNames]
  have hartifact : Holds entries "artifact" (· = .string ·) "" read.artifact :=
    holds_of_foldlM hread _ artifact fun h => by cases h <;> simp_all [fieldNames]
  -- A missing field is blank; group and artifact cannot be missing, as their presence was checked.
  constructor
  case group =>
    have hthere := Schema.exists_of_checkPresent hpresent (List.mem_cons_self ..) rfl
    exact hgroup.mem hthere
  case artifact =>
    have hthere := Schema.exists_of_checkPresent hpresent (List.mem_cons_of_mem _ (List.mem_cons_self ..)) rfl
    exact hartifact.mem hthere
  case version => exact holds_of_foldlM hread _ version fun h => by cases h <;> simp_all [fieldNames]
  case classifier => exact holds_of_foldlM hread _ classifier fun h => by cases h <;> simp_all [fieldNames]
  case extension => exact holds_of_foldlM hread _ extension fun h => by cases h <;> simp_all [fieldNames]
  case scope => exact holds_of_foldlM hread _ scope fun h => by cases h <;> simp_all [fieldNames]
  case optional => exact holds_of_foldlM hread _ optional fun h => by cases h <;> simp_all [fieldNames]
  case exclusions => exact holds_of_foldlM hread _ exclusions fun h => by cases h <;> simp_all [fieldNames]
  case systemPath => exact holds_of_foldlM hread _ systemPath fun h => by cases h <;> simp_all [fieldNames]
  case properties =>
    refine holds_of_foldlM hread _ properties fun h => ?_
    cases h with
    | properties h => exact ⟨_, h, rfl⟩
    | _ => simp_all [fieldNames]
  case unknown => exact map_fst_unclaimed entries

/-- An entry holds what a table says. -/
def ReadFrom (v : Value) (e : Entry) : Prop :=
  ∃ entries, v = .table entries ∧ e.FieldsFrom entries

/-- A date has no fields of an entry. -/
theorem not_fieldsFrom_date {text : String} {e : Entry} :
    ¬ e.FieldsFrom [(Value.datetimeKey, .string text)] := by
  intro h
  have hname := (Prod.mk.inj (List.mem_singleton.1 h.group)).1
  exact absurd hname (by decide)

theorem readFrom_of_fit {v : Value} {e : Entry} (h : Entry.fit v = .ok e) : e.ReadFrom v := by
  unfold fit at h
  cases v with
  | table entries => exact ⟨entries, rfl, fieldsFrom_of_ofFields h⟩
  | datetime text => exact absurd (fieldsFrom_of_ofFields h) not_fieldsFrom_date
  | _ => cases h

end Entry

/-! ## Nodes -/

namespace NodeEntry

/-- The entry of a node holds what a table says: its coordinate is read from all fields but the lists of managed
declarations and children, and those lists item by item. -/
inductive ReadFrom : Value → NodeEntry → Prop
  | table {entries : List (String × Value)} {coordinate : Entry} {managedItems childItems : List Value}
      {managed : List Entry} {children : List NodeEntry}
      (own : coordinate.FieldsFrom (entries.filter (isCoordinateField ·.1)))
      (hmanaged : Holds entries "managed" (· = .array ·) [] managedItems)
      (managedRead : List.Forall₂ Entry.ReadFrom managedItems managed)
      (hchildren : Holds entries "children" (· = .array ·) [] childItems)
      (childrenRead : List.Forall₂ ReadFrom childItems children) :
      ReadFrom (.table entries) ⟨coordinate, managed, children⟩

mutual

theorem readFrom_of_fit {v : Value} {node : NodeEntry} (h : fit v = .ok node) : ReadFrom v node := by
  cases v with
  | table entries =>
    rw [fit] at h
    obtain ⟨⟨managed, children⟩, hbelow, h⟩ := Fit.exists_of_bind_eq_ok h
    obtain ⟨coordinate, hown, h⟩ := Fit.exists_of_bind_eq_ok h
    cases h
    obtain ⟨hmanaged, hchildren⟩ := holds_of_readBelow hbelow
    obtain ⟨managedItems, hmanaged, managedRead⟩ := hmanaged.items
    obtain ⟨childItems, hchildren, childrenRead⟩ := hchildren.items
    exact .table (Entry.fieldsFrom_of_ofFields hown) hmanaged managedRead hchildren childrenRead
  | datetime text =>
    rw [fit] at h
    obtain ⟨coordinate, hown, h⟩ := Fit.exists_of_bind_eq_ok h
    exact absurd (Entry.fieldsFrom_of_ofFields hown) Entry.not_fieldsFrom_date
  | _ => simp [fit] at h

/-- The managed declarations and the children are read item by item. -/
theorem holds_of_readBelow : ∀ {entries : List (String × Value)} {managed : List Entry}
    {children : List NodeEntry}, readBelow entries = .ok (managed, children) →
    Holds entries "managed" (Value.ListOf Entry.ReadFrom) [] managed ∧
      Holds entries "children" (Value.ListOf ReadFrom) [] children
  | [], _, _, h => by
    rw [readBelow] at h
    cases h
    exact ⟨.nil, .nil⟩
  | (name, v) :: rest, managed, children, h => by
    by_cases hchildren : name = "children"
    · subst hchildren
      cases v with
      | array items =>
        rw [readBelow] at h
        obtain ⟨nodes, hnodes, h⟩ := Fit.exists_of_bind_eq_ok h
        obtain ⟨⟨entries, _⟩, hrest, h⟩ := Fit.exists_of_bind_eq_ok h
        cases h
        exact ⟨.cons (by decide) (holds_of_readBelow hrest).1, .head ⟨items, rfl, forall₂_of_fitAll hnodes⟩⟩
      | _ => simp [readBelow] at h
    by_cases hmanaged : name = "managed"
    · subst hmanaged
      rw [readBelow] at h
      obtain ⟨entries, hentries, h⟩ := Fit.exists_of_bind_eq_ok h
      obtain ⟨⟨_, nodes⟩, hrest, h⟩ := Fit.exists_of_bind_eq_ok h
      cases h
      exact ⟨.head (Value.listOf_of_fitList Entry.readFrom_of_fit hentries),
        .cons (by decide) (holds_of_readBelow hrest).2⟩
    rw [readBelow] at h
    · obtain ⟨_, -, hrest⟩ := Fit.exists_of_bind_eq_ok h
      obtain ⟨hm, hc⟩ := holds_of_readBelow hrest
      exact ⟨.cons hmanaged hm, .cons hchildren hc⟩
    · exact fun _ hname _ => hchildren hname
    · exact hchildren
    · exact hmanaged

theorem forall₂_of_fitAll : ∀ {items : List Value} {nodes : List NodeEntry}, fitAll items = .ok nodes →
    List.Forall₂ ReadFrom items nodes
  | [], _, h => by
    rw [fitAll] at h
    cases h
    exact .nil
  | v :: rest, _, h => by
    rw [fitAll] at h
    obtain ⟨first, hfirst, h⟩ := Fit.exists_of_bind_eq_ok h
    obtain ⟨others, hothers, h⟩ := Fit.exists_of_bind_eq_ok h
    cases h
    exact .cons (readFrom_of_fit hfirst) (forall₂_of_fitAll hothers)

end

end NodeEntry

/-! ## Files -/

namespace TreeFile

/-- A file holds what the fields of its root say. -/
structure FieldsFrom (fields : List (String × Value)) (file : TreeFile) : Prop where
  known : ∀ field ∈ fields, field.1 = "managed" ∨ field.1 = "children"
  managed : ∃ items, Holds fields "managed" (· = .array ·) [] items ∧ List.Forall₂ Entry.ReadFrom items file.managed
  children : ∃ items,
    Holds fields "children" (· = .array ·) [] items ∧ List.Forall₂ NodeEntry.ReadFrom items file.children

/-- A file holds what a document says: the document has no name but that of the root, and the file holds what
the root says, which may be left out. -/
def ReadFrom (document : Value) (file : TreeFile) : Prop :=
  ∃ entries, document = .table entries ∧ (∀ entry ∈ entries, entry.1 = "root") ∧
    Holds entries "root" (fun v file => ∃ fields, rootSchema.entriesOf? v = some fields ∧ FieldsFrom fields file)
      {} file

theorem listOf_managed {file file' : TreeFile} {v : Value}
    (h : rootSchema.readEntry .toml file ("managed", v) = .ok file') :
    v.ListOf Entry.ReadFrom file'.managed ∧ file'.children = file.children := by
  change (do pure { file with managed := ← v.fitList .toml Entry.fit }) = Except.ok file' at h
  obtain ⟨managed, hmanaged, h⟩ := Fit.exists_of_bind_eq_ok h
  cases h
  exact ⟨Value.listOf_of_fitList Entry.readFrom_of_fit hmanaged, rfl⟩

theorem listOf_children {file file' : TreeFile} {v : Value}
    (h : rootSchema.readEntry .toml file ("children", v) = .ok file') :
    v.ListOf NodeEntry.ReadFrom file'.children ∧ file'.managed = file.managed := by
  change (do pure { file with children := ← v.fitList .toml NodeEntry.fit }) = Except.ok file' at h
  obtain ⟨children, hchildren, h⟩ := Fit.exists_of_bind_eq_ok h
  cases h
  exact ⟨Value.listOf_of_fitList NodeEntry.readFrom_of_fit hchildren, rfl⟩

theorem fieldsFrom_of_foldlM {fields : List (String × Value)} {file : TreeFile}
    (h : fields.foldlM (rootSchema.readEntry .toml) {} = .ok file) : file.FieldsFrom fields := by
  have hnames {name : String} : name ∈ rootSchema.fieldNames ↔ name = "managed" ∨ name = "children" := by
    simp [rootSchema, Schema.fieldNames]
  have hknown {file file' : TreeFile} {name : String} {v : Value}
      (h : rootSchema.readEntry .toml file (name, v) = .ok file') : name = "managed" ∨ name = "children" :=
    hnames.1 (Schema.mem_fieldNames_of_readEntry rfl h)
  have hmanaged : Holds fields "managed" (Value.ListOf Entry.ReadFrom) [] file.managed := by
    refine foldlM_holds TreeFile.managed (fun h => (listOf_managed h).1) (fun hother h => ?_) h
    obtain rfl := (hknown h).resolve_left hother
    exact (listOf_children h).2
  have hchildren : Holds fields "children" (Value.ListOf NodeEntry.ReadFrom) [] file.children := by
    refine foldlM_holds TreeFile.children (fun h => (listOf_children h).1) (fun hother h => ?_) h
    obtain rfl := (hknown h).resolve_right hother
    exact (listOf_managed h).2
  exact ⟨fun field hfield => hnames.1 (Schema.mem_fieldNames_of_foldlM rfl h field hfield),
    hmanaged.items, hchildren.items⟩

theorem readFrom_of_fit {entries : List (String × Value)} {file : TreeFile}
    (h : schema.fit .toml {} (.table entries) = .ok file) : file.ReadFrom (.table entries) := by
  have hread : entries.foldlM (schema.readEntry .toml) {} = .ok file := Schema.foldlM_of_readTable h
  have hnames {name : String} : name ∈ schema.fieldNames ↔ name = "root" := by
    simp [schema, Schema.fieldNames]
  refine ⟨entries, rfl, fun entry hentry => hnames.1 (Schema.mem_fieldNames_of_foldlM rfl hread entry hentry),
    foldlM_holds id (fun {_ _ v} h => ?_) (fun hother h => ?_) hread⟩
  · have hroot : rootSchema.fit .toml {} v = .ok _ := h
    obtain ⟨fields, hfields, hread⟩ := Schema.foldlM_of_fit (by simp [rootSchema, Schema.field?]) hroot
    exact ⟨fields, hfields, fieldsFrom_of_foldlM hread⟩
  · exact absurd (hnames.1 (Schema.mem_fieldNames_of_readEntry rfl h)) hother

end TreeFile

end NearestWins
