import NearestWins.Data.Value
import Std.Data.ExtTreeMap

/-!
# Fitting data to records

A `Fit` turns a value into something typed or says why it does not fit. Records are described by a
`Schema`: their fields in declaration order, each with the way to read it. A table is read entry by
entry, in the order of the entries; only then missing fields are looked for, in declaration order. A
list is read as the fields in declaration order.
-/

namespace NearestWins

/-- The outcome of fitting data to a type. -/
abbrev Fit := Except Mismatch

namespace Value

/-- Reads a text. -/
def fitString (format : DataFormat) : Value → Fit String
  | .string text => .ok text
  | v => .error (v.mismatch format "a string")

/-- Reads a truth value. -/
def fitBool (format : DataFormat) : Value → Fit Bool
  | .boolean b => .ok b
  | v => .error (v.mismatch format "a boolean")

/-- Reads a depth: an integer without sign that fits a machine word. -/
def fitDepth (format : DataFormat) : Value → Fit Nat
  | v@(.integer n) =>
    if fitsUnsigned 64 n then .ok n.toNat
    else if fitsBits 64 n then .error (.wrongValue (.integer n) "usize")
    else .error (v.mismatch format "usize")
  | v => .error (v.mismatch format "usize")

/-- Reads a value that may be null. -/
def fitOption {α : Type} (fit : Value → Fit α) : Value → Fit (Option α)
  | .null => .ok none
  | v => some <$> fit v

/-- Reads a list. -/
def fitList {α : Type} (format : DataFormat) (fit : Value → Fit α) : Value → Fit (List α)
  | .array items => items.mapM fit
  | v => .error (v.mismatch format "a sequence")

/-- Reads a map from texts to texts. -/
def fitTextMap (format : DataFormat) (v : Value) : Fit (Std.ExtTreeMap String String) :=
  match v.entries? with
  | some entries =>
    entries.foldlM (fun map (name, value) => map.insert name <$> value.fitString format) ∅
  | none => .error (v.mismatch format "a map")

end Value

/-- A field of a record. -/
structure Field (ρ : Type) where
  /-- The name of the field. -/
  name : String
  /-- Whether the field must be there. -/
  required : Bool := false
  /-- Reads the field into the record. -/
  read : DataFormat → Value → ρ → Fit ρ

/-- What a record looks like in a document. -/
structure Schema (ρ : Type) where
  /-- The name of the record. -/
  name : String
  /-- The fields in declaration order. -/
  fields : List (Field ρ)
  /-- Whether other fields are refused. -/
  closed : Bool

namespace Schema

variable {ρ : Type}

/-- The names of the fields. -/
def fieldNames (schema : Schema ρ) : List String := schema.fields.map Field.name

/-- The field of a name. -/
def field? (schema : Schema ρ) (name : String) : Option (Field ρ) :=
  schema.fields.find? (·.name = name)

/-- Reads one entry of a table into a record. -/
def readEntry (schema : Schema ρ) (format : DataFormat) (record : ρ) :
    String × Value → Fit ρ
  | (name, value) =>
    match schema.field? name with
    | some field => field.read format value record
    | none => if schema.closed then .error (.unknownField name schema.fieldNames) else .ok record

/-- Complains about the first required field that has no entry. -/
def checkPresent (schema : Schema ρ) (entries : List (String × Value)) : Fit Unit :=
  match schema.fields.find? fun f => f.required && !(entries.any (·.1 = f.name)) with
  | some field => .error (.missingField field.name)
  | none => .ok ()

/-- Reads a record from the entries of a table. -/
def readTable (schema : Schema ρ) (format : DataFormat) (blank : ρ)
    (entries : List (String × Value)) : Fit ρ := do
  let record ← entries.foldlM (schema.readEntry format) blank
  schema.checkPresent entries
  pure record

/-- What a list of the record's fields is called in a message. -/
def wantedLength (schema : Schema ρ) : String :=
  match schema.fields.length with
  | 1 => s!"struct {schema.name} with 1 element"
  | count => s!"struct {schema.name} with {count} elements"

/-- Reads the fields one after the other from the items of a list; `index` items were read before. A
list that is too short does for fields that need not be there. JSON refuses further items. -/
def readItems (schema : Schema ρ) (format : DataFormat) (length index : Nat) (record : ρ) :
    List (Field ρ) → List Value → Fit ρ
  | [], [] => .ok record
  | [], _ :: _ =>
    if format = .json then .error (.wrongLength length "fewer elements in array") else .ok record
  | field :: fields, [] =>
    if field.required then .error (.wrongLength index schema.wantedLength)
    else schema.readItems format length (index + 1) record fields []
  | field :: fields, item :: items => do
    let record ← field.read format item record
    schema.readItems format length (index + 1) record fields items

/-- Reads a record from a table or a list. -/
def fit (schema : Schema ρ) (format : DataFormat) (blank : ρ) (v : Value) : Fit ρ :=
  match v, v.entries? with
  | .array items, _ => schema.readItems format items.length 0 blank schema.fields items
  | _, some entries => schema.readTable format blank entries
  | _, none => .error (v.mismatch format s!"struct {schema.name}")

end Schema

end NearestWins
