import NearestWins.Toml.Reader
import NearestWins.Toml.Scalar
import NearestWins.Toml.Text

/-!
# TOML documents

A document is a sequence of statements: entries, headers of tables and headers of elements of table
lists. `Table` is a table under construction. It remembers how it came to be, because that decides
what later statements may add to it: a table opened by a header is never opened again nor extended
by dotted names from outside, a table that only exists because a longer name runs through it may
still be opened by one header, and a table made by dotted names gets entries by dotted names alone.
Inline tables and lists are values and never change.
-/

namespace NearestWins.Toml

open Scan

/-- How a table came to be. -/
inductive Origin
  /-- By a header, or as the document itself. -/
  | header
  /-- By the name of a header that runs through it. -/
  | implied
  /-- By the dotted name of an entry that runs through it. -/
  | dotted
deriving DecidableEq

mutual

/-- What stands under a name. -/
inductive Item
  /-- A value that never changes. -/
  | value (v : Value)
  /-- A table. -/
  | table (t : Table)
  /-- A list of tables; the last one is open for additions, the others come in reverse. -/
  | tables (last : Table) (earlier : List Table)

/-- A table under construction, its entries in the order of their names. -/
inductive Table
  /-- A table with its origin and its entries. -/
  | mk (origin : Origin) (entries : List (String × Item))

end

namespace Table

/-- How a table came to be. -/
def origin : Table → Origin
  | ⟨origin, _⟩ => origin

/-- A table without entries. -/
def empty (origin : Origin) : Table := ⟨origin, []⟩

/-- What stands under a name. -/
def item? (name : String) : Table → Option Item
  | ⟨_, entries⟩ => lookupEntry name entries

/-- Puts something under a name. -/
def put (name : String) (item : Item) : Table → Table
  | ⟨origin, entries⟩ => ⟨origin, insertEntry name item entries⟩

/-- Changes the table at the end of a path. Tables missing on the way come to be with the given
origin; the way leads through the last element of a list of tables and never through a value, and
the way of a dotted name never through a table with a header. -/
def update (made : Origin) (change : Table → Option Table) : List String → Table → Option Table
  | [], t => change t
  | name :: path, t =>
    match t.item? name with
    | none => do
      let child ← update made change path (empty made)
      some (t.put name (.table child))
    | some (.table child) => do
      guard !(made = .dotted && child.origin = .header)
      let child ← update made change path child
      some (t.put name (.table child))
    | some (.tables last earlier) => do
      let last ← update made change path last
      some (t.put name (.tables last earlier))
    | some (.value _) => none

/-- Adds an entry under a dotted name. -/
def define (name : List String) (v : Value) (t : Table) : Option Table := do
  let key ← name.getLast?
  let path := name.dropLast
  let add (t : Table) : Option Table := do
    guard (t.origin = .dotted ↔ !path.isEmpty)
    guard (t.item? key).isNone
    some (t.put key (.value v))
  t.update .dotted add path

/-- Opens the table of a header. -/
def openTable (name : List String) (t : Table) : Option Table := do
  let key ← name.getLast?
  let add (t : Table) : Option Table :=
    match t.item? key with
    | none => some (t.put key (.table (empty .header)))
    | some (.table ⟨.implied, entries⟩) => some (t.put key (.table ⟨.header, entries⟩))
    | _ => none
  t.update .implied add name.dropLast

/-- Opens a new element of the list of tables of a header. -/
def openElement (name : List String) (t : Table) : Option Table := do
  let key ← name.getLast?
  let add (t : Table) : Option Table :=
    match t.item? key with
    | none => some (t.put key (.tables (empty .header) []))
    | some (.tables last earlier) => some (t.put key (.tables (empty .header) (last :: earlier)))
    | _ => none
  t.update .implied add name.dropLast

mutual

/-- The finished table. -/
def toValue : Table → Value
  | ⟨_, entries⟩ => .table (entriesToValues entries)

/-- The finished entries of a table. -/
def entriesToValues : List (String × Item) → List (String × Value)
  | [] => []
  | (name, item) :: rest => (name, itemToValue item) :: entriesToValues rest

/-- What stands under a name, finished. -/
def itemToValue : Item → Value
  | .value v => v
  | .table t => t.toValue
  | .tables last earlier => .array (tablesToValues earlier [last.toValue])

/-- Finished tables in front of other values, the last table first. -/
def tablesToValues : List Table → List Value → List Value
  | [], done => done
  | t :: rest, done => tablesToValues rest (t.toValue :: done)

end

end Table

mutual

/-- Reads a value; `fuel` bounds how deep it may be nested and how many values it may hold. -/
def value : Nat → Scan Value
  | 0 => failure
  | fuel + 1 => do
    match ← peek with
    | some '"' => return .string (← string)
    | some '\x27' => return .string (← string)
    | some '[' =>
      expect "["
      return .array (← items fuel)
    | some '\x7b' =>
      expect "\x7b"
      return (← inlineEntries fuel (Table.empty .header)).toValue
    | _ => scalar

/-- Reads the items of a list up to its closing bracket; a comma may stand behind the last one. -/
def items : Nat → Scan (List Value)
  | 0 => failure
  | fuel + 1 => do
    skipGaps
    if ← accept "]" then return []
    let first ← value fuel
    skipGaps
    if ← accept "," then return first :: (← items fuel)
    expect "]"
    return [first]

/-- Reads the entries of an inline table up to its closing brace. Lines may break anywhere but
within a name, and a comma may stand behind the last entry. -/
def inlineEntries : Nat → Table → Scan Table
  | 0, _ => failure
  | fuel + 1, t => do
    skipGaps
    if ← accept "\x7d" then return t
    let path ← name fuel
    skipGaps
    expect "="
    skipGaps
    let v ← value fuel
    let t ← ofOption (t.define path v)
    skipGaps
    if ← accept "," then return ← inlineEntries fuel t
    expect "\x7d"
    return t

end

/-- A line of a document that says something. -/
inductive Statement
  /-- An entry of the current table. -/
  | entry (name : List String) (v : Value)
  /-- The header of a table. -/
  | table (name : List String)
  /-- The header of an element of a list of tables. -/
  | element (name : List String)

/-- Reads a statement; `fuel` bounds the length of its name and the size of its value. -/
def statement (fuel : Nat) : Scan Statement := do
  if ← accept "[[" then
    skipBlank
    let path ← name fuel
    expect "]]"
    return .element path
  if ← accept "[" then
    skipBlank
    let path ← name fuel
    expect "]"
    return .table path
  let path ← name fuel
  expect "="
  skipBlank
  let v ← value fuel
  return .entry path v

/-- Reads statements to the end of the text, one to a line. `fuel` bounds the number of lines and
`size` what a statement may need. -/
def statements (size : Nat) : Nat → Scan (List Statement)
  | 0 => failure
  | fuel + 1 => do
    skipBlank
    let next ← peek
    if next.isNone then return []
    if next = some '#' || next = some '\n' || next = some '\r' then
      endLine
      statements size fuel
    else
      let first ← statement size
      endLine
      return first :: (← statements size fuel)

/-- A document under construction: its tables and the path of the current one. -/
structure Draft where
  /-- The outermost table. -/
  root : Table := .empty .header
  /-- The path to the table that entries go to. -/
  current : List String := []

/-- Carries a statement out. -/
def Draft.apply (d : Draft) : Statement → Option Draft
  | .entry name v => do
    let root ← d.root.update .implied (·.define name v) d.current
    some { d with root := root }
  | .table name => do
    let root ← d.root.openTable name
    some { root := root, current := name }
  | .element name => do
    let root ← d.root.openElement name
    some { root := root, current := name }

/-- Reads the entries of a TOML text, which may begin with a byte order mark. -/
def read? (text : String) : Option (List (String × Value)) := do
  let chars := text.toList
  let chars := if chars.head? = some '\ufeff' then chars.drop 1 else chars
  let size := chars.length
  let lines ← runAll? (statements (2 * size + 2) (size + 1)) chars
  let ⟨⟨_, entries⟩, _⟩ ← lines.foldlM Draft.apply {}
  some (Table.entriesToValues entries)

/-- The headline of all that this reader says is wrong. -/
def headline : String := "TOML parse error\n"

/-- The reader of this library. What it says is wrong is a line below the headline. -/
def reader : TomlReader where
  read text := (read? text).elim (.error (headline ++ "invalid document\n")) .ok
  misfit _ _ mismatch := headline ++ mismatch.message ++ "\n"

end NearestWins.Toml
