import NearestWins.Toml.Datetime
import NearestWins.Toml.Reader

/-!
# Plain TOML data

What no record claims is kept as plain data, if it can be kept. There are two stages. A value is set
aside when it is met, which its numbers must allow; and what was set aside becomes plain TOML data,
which has signed integers alone and knows a date by its reserved name: a table that begins with
`datetimeKey` stands for the date whose text is under it.
-/

namespace NearestWins

namespace Value

mutual

/-- Checks that a value can be set aside: its integers fit 64 bits. -/
def checkSetAside : Value → Fit Unit
  | .integer n => if fitsBits 64 n then .ok () else .error ((integer n).mismatch .toml "any value")
  | .float (.overflow _) | .malformed => .error .unrepresentable
  | .array items => checkSetAsideItems items
  | .table entries => checkSetAsideEntries entries
  | _ => .ok ()

/-- Checks the items of a list. -/
def checkSetAsideItems : List Value → Fit Unit
  | [] => .ok ()
  | v :: rest => do
    v.checkSetAside
    checkSetAsideItems rest

/-- Checks the entries of a table. -/
def checkSetAsideEntries : List (String × Value) → Fit Unit
  | [] => .ok ()
  | (_, v) :: rest => do
    v.checkSetAside
    checkSetAsideEntries rest

end

/-- Checks an integer of plain data: it fits 64 bits with a sign. -/
def checkSigned (n : Int) : Fit Unit :=
  if fitsSigned 64 n then .ok ()
  else if fitsBits 64 n then .error .unrepresentable
  else .error ((integer n).mismatch .toml "any valid TOML value")

/-- The value under the reserved name of dates, if a table begins with it. -/
def dateEntry? : List (String × Value) → Option Value
  | (name, v) :: _ => if name = datetimeKey then some v else none
  | [] => none

/-- Checks that the value under the reserved name is the text of a date. -/
def checkDate : Value → Fit Unit
  | .string text => if (Toml.datetime? text.toList).isSome then .ok () else .error .unrepresentable
  | v => .error (v.mismatch .toml "string containing a datetime")

/-- Checks a table of `size` entries that stands for a date. Where dates stand `alone`, as they do
in what was set aside, the table may hold nothing else. -/
def checkDateTable (alone : Bool) (size : Nat) (v : Value) : Fit Unit := do
  v.checkDate
  if alone && size ≠ 1 then .error (.wrongLength size "1 element in map")
  else .ok ()

mutual

/-- Checks that a value is plain TOML data; `alone` says whether dates stand alone. -/
def checkPlain (alone : Bool) : Value → Fit Unit
  | .integer n => checkSigned n
  | .float (.overflow _) | .malformed => .error .unrepresentable
  | .array items => checkPlainItems alone items
  | .table entries =>
    match dateEntry? entries with
    | some v => checkDateTable alone entries.length v
    | none => checkPlainEntries alone entries
  | _ => .ok ()

/-- Checks the items of a list. -/
def checkPlainItems (alone : Bool) : List Value → Fit Unit
  | [] => .ok ()
  | v :: rest => do
    v.checkPlain alone
    checkPlainItems alone rest

/-- Checks the entries of a table that stands for no date. -/
def checkPlainEntries (alone : Bool) : List (String × Value) → Fit Unit
  | [] => .ok ()
  | (_, v) :: rest => do
    v.checkPlain alone
    checkPlainEntries alone rest

end

end Value

/-- Reads a text as a table of plain TOML data. The document itself stands for no date, and as
nothing is set aside first, a table that stands for one may hold more, which is not looked at. -/
def TomlReader.decodePlain (reader : TomlReader) (text : String) :
    Except String (List (String × Value)) := do
  let entries ← reader.read text
  (Value.checkPlainEntries false entries).mapError (reader.misfit "Table" text)
  pure entries

end NearestWins
