import NearestWins.Data.Mismatch
import NearestWins.Double.Text

/-!
# Plain data

What a TOML or JSON document holds, before it is fitted to records. A reader of a format lists the
entries of a table in the order of their names, which is the order in which records look at them; a
writer keeps the order it is given.
-/

namespace NearestWins

/-- A value of a document. -/
inductive Value
  /-- The null value. -/
  | null
  /-- A truth value. -/
  | boolean (b : Bool)
  /-- An integer, of whatever size it was written in. -/
  | integer (n : Int)
  /-- A number that is no integer. -/
  | float (x : Double)
  /-- An integer whose digits write no number. It does no harm until a record looks at it. -/
  | malformed
  /-- A text. -/
  | string (text : String)
  /-- A date, a time or both, in its normal form. -/
  | datetime (text : String)
  /-- A list of values. -/
  | array (items : List Value)
  /-- Named values. -/
  | table (entries : List (String × Value))
deriving Inhabited

/-- The formats that documents are written in. -/
inductive DataFormat
  /-- TOML. -/
  | toml
  /-- JSON. -/
  | json
deriving DecidableEq

/-- How a format writes numbers in messages. -/
def DataFormat.numberStyle : DataFormat → Double.NumberStyle
  | .toml => .positional
  | .json => .scientific

/-- Inserts an entry into entries in the order of their names; a later one replaces an earlier. -/
def insertEntry {α : Type} (name : String) (value : α) :
    List (String × α) → List (String × α)
  | [] => [(name, value)]
  | (other, kept) :: rest =>
    if name < other then (name, value) :: (other, kept) :: rest
    else if name = other then (name, value) :: rest
    else (other, kept) :: insertEntry name value rest

/-- The first value under a name. -/
def lookupEntry {α : Type} (name : String) : List (String × α) → Option α
  | [] => none
  | (other, value) :: rest => if name = other then some value else lookupEntry name rest

namespace Value

/-- The name under which a date or time holds its text when it is looked at as a table. -/
def datetimeKey : String := "$__toml_private_datetime"

/-- The entries of a value that can be looked at as a table. -/
def entries? : Value → Option (List (String × Value))
  | .table entries => some entries
  | .datetime text => some [(datetimeKey, .string text)]
  | _ => none

/-- Whether an integer fits so many bits with a sign. -/
def fitsSigned (bits : Nat) (n : Int) : Bool :=
  let half := Nat.pow 2 (bits - 1)
  n < half && -half ≤ n

/-- Whether an integer fits so many bits without a sign. -/
def fitsUnsigned (bits : Nat) (n : Int) : Bool := 0 ≤ n && n < Nat.pow 2 bits

/-- Whether an integer fits so many bits, with a sign or without. -/
def fitsBits (bits : Nat) (n : Int) : Bool := fitsSigned bits n || fitsUnsigned bits n

/-- What an integer is called in a message; none beyond 128 bits. -/
def foundInteger (n : Int) : Option Found :=
  if fitsBits 64 n then some (.integer n)
  else if fitsSigned 128 n then some (.wideInteger n "i128")
  else if fitsUnsigned 128 n then some (.wideInteger n "u128")
  else none

/-- What a value is called in a message; none if it holds a number that no machine number holds. -/
def found (format : DataFormat) : Value → Option Found
  | .null => some .null
  | .boolean b => some (.boolean b)
  | .integer n => foundInteger n
  | .float (.overflow _) | .malformed => none
  | .float x => some (.float (x.text format.numberStyle))
  | .string text => some (.string text)
  | .array _ => some .sequence
  | .datetime _ | .table _ => some .map

/-- The mismatch of a value where something else was wanted. -/
def mismatch (format : DataFormat) (wanted : String) (v : Value) : Mismatch :=
  match v.found format with
  | some found => .wrongType found wanted
  | none => .unrepresentable

end Value

end NearestWins
