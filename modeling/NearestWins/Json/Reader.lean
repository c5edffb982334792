import NearestWins.Data.Value
import NearestWins.Double.Scaled
import NearestWins.Text.Digits
import NearestWins.Text.Scan

/-!
# Reading JSON

A number without point and exponent is an integer if it fits a machine word and a floating-point
number otherwise. Of a floating-point number only as many digits count as fit a machine word; they
are rounded before the exponent scales them, so its last digits are not always the nearest. The
entries of an object are listed in the order of their names; of several with
one name the last one counts.
-/

namespace NearestWins.Json

open Scan

/-- Skips blanks. -/
def skipBlank : Scan Unit :=
  skipWhile fun c => c = ' ' || c = '\t' || c = '\n' || c = '\r'

/-- The characters of a string up to its closing quote, and what follows. -/
def scanString (read : List Char) : List Char → Option (String × List Char)
  | '"' :: rest => some (String.ofList read.reverse, rest)
  | '\\' :: 'u' :: a :: b :: c :: d :: '\\' :: 'u' :: e :: f :: g :: h :: rest => do
    let unit ← ofDigits? 16 [a, b, c, d]
    let next ← ofDigits? 16 [e, f, g, h]
    if 0xD800 ≤ unit ∧ unit < 0xDC00 ∧ 0xDC00 ≤ next ∧ next < 0xE000 then
      let paired ← charOfNat? (0x10000 + (unit - 0xD800) * 0x400 + (next - 0xDC00))
      scanString (paired :: read) rest
    else
      let single ← charOfNat? unit
      scanString (single :: read) ('\\' :: 'u' :: e :: f :: g :: h :: rest)
  | '\\' :: 'u' :: a :: b :: c :: d :: rest => do
    let single ← charOfNat? (← ofDigits? 16 [a, b, c, d])
    scanString (single :: read) rest
  | '\\' :: c :: rest =>
    match c with
    | '"' | '\\' | '/' => scanString (c :: read) rest
    | 'b' => scanString ('\x08' :: read) rest
    | 'f' => scanString ('\x0c' :: read) rest
    | 'n' => scanString ('\n' :: read) rest
    | 'r' => scanString ('\r' :: read) rest
    | 't' => scanString ('\t' :: read) rest
    | _ => none
  | c :: rest => if c < ' ' then none else scanString (c :: read) rest
  | [] => none
termination_by text => text.length

/-- Reads a string behind its opening quote. -/
def string : Scan String := fun text => scanString [] text

/-- Reads digits, of which there must be one at least. -/
def someDigits : Scan (List Char) := do
  let digits ← takeWhile Char.isDigit
  guard !digits.isEmpty
  return digits

/-- Reads the exponent of a number behind its mark. -/
def exponent : Scan Int := do
  let sign ← acceptOneOf ['+', '-']
  let n ← ofOption (ofDigits? 10 (← someDigits))
  return if sign = some '-' then -n else n

/-- Appends digits to a number as long as it fits a machine word, and counts the digits that are
left out. -/
def appendDigits (n : Nat) : List Char → Nat × Nat
  | [] => (n, 0)
  | c :: rest =>
    let next := 10 * n + (digit? 10 c).getD 0
    if Value.fitsUnsigned 64 next then appendDigits next rest else (n, rest.length + 1)

/-- The floating-point number with these digits before and behind the point and this exponent of
ten. A digit left out before the point counts as a zero; behind it, it does not count. -/
def float (negative : Bool) (whole fraction : List Char) (exponent : Int) : Double :=
  let (high, scale) := appendDigits 0 whole
  let (digits, dropped) := appendDigits high fraction
  let places : Int := fraction.length - dropped
  .ofScaled negative digits (exponent + scale - places)

/-- Reads a number. -/
def number : Scan Value := do
  let negative ← accept "-"
  let whole ← someDigits
  guard (whole.head? ≠ some '0' || whole.length = 1)
  let hasPoint ← accept "."
  let fraction ← if hasPoint then someDigits else pure []
  let hasExponent := (← acceptOneOf ['e', 'E']).isSome
  let exponent ← if hasExponent then exponent else pure 0
  let magnitude ← ofOption (ofDigits? 10 whole)
  let n : Int := if negative then -magnitude else magnitude
  if !hasPoint && !hasExponent && Value.fitsBits 64 n && !(negative && magnitude = 0) then
    return .integer n
  match float negative whole fraction exponent with
  | .overflow _ => failure
  | x => return .float x

mutual

/-- Reads a value; `fuel` bounds how deep it may be nested and how many values it may hold. -/
def value : Nat → Scan Value
  | 0 => failure
  | fuel + 1 => do
    skipBlank
    match ← peek with
    | some 'n' => expect "null"; return .null
    | some 't' => expect "true"; return .boolean true
    | some 'f' => expect "false"; return .boolean false
    | some '"' => expect "\""; return .string (← string)
    | some '[' =>
      expect "["
      skipBlank
      if ← accept "]" then return .array []
      return .array (← items fuel)
    | some '\x7b' =>
      expect "\x7b"
      skipBlank
      if ← accept "\x7d" then return .table []
      return .table ((← entries fuel).foldl (fun table (name, v) => insertEntry name v table) [])
    | _ => number

/-- Reads the items of a list up to its closing bracket. -/
def items : Nat → Scan (List Value)
  | 0 => failure
  | fuel + 1 => do
    let first ← value fuel
    skipBlank
    if ← accept "," then return first :: (← items fuel)
    expect "]"
    return [first]

/-- Reads the entries of an object up to its closing brace. -/
def entries : Nat → Scan (List (String × Value))
  | 0 => failure
  | fuel + 1 => do
    skipBlank
    expect "\""
    let name ← string
    skipBlank
    expect ":"
    let first ← value fuel
    skipBlank
    if ← accept "," then return (name, first) :: (← entries fuel)
    expect "\x7d"
    return [(name, first)]

end

/-- Reads a JSON text. -/
def read? (text : String) : Option Value :=
  let chars := text.toList
  runAll? (do let v ← value (2 * chars.length + 2); skipBlank; return v) chars

end NearestWins.Json
