import NearestWins.Data.Value
import NearestWins.Text.Fields
import NearestWins.Toml.Datetime
import NearestWins.Toml.Text

/-!
# Numbers, dates and times in a TOML document

The values without quotes and brackets. Integers may be written in four bases and numbers may group
their digits with underscores. The shape of a number is checked when it is read, its digits only
when a record looks at it: what has the shape of an integer but not the digits of one becomes
`Value.malformed`.
-/

namespace NearestWins.Toml

open Scan

/-- A number without its underscores, each of which must stand between two digits. -/
def ungroup? (isDigit : Char → Bool) (text : List Char) : Option (List Char) :=
  let pieces := splitFields '_' text
  if pieces.dropLast.all (·.getLast?.any isDigit) && (pieces.drop 1).all (·.head?.any isDigit)
  then some pieces.flatten
  else none

/-- A sign at the front of a text, and the text behind it. -/
def unsign : List Char → Bool × List Char
  | '-' :: rest => (true, rest)
  | '+' :: rest => (false, rest)
  | text => (false, text)

/-- The integer that digits write in a base. -/
def integer (base : Nat) (negative : Bool) (digits : List Char) : Value :=
  match ofDigits? base digits with
  | some n => if digits.isEmpty then .malformed else .integer (if negative then -n else n)
  | none => .malformed

/-- Whether underscores of an integer may stand beside a character: the digits of all bases count,
whatever the base. -/
def isIntegerDigit (c : Char) : Bool := (hexDigit? c).isSome

/-- The integer that text behind the mark of a base writes. -/
def based? (base : Nat) (text : List Char) : Option Value := do
  guard (text.all fun c => c = '_' || (digit? base c).isSome)
  let digits ← ungroup? isIntegerDigit text
  some (integer base false digits)

/-- The decimal integer that a text with its sign writes. -/
def decimal? (text : List Char) : Option Value := do
  let (_, body) := unsign text
  guard (body.head? ≠ some '0' || body.length = 1)
  let (negative, digits) := unsign (← ungroup? isIntegerDigit text)
  some (integer 10 negative digits)

/-- Reads digits and underscores, of which one at least is a digit, and keeps the digits. Where idle
zeros are refused, several digits do not begin with a zero. -/
def digitRun (idleZeros : Bool) : Scan (List Char) := do
  let run ← takeWhile fun c => c.isDigit || c = '_'
  let digits := run.filter Char.isDigit
  guard (!digits.isEmpty)
  guard (idleZeros || digits.length = 1 || run.head? ≠ some '0')
  return digits

/-- Reads a number with a fraction or an exponent, without its sign. -/
def float (negative : Bool) : Scan Double := do
  let whole ← digitRun false
  let fraction ← if ← accept "." then digitRun true else pure []
  let exponent : Int ←
    if (← acceptOneOf ['e', 'E']).isSome then do
      let sign ← acceptOneOf ['+', '-']
      let n ← ofOption (ofDigits? 10 (← digitRun true))
      pure (if sign = some '-' then -n else n)
    else pure 0
  ofOption (Double.ofParts? negative whole fraction exponent)

/-- The number that a text with its sign writes. -/
def number? (text : List Char) : Option Value := do
  let (negative, body) := unsign text
  let behind := body.dropWhile Char.isDigit
  if behind.any fun c => c = '.' || c = 'e' || c = 'E' then
    let _ ← ungroup? Char.isDigit text
    (runAll? (float negative) body).map .float
  else
    guard (!body.isEmpty && (behind.isEmpty || behind.head? = some '_') && ' ' ∉ behind)
    decimal? text

/-- Whether a text is meant as a date or a time: a hyphen or a colon follows its first digits. -/
def looksLikeDatetime (text : List Char) : Bool :=
  text.head?.any Char.isDigit &&
    (text.dropWhile Char.isDigit).head?.any fun c => c = '-' || c = ':'

/-- The value that a text without quotes and brackets writes. -/
def scalar? (text : List Char) : Option Value :=
  match text with
  | ['t', 'r', 'u', 'e'] => some (.boolean true)
  | ['f', 'a', 'l', 's', 'e'] => some (.boolean false)
  | '0' :: 'x' :: digits => based? 16 digits
  | '0' :: 'o' :: digits => based? 8 digits
  | '0' :: 'b' :: digits => based? 2 digits
  | _ =>
    if looksLikeDatetime text then (datetime? text).map .datetime
    else
      match unsign text with
      | (negative, ['i', 'n', 'f']) => some (.float (.infinite negative))
      | (_, ['n', 'a', 'n']) => some (.float .nan)
      | _ => number? text

/-- Whether a character may stand in a value without quotes and brackets: it is no blank, no line
break, begins no comment and has no meaning between values. -/
def isScalarChar (c : Char) : Bool :=
  c ∉ [' ', '\t', '\n', '\r', '#', '=', ',', '[', ']', '\x7b', '\x7d']

/-- Whether more text of a value comes behind blanks. What begins with a quote or a point does not
belong to it. -/
def continues (text : List Char) : Bool :=
  (text.dropWhile isBlank).head?.any fun c => isScalarChar c && c ∉ ['"', '\x27', '.']

/-- The text of a value without quotes and brackets, and what follows it. Blanks belong to the text
where it goes on behind them, as between a date and a time. -/
def splitScalar : List Char → List Char × List Char
  | [] => ([], [])
  | c :: rest =>
    if isScalarChar c || (isBlank c && continues rest) then
      let (text, behind) := splitScalar rest
      (c :: text, behind)
    else ([], c :: rest)

/-- Reads a value without quotes and brackets. -/
def scalar : Scan Value := do
  let (text, rest) := splitScalar (← get)
  set rest
  ofOption (scalar? text)

end NearestWins.Toml
