import NearestWins.Data.Value

/-!
# Writing JSON

Two layouts: everything on one line, and one entry or item to a line with two blanks of indentation
for each level. Strings escape quotes, backslashes and control characters and nothing else.
-/

namespace NearestWins.Json

/-- A character as it stands in a string. -/
def escape (c : Char) : List Char :=
  if c = '"' then ['\\', '"']
  else if c = '\\' then ['\\', '\\']
  else if c = '\x08' then ['\\', 'b']
  else if c = '\x0c' then ['\\', 'f']
  else if c = '\n' then ['\\', 'n']
  else if c = '\r' then ['\\', 'r']
  else if c = '\t' then ['\\', 't']
  else if c < ' ' then
    let digits := Nat.toDigits 16 c.toNat
    ['\\', 'u'] ++ List.replicate (4 - digits.length) '0' ++ digits
  else [c]

/-- A string with its quotes. -/
def quote (text : String) : String :=
  String.ofList ('"' :: (text.toList.flatMap escape ++ ['"']))

/-- A value that holds no others. -/
def scalar : Value → String
  | .boolean b => if b then "true" else "false"
  | .integer n => toString n
  | .float (.finite negative significand exponent) =>
    (Double.finite negative significand exponent).text .scientific
  | .string text | .datetime text => quote text
  | _ => "null"

mutual

/-- A value on one line. -/
def compact : Value → String
  | .array items => "[" ++ ",".intercalate (compactItems items) ++ "]"
  | .table entries => "\x7b" ++ ",".intercalate (compactEntries entries) ++ "\x7d"
  | v => scalar v

/-- The items of a list. -/
def compactItems : List Value → List String
  | [] => []
  | v :: rest => compact v :: compactItems rest

/-- The entries of an object. -/
def compactEntries : List (String × Value) → List String
  | [] => []
  | (name, v) :: rest => (quote name ++ ":" ++ compact v) :: compactEntries rest

end

/-- Lines between two brackets, or the brackets alone. -/
def block (opening closing indent : String) (lines : List String) : String :=
  if lines.isEmpty then opening ++ closing
  else
    let inner := "\n" ++ indent ++ "  "
    opening ++ inner ++ ("," ++ inner).intercalate lines ++ "\n" ++ indent ++ closing

mutual

/-- A value over several lines, the first of which is already indented. -/
def pretty (indent : String) : Value → String
  | .array items => block "[" "]" indent (prettyItems (indent ++ "  ") items)
  | .table entries => block "\x7b" "\x7d" indent (prettyEntries (indent ++ "  ") entries)
  | v => scalar v

/-- The items of a list. -/
def prettyItems (indent : String) : List Value → List String
  | [] => []
  | v :: rest => pretty indent v :: prettyItems indent rest

/-- The entries of an object. -/
def prettyEntries (indent : String) : List (String × Value) → List String
  | [] => []
  | (name, v) :: rest =>
    (quote name ++ ": " ++ pretty indent v) :: prettyEntries indent rest

end

end NearestWins.Json
