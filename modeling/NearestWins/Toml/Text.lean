import NearestWins.Text.Digits
import NearestWins.Text.Scan

/-!
# Strings, names and blanks of TOML

The parts of a TOML text below its values: the four kinds of strings, the dotted names of entries
and tables, and what may stand between them.
-/

namespace NearestWins.Toml

open Scan

/-- Whether a character may stand in a comment or a literal string: no control character but the
tab. -/
def isPlain (c : Char) : Bool :=
  c = '\t' || (' ' ≤ c && c ≠ '\x7f')

/-- Whether a character is a blank within a line. -/
def isBlank (c : Char) : Bool := c = ' ' || c = '\t'

/-- Skips blanks within a line. -/
def skipBlank : Scan Unit := skipWhile isBlank

/-- Skips a comment, if there is one. -/
def skipComment : Scan Unit := do
  if ← accept "#" then skipWhile isPlain

/-- Consumes a line break, if there is one, and says whether there is. -/
def acceptBreak : Scan Bool := do
  if ← accept "\n" then return true
  accept "\r\n"

/-- Skips what may stand before the end of a line, and the end itself. -/
def endLine : Scan Unit := do
  skipBlank
  skipComment
  guard ((← acceptBreak) || (← get).isEmpty)

/-- What follows blanks, line breaks and comments; none if a comment holds a control character. -/
def afterGaps (inComment : Bool) : List Char → Option (List Char)
  | '\n' :: rest => afterGaps false rest
  | '\r' :: '\n' :: rest => afterGaps false rest
  | c :: rest =>
    if inComment then if isPlain c then afterGaps true rest else none
    else if isBlank c then afterGaps false rest
    else if c = '#' then afterGaps true rest
    else some (c :: rest)
  | [] => some []

/-- Skips blanks, line breaks and comments. -/
def skipGaps : Scan Unit := fun text => (afterGaps false text).map ((), ·)

/-- What follows blanks and line breaks. -/
def afterBlankLines : List Char → List Char
  | '\n' :: rest => afterBlankLines rest
  | '\r' :: '\n' :: rest => afterBlankLines rest
  | c :: rest => if isBlank c then afterBlankLines rest else c :: rest
  | [] => []

/-- The character that an escape stands for, and what follows; the text begins behind the
backslash. -/
def unescape : List Char → Option (Char × List Char)
  | 'b' :: rest => some ('\x08', rest)
  | 't' :: rest => some ('\t', rest)
  | 'n' :: rest => some ('\n', rest)
  | 'f' :: rest => some ('\x0c', rest)
  | 'r' :: rest => some ('\r', rest)
  | 'e' :: rest => some ('\x1b', rest)
  | '"' :: rest => some ('"', rest)
  | '\\' :: rest => some ('\\', rest)
  | 'x' :: rest => ofHex 2 rest
  | 'u' :: rest => ofHex 4 rest
  | 'U' :: rest => ofHex 8 rest
  | _ => none
where
  /-- The character of a code point written with a number of hexadecimal digits. -/
  ofHex (count : Nat) (text : List Char) : Option (Char × List Char) := do
    guard ((text.take count).length = count)
    let c ← charOfNat? (← ofDigits? 16 (text.take count))
    some (c, text.drop count)

/-- The text of a string with escapes decoded. In a string of `several` lines, line breaks stand for
themselves and a backslash at the end of a line joins it with the next text. `fuel` bounds the
number of characters. -/
def decode (several : Bool) : Nat → List Char → Option (List Char)
  | _, [] => some []
  | 0, _ => none
  | fuel + 1, '\\' :: rest =>
    match if several then rest.dropWhile isBlank else rest with
    | '\n' :: rest => decodeLine fuel rest
    | '\r' :: '\n' :: rest => decodeLine fuel rest
    | _ => do
      let (c, rest) ← unescape rest
      (decode several fuel rest).map (c :: ·)
  | fuel + 1, '\r' :: '\n' :: rest =>
    if several then (decode several fuel rest).map ('\r' :: '\n' :: ·) else none
  | fuel + 1, c :: rest =>
    if isPlain c || (several && c = '\n') then (decode several fuel rest).map (c :: ·) else none
where
  /-- Goes on behind a joined line break. -/
  decodeLine (fuel : Nat) (rest : List Char) : Option (List Char) :=
    if several then decode several fuel (afterBlankLines rest) else none

/-- What stands before the double quote that ends a string, and what follows it. -/
def splitLine : List Char → Option (List Char × List Char)
  | '"' :: rest => some ([], rest)
  | '\\' :: c :: rest => (splitLine rest).map fun (raw, rest) => ('\\' :: c :: raw, rest)
  | c :: rest => (splitLine rest).map fun (raw, rest) => (c :: raw, rest)
  | [] => none

/-- What stands before the single quote that ends a string, and what follows it. -/
def splitLiteral : List Char → Option (List Char × List Char)
  | '\x27' :: rest => some ([], rest)
  | c :: rest => (splitLiteral rest).map fun (raw, rest) => (c :: raw, rest)
  | [] => none

/-- The quotes that end a string of several lines: three, behind up to two that belong to it. -/
def closing (quote : Char) (text : List Char) : Option (List Char × List Char) :=
  let quotes := (text.takeWhile (· = quote)).length
  if 3 ≤ quotes then
    let kept := min (quotes - 3) 2
    some (List.replicate kept quote, text.drop (kept + 3))
  else none

/-- What stands before the triple quotes that end a string, and what follows them. Where `escapes`
are known, the character behind a backslash ends nothing. -/
def splitLines (quote : Char) (escapes : Bool) : List Char → Option (List Char × List Char)
  | [] => none
  | [_] => none
  | c :: d :: rest =>
    if c = quote then
      match closing quote (c :: d :: rest) with
      | some found => some found
      | none => (splitLines quote escapes (d :: rest)).map fun (raw, rest) => (c :: raw, rest)
    else if escapes && c = '\\' then
      (splitLines quote escapes rest).map fun (raw, rest) => (c :: d :: raw, rest)
    else (splitLines quote escapes (d :: rest)).map fun (raw, rest) => (c :: raw, rest)

/-- The text of a string without escapes. -/
def literal (several : Bool) : List Char → Option (List Char)
  | [] => some []
  | '\r' :: '\n' :: rest =>
    if several then (literal several rest).map ('\r' :: '\n' :: ·) else none
  | c :: rest =>
    if isPlain c || (several && c = '\n') then (literal several rest).map (c :: ·) else none

/-- A line break behind the opening quotes of a string of several lines does not belong to it. -/
def dropFirstBreak : List Char → List Char
  | '\n' :: rest => rest
  | '\r' :: '\n' :: rest => rest
  | text => text

/-- Reads what `split` takes from behind the opening quotes, and decodes it. -/
def quotedText (opening : Nat) (split : List Char → Option (List Char × List Char))
    (decode : List Char → Option (List Char)) : Scan String := do
  let (raw, rest) ← ofOption (split ((← get).drop opening))
  set rest
  return String.ofList (← ofOption (decode raw))

/-- Reads a string in quotes on one line. -/
def lineString : Scan String := do
  match ← peek with
  | some '"' => quotedText 1 splitLine fun raw => decode false raw.length raw
  | some '\x27' => quotedText 1 splitLiteral (literal false)
  | _ => failure

/-- Reads a string in quotes. -/
def string : Scan String := do
  match ← get with
  | '"' :: '"' :: '"' :: _ =>
    quotedText 3 (splitLines '"' true ∘ dropFirstBreak) fun raw => decode true raw.length raw
  | '\x27' :: '\x27' :: '\x27' :: _ =>
    quotedText 3 (splitLines '\x27' false ∘ dropFirstBreak) (literal true)
  | _ => lineString

/-- Whether a character may stand in a name without quotes. -/
def isBare (c : Char) : Bool := c.isAlphanum || c = '_' || c = '-'

/-- Reads one part of a name. -/
def namePart : Scan String := do
  match ← peek with
  | some '"' => lineString
  | some '\x27' => lineString
  | _ =>
    let part ← takeWhile isBare
    guard !part.isEmpty
    return String.ofList part

/-- Reads the name of an entry or a table, part by part; `fuel` bounds the number of its parts. -/
def name : Nat → Scan (List String)
  | 0 => failure
  | fuel + 1 => do
    let part ← namePart
    skipBlank
    if ← accept "." then
      skipBlank
      return part :: (← name fuel)
    return [part]

end NearestWins.Toml
