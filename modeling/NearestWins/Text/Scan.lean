/-!
# Scanning text

Readers are built from steps that consume the front of a text or fail.
-/

namespace NearestWins

/-- A step of a reader. -/
abbrev Scan := StateT (List Char) Option

namespace Scan

/-- The next character, without consuming it. -/
def peek : Scan (Option Char) := do return (← get).head?

/-- Consumes a text if it comes next, and says whether it does. -/
def accept (text : String) : Scan Bool := do
  let rest ← get
  if text.toList.isPrefixOf rest then
    set (rest.drop text.length)
    return true
  return false

/-- Consumes one of some characters if it comes next, and says which. -/
def acceptOneOf (choices : List Char) : Scan (Option Char) := do
  match ← get with
  | c :: rest =>
    if c ∈ choices then
      set rest
      return some c
    return none
  | [] => return none

/-- Consumes a text that must come next. -/
def expect (text : String) : Scan Unit := do
  guard (← accept text)

/-- Consumes the characters of a kind at the front. -/
def takeWhile (kind : Char → Bool) : Scan (List Char) := do
  let rest ← get
  set (rest.dropWhile kind)
  return rest.takeWhile kind

/-- Skips the characters of a kind at the front. -/
def skipWhile (kind : Char → Bool) : Scan Unit :=
  modify (·.dropWhile kind)

/-- Consumes as many decimal digits. -/
def digits (count : Nat) : Scan (List Char) := do
  let rest ← get
  let front := rest.take count
  guard (front.length = count && front.all Char.isDigit)
  set (rest.drop count)
  return front

/-- Goes on with a value if there is one. -/
def ofOption {α : Type} (value : Option α) : Scan α := fun text => value.map (·, text)

/-- Runs a reader on a text that it must consume to the end. -/
def runAll? {α : Type} (scan : Scan α) (text : List Char) : Option α :=
  match scan.run text with
  | some (value, []) => some value
  | _ => none

end Scan

end NearestWins
