import NearestWins.Double

/-!
# Digits

Reading numbers from their digits.
-/

namespace NearestWins

/-- The value of a hexadecimal digit. -/
def hexDigit? (c : Char) : Option Nat :=
  if '0' ≤ c ∧ c ≤ '9' then some (c.toNat - '0'.toNat)
  else if 'a' ≤ c ∧ c ≤ 'f' then some (c.toNat - 'a'.toNat + 10)
  else if 'A' ≤ c ∧ c ≤ 'F' then some (c.toNat - 'A'.toNat + 10)
  else none

/-- The value of a digit in a base of at most sixteen. -/
def digit? (base : Nat) (c : Char) : Option Nat :=
  (hexDigit? c).filter (· < base)

/-- The number that digits write, unless one of them is no digit. -/
def ofDigits? (base : Nat) (digits : List Char) : Option Nat :=
  digits.foldlM (fun n c => (digit? base c).map (base * n + ·)) 0

/-- The character of a code point, unless there is none. -/
def charOfNat? (n : Nat) : Option Char :=
  if h : n.isValidChar then some (Char.ofNatAux n h) else none

/-- The number written with these digits before and behind the point and this exponent of ten. -/
def Double.ofParts? (negative : Bool) (whole fraction : List Char) (exponent : Int) :
    Option Double :=
  (ofDigits? 10 (whole ++ fraction)).map fun digits =>
    .ofLiteral negative digits (exponent - fraction.length)

end NearestWins
