import NearestWins.Fraction

/-!
# Doubles

Floating-point numbers only ever appear in messages. A double is kept as its significand and
exponent, `significand * 2 ^ exponent`, and everything about it is decided in exact natural numbers.
`Double.ofFraction` rounds to a double, and `Double.ofLiteral` is the double nearest to a decimal
literal.
-/

namespace NearestWins

/-- A number of a document that is no integer. -/
inductive Double
  /-- Not a number. -/
  | nan
  /-- An infinity. -/
  | infinite (negative : Bool)
  /-- A literal beyond the largest double. -/
  | overflow (negative : Bool)
  /-- The number `± significand * 2 ^ exponent`; a zero keeps its sign. -/
  | finite (negative : Bool) (significand : Nat) (exponent : Int)
deriving DecidableEq

namespace Double

/-- The number of bits in the significand of a double. -/
def significandBits : Int := 53

/-- The least significand of that many bits. -/
def leastNormal : Nat := Nat.pow 2 52

/-- The exponent of the smallest doubles. -/
def leastExponent : Int := -1074

/-- The exponent of the largest doubles. -/
def greatestExponent : Int := 971

/-- The double nearest to a positive fraction, as significand and exponent. -/
def nearest (f : Fraction) : Nat × Int :=
  let exponent := max (f.log2 - (significandBits - 1)) leastExponent
  let significand := (f.quotient (.scaled 1 2 exponent)).roundEven
  if significand = 2 * leastNormal then (leastNormal, exponent + 1) else (significand, exponent)

/-- The double nearest to a fraction with a sign. -/
def ofFraction (negative : Bool) (f : Fraction) : Double :=
  if f.num = 0 then .finite negative 0 0
  else
    let (significand, exponent) := nearest f
    if greatestExponent < exponent then .overflow negative
    else .finite negative significand exponent

/-- The number of decimal digits of a natural number. -/
def digitCount (n : Nat) : Nat := (Nat.toDigits 10 n).length

/-- The double nearest to the literal `± digits * 10 ^ exponent`. Literals far outside the range of
doubles are told by their magnitude. -/
def ofLiteral (negative : Bool) (digits : Nat) (exponent : Int) : Double :=
  let magnitude := (digitCount digits : Int) + exponent
  if digits = 0 ∨ magnitude < -330 then .finite negative 0 0
  else if 320 < magnitude then .overflow negative
  else ofFraction negative (.scaled digits 10 exponent)

end Double

end NearestWins
