import NearestWins.Double

/-!
# The shortest digits of a double

`Double.shortest` finds the fewest decimal digits that read back as a double and, of those, the ones
nearest to it. It looks at one decimal grid after the other, from coarse to fine: the first grid
with a point that rounds to the double decides, and on it the two points around the double compete.
-/

namespace NearestWins.Double

/-- Which of two equally near decimals is taken. -/
inductive Tie
  /-- The one with an even last digit. -/
  | even
  /-- The larger one. -/
  | up
deriving DecidableEq

/-- Whether a fraction rounds to the double `significand * 2 ^ exponent`: it lies between the
midpoints to the neighbours, which belong to the double when its significand is even. -/
def roundsTo (significand : Nat) (exponent : Int) (f : Fraction) : Bool :=
  let high := Fraction.scaled (2 * significand + 1) 2 (exponent - 1)
  let low :=
    if significand = leastNormal ∧ leastExponent < exponent then
      Fraction.scaled (4 * significand - 1) 2 (exponent - 2)
    else Fraction.scaled (2 * significand - 1) 2 (exponent - 1)
  if significand % 2 = 0 then low.le f && f.le high else low.lt f && f.lt high

/-- Whether the lower of two points around a value is taken, when both read back. -/
def takesLower (tie : Tie) (value lower upper : Fraction) (lowerDigits : Nat) : Bool :=
  let down := value.distance lower
  let up := value.distance upper
  down.lt up || (down.le up && tie = .even && lowerDigits % 2 = 0)

/-- The multiple of `10 ^ unit` that rounds to a double and is nearest to it, if there is one. -/
def onGrid (tie : Tie) (significand : Nat) (exponent unit : Int) : Option Nat :=
  let value := Fraction.scaled significand 2 exponent
  let below := (value.quotient (.scaled 1 10 unit)).floor
  let lower := Fraction.scaled below 10 unit
  let upper := Fraction.scaled (below + 1) 10 unit
  let hit := roundsTo significand exponent
  match below ≠ 0 && hit lower, hit upper with
  | true, true => some (if takesLower tie value lower upper below then below else below + 1)
  | true, false => some below
  | false, true => some (below + 1)
  | false, false => none

/-- The first hit on the grids `10 ^ unit`, `10 ^ (unit - 1)`, and so on. -/
def firstOnGrids (tie : Tie) (significand : Nat) (exponent : Int) : Nat → Int → Nat × Int
  | 0, unit => (significand, unit)
  | grids + 1, unit =>
    match onGrid tie significand exponent unit with
    | some digits => (digits, unit)
    | none => firstOnGrids tie significand exponent grids (unit - 1)

/-- Moves trailing zeros of the digits into the exponent. -/
def dropZeros : Nat → Nat → Int → Nat × Int
  | 0, digits, exponent => (digits, exponent)
  | steps + 1, digits, exponent =>
    if digits ≠ 0 ∧ digits % 10 = 0 then dropZeros steps (digits / 10) (exponent + 1)
    else (digits, exponent)

/-- The fewest digits that read back as a double, with the exponent of ten that goes with them. -/
def shortest (tie : Tie) (significand : Nat) (exponent : Int) : Nat × Int :=
  if significand = 0 then (0, 0)
  else
    let value := Fraction.scaled significand 2 exponent
    let leading : Int := (digitCount value.num : Int) - digitCount value.den
    let (digits, unit) := firstOnGrids tie significand exponent 21 (leading + 1)
    dropZeros (digitCount digits) digits unit

end NearestWins.Double
