import NearestWins.Double

/-!
# Doubles scaled by powers of ten

`Double.ofScaled` reads decimal digits with an exponent in steps that round one by one: the digits
are rounded to a double, and that is multiplied or divided by the double nearest to the power of
ten. Its last digits may differ from those of `Double.ofLiteral`, which rounds once.
-/

namespace NearestWins.Double

/-- Whether a double is a zero. -/
def isZero : Double → Bool
  | .finite _ significand _ => significand = 0
  | _ => false

/-- Whether a double has a minus sign. -/
def isNegative : Double → Bool
  | .nan => false
  | .infinite negative | .overflow negative | .finite negative _ _ => negative

/-- A finite double whose magnitude is changed and rounded. -/
def mapMagnitude (change : Fraction → Fraction) : Double → Double
  | .finite negative significand exponent =>
    ofFraction negative (change (.scaled significand 2 exponent))
  | x => x

/-- The greatest exponent of a power of ten within the range of doubles. -/
def greatestPower : Nat := 308

/-- The double nearest to `10 ^ n`, as a fraction. -/
def powerOfTen (n : Nat) : Fraction :=
  let (significand, exponent) := nearest (.scaled 1 10 n)
  .scaled significand 2 exponent

/-- A double times `10 ^ n`. Where the power is out of range, so is every product but that of a
zero. -/
def timesPower (x : Double) (n : Nat) : Double :=
  if n ≤ greatestPower then x.mapMagnitude (·.product (powerOfTen n))
  else if x.isZero then x
  else .overflow x.isNegative

/-- A double divided by `10 ^ n`. Where the power is out of range, the greatest one divides first,
until the rest of it is in range or the quotient is a zero. -/
def dividedByPower (x : Double) (n : Nat) : Double :=
  if n ≤ greatestPower then x.mapMagnitude (·.quotient (powerOfTen n))
  else if x.isZero then x
  else
    dividedByPower (x.mapMagnitude (·.quotient (powerOfTen greatestPower))) (n - greatestPower)
termination_by n
decreasing_by simp only [greatestPower] at *; omega

/-- The double that `± digits * 10 ^ exponent` is read as when the digits are rounded first. -/
def ofScaled (negative : Bool) (digits : Nat) (exponent : Int) : Double :=
  let rounded := ofFraction negative ⟨digits, 1⟩
  match exponent with
  | .ofNat n => rounded.timesPower n
  | .negSucc n => rounded.dividedByPower (n + 1)

end NearestWins.Double
