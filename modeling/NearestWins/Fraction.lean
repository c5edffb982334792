/-!
# Fractions

Exact comparison and rounding of fractions of natural numbers, enough to decide which double a
decimal literal means and which digits write a double.
-/

namespace NearestWins

/-- A fraction of natural numbers. -/
structure Fraction where
  /-- The numerator. -/
  num : Nat
  /-- The denominator, never zero. -/
  den : Nat

namespace Fraction

/-- The fraction `n * base ^ exponent`. -/
def scaled (n base : Nat) : Int → Fraction
  | .ofNat exponent => ⟨n * base.pow exponent, 1⟩
  | .negSucc exponent => ⟨n, base.pow (exponent + 1)⟩

/-- Whether one fraction is below another. -/
def lt (a b : Fraction) : Bool := a.num * b.den < b.num * a.den

/-- Whether one fraction is at most another. -/
def le (a b : Fraction) : Bool := a.num * b.den ≤ b.num * a.den

/-- The distance between two fractions. -/
def distance (a b : Fraction) : Fraction :=
  ⟨(a.num * b.den - b.num * a.den) + (b.num * a.den - a.num * b.den), a.den * b.den⟩

/-- The product of two fractions. -/
def product (a b : Fraction) : Fraction := ⟨a.num * b.num, a.den * b.den⟩

/-- The quotient of two fractions. -/
def quotient (a b : Fraction) : Fraction := ⟨a.num * b.den, a.den * b.num⟩

/-- The largest integer below or at a fraction. -/
def floor (f : Fraction) : Nat := f.num / f.den

/-- The largest integer `e` with `2 ^ e` at most a positive fraction. -/
def log2 (f : Fraction) : Int :=
  let guess : Int := (f.num.log2 : Int) - f.den.log2
  if le (scaled 1 2 guess) f then guess else guess - 1

/-- The integer nearest to a fraction, the even one of two that are equally near. -/
def roundEven (f : Fraction) : Nat :=
  let rest := 2 * (f.num % f.den)
  if rest < f.den then f.floor
  else if rest > f.den then f.floor + 1
  else if f.floor % 2 = 0 then f.floor else f.floor + 1

end Fraction

end NearestWins
