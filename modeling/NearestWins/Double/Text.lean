import NearestWins.Double.Shortest

/-!
# The text of a double

A double is written with its shortest digits. A `NumberStyle` says when an exponent is used, how it
is written, and which digits win a tie.
-/

namespace NearestWins.Double

/-- How numbers are written. -/
structure NumberStyle where
  /-- Numbers with more digits before the point are written with an exponent. -/
  mostIntegerDigits : Option Nat
  /-- Numbers with more zeros behind the point are written with an exponent. -/
  mostLeadingZeros : Option Nat
  /-- Which of two equally near decimals is written. -/
  tie : Tie

/-- Every number is written in full. -/
def NumberStyle.positional : NumberStyle := ⟨none, none, .up⟩

/-- Large and small numbers are written with an exponent. -/
def NumberStyle.scientific : NumberStyle := ⟨some 16, some 4, .even⟩

/-- The digits of a number with its point, `count` of them before the point; `.0` ends integers. -/
def placePoint (digits : List Char) (count : Int) : List Char :=
  if count ≤ 0 then ['0', '.'] ++ List.replicate (-count).toNat '0' ++ digits
  else
    let whole := digits.take count.toNat
    let zeros := List.replicate (count.toNat - digits.length) '0'
    let rest := digits.drop count.toNat
    whole ++ zeros ++ ['.'] ++ (if rest.isEmpty then ['0'] else rest)

/-- The digits of a number with one digit before the point and an exponent with its sign. -/
def placeExponent (digits : List Char) (count : Int) : List Char :=
  let rest := digits.drop 1
  let sign := if 0 < count then ['+'] else []
  digits.take 1 ++ (if rest.isEmpty then [] else '.' :: rest) ++
    ['e'] ++ sign ++ (toString (count - 1)).toList

/-- The text of a number; an integer ends in `.0`. -/
def text (style : NumberStyle) : Double → String
  | .nan => "NaN"
  | .infinite negative | .overflow negative => if negative then "-inf" else "inf"
  | .finite negative significand binary =>
    let (digits, exponent) := shortest style.tie significand binary
    let sign := if negative then "-" else ""
    let written := Nat.toDigits 10 digits
    let count : Int := if digits = 0 then 1 else written.length + exponent
    let tooLarge := style.mostIntegerDigits.any ((· : Nat → Int) · < count)
    let tooSmall := style.mostLeadingZeros.any ((· : Nat → Int) · < -count)
    sign ++ String.ofList
      (if tooLarge || tooSmall then placeExponent written count else placePoint written count)

end NearestWins.Double
