import Eaves.Number.Decimal

/-!
# Numbers with an exponent

A number with one digit before the point, a fixed count of places after it and a
power of ten; and the form that shows a fixed count of significant digits, with the
power of ten only where it is far from zero.  Both round the exact value, with ties
to even.
-/

namespace Eaves.Number.Binary64

/-- The significand of a magnitude with `places + 1` digits, and its power of ten. -/
def significand (places : Nat) (magnitude : Rat) : Nat × Int :=
  if magnitude = 0 then (0, 0)
  else
    let leading := decimalExponent magnitude
    let last := leading - places
    let scaled :=
      if last < 0 then roundRatio (magnitude.num * tenTo (-last).toNat) magnitude.den
      else roundRatio magnitude.num (magnitude.den * tenTo last.toNat)
    if tenTo (places + 1) ≤ scaled.toNat then (scaled.toNat / 10, leading + 1)
    else (scaled.toNat, leading)

/-- The digits after the point, where there are any or the point is kept. -/
def afterPoint (keepPoint : Bool) (digits : List Char) : List Char :=
  if digits.isEmpty && !keepPoint then [] else '.' :: digits

/-- A power of ten as it is written, with a sign and at least two digits. -/
def powerText (exponent : Int) : List Char :=
  'e' :: (if exponent < 0 then '-' else '+') :: paddedDigits 2 exponent.natAbs

/-- A magnitude with one digit before the point and a power of ten. -/
def scientificDigits (keepPoint : Bool) (places : Nat) (magnitude : Rat) : List Char :=
  let (m, exponent) := significand places magnitude
  let digits := paddedDigits (places + 1) m
  digits.take 1 ++ afterPoint keepPoint (digits.drop 1) ++ powerText exponent

/-- A magnitude with a fixed count of places; the point may be kept where there are none. -/
def plainDigits (keepPoint : Bool) (places : Nat) (magnitude : Rat) : List Char :=
  fixedDigits places magnitude ++ (if places = 0 && keepPoint then ['.'] else [])

/-- Digits without the zeros at their end. -/
def withoutEndZeros (digits : List Char) : List Char :=
  (digits.reverse.dropWhile (· = '0')).reverse

/-- A magnitude with a count of significant digits, at least one; zeros at the end are dropped
unless they are kept. -/
def generalDigits (keepZeros : Bool) (count : Nat) (magnitude : Rat) : List Char :=
  let (m, exponent) := significand (count - 1) magnitude
  let digits := paddedDigits count m
  let trim (fraction : List Char) : List Char :=
    if keepZeros then fraction else withoutEndZeros fraction
  if -4 ≤ exponent ∧ exponent < count then
    let digits := List.replicate (-exponent).toNat '0' ++ digits
    let whole := exponent.toNat + 1
    digits.take whole ++ afterPoint keepZeros (trim (digits.drop whole))
  else digits.take 1 ++ afterPoint keepZeros (trim (digits.drop 1)) ++ powerText exponent

end Eaves.Number.Binary64
