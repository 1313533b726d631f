import Eaves.Number.Binary64

/-!
# Decimal text of numbers

Reading: a decimal is a whole number of digits and a power of ten, and denotes a
rational that is rounded once into the 64-bit format.  Writing: either a fixed
number of places, from the exact value with ties to even, or the fewest digits
that read back as the same number.
-/

namespace Eaves.Number

/-- A decimal numeral: a sign, the number its digits spell, how many digits there are, and
the power of ten it is scaled by. -/
structure Decimal where
  negative : Bool
  digits : Nat
  digitCount : Nat
  exponent : Int
  deriving DecidableEq, Repr

namespace Decimal

/-- The rational a decimal denotes. -/
def toRat (d : Decimal) : Rat :=
  let magnitude : Rat :=
    if d.exponent < 0 then mkRat d.digits (tenTo (-d.exponent).toNat)
    else ((d.digits * tenTo d.exponent.toNat : Nat) : Int)
  if d.negative then -magnitude else magnitude

/-- The 64-bit number nearest to a decimal.  A decimal far outside the format's range is
settled by its scale alone. -/
def toBinary64 (d : Decimal) : Binary64 :=
  if d.digits = 0 then (if d.negative then .negativeZero else .finite 0)
  else if 400 < d.exponent then .infinite d.negative
  else if d.exponent + d.digitCount < -400 then
    (if d.negative then .negativeZero else .finite 0)
  else Binary64.ofRat d.toRat

end Decimal

namespace Binary64

/-- A whole number's digits, padded with zeros to the left to the given width. -/
def paddedDigits (width n : Nat) : List Char :=
  let digits := Nat.toDigits 10 n
  List.replicate (width - digits.length) '0' ++ digits

/-- A magnitude scaled by a power of ten and rounded, written with the point set back. -/
def fixedDigits (places : Nat) (magnitude : Rat) : List Char :=
  let scaled := (roundRatio (magnitude.num * tenTo places) magnitude.den).toNat
  let digits := paddedDigits (places + 1) scaled
  let whole := digits.take (digits.length - places)
  if places = 0 then whole
  else whole ++ '.' :: digits.drop (digits.length - places)

/-- The texts of the numbers that have no digits. -/
def specialText : Binary64 → Option String
  | .infinite negative => some (if negative then "-inf" else "inf")
  | .nan => some "nan"
  | _ => none

/-- The number with a fixed count of places, rounded from its exact value with ties to even. -/
def fixed (places : Nat) (x : Binary64) : String :=
  match x.specialText with
  | some text => text
  | none =>
      String.ofList ((if x.isNegative then ['-'] else []) ++ fixedDigits places x.toRat.abs)

/-- The number as a percentage without places: it is multiplied by a hundred in the format,
and the product rounded with ties to even. -/
def percent (x : Binary64) : String :=
  (x.mul (.finite 100)).fixed 0 ++ "%"

/-! ## The fewest digits that read back -/

/-- The greatest `e` with `10 ^ e ≤ x`, found from the estimate by at most two steps. -/
def decimalExponent (x : Rat) : Int :=
  let binary := binaryExponent x.num.natAbs x.den
  let guess : Int := (binary * 30103) / 100000
  let power (e : Int) : Rat :=
    if e < 0 then mkRat 1 (tenTo (-e).toNat) else (tenTo e.toNat : Int)
  if power (guess + 1) ≤ x then guess + 1
  else if power guess ≤ x then guess
  else guess - 1

/-- The two neighbours of `x` among the multiples of `10 ^ e`, nearest first. -/
def gridNeighbours (x : Rat) (e : Int) : List Nat :=
  let scaled : Rat :=
    if e < 0 then x * (tenTo (-e).toNat : Int) else x / (tenTo e.toNat : Int)
  let low := scaled.floor.toNat
  if (roundEven scaled).toNat = low then [low, low + 1] else [low + 1, low]

/-- The shortest digits, from the given count on, and the power of ten of the last digit. -/
def shortestFrom (x : Rat) (leading : Int) : (count fuel : Nat) → Nat × Int
  | count, 0 =>
      let e := leading - count + 1
      ((gridNeighbours x e).headD 0, e)
  | count, fuel + 1 =>
      let e := leading - count + 1
      let hit := (gridNeighbours x e).find? fun m =>
        (Decimal.toBinary64 ⟨false, m, 0, e⟩) = .finite x
      match hit with
      | some m => (m, e)
      | none => shortestFrom x leading (count + 1) fuel

/-- Drops the zeros at the end of a whole number, counting them; the fuel bounds the count. -/
def dropZeros : (fuel : Nat) → Nat → Int → Nat × Int
  | 0, m, e => (m, e)
  | fuel + 1, m, e => if m ≠ 0 ∧ m % 10 = 0 then dropZeros fuel (m / 10) (e + 1) else (m, e)

/-- The digits of a positive number's shortest text, positional from `10 ^ -4` to below
`10 ^ 16` and with an exponent of at least two digits outside. -/
def shortestDigits (x : Rat) : List Char :=
  let found := shortestFrom x (decimalExponent x) 1 17
  let (m, e) := dropZeros 20 found.1 found.2
  let digits := Nat.toDigits 10 m
  let leading : Int := e + digits.length - 1
  if -4 ≤ leading ∧ leading < 16 then
    if 0 ≤ e then digits ++ List.replicate e.toNat '0' ++ ['.', '0']
    else
      let padded := paddedDigits ((-e).toNat + 1) m
      padded.take (padded.length - (-e).toNat) ++ '.' :: padded.drop (padded.length - (-e).toNat)
  else
    let fraction := digits.drop 1
    digits.take 1 ++ (if fraction.isEmpty then [] else '.' :: fraction) ++
      (if leading < 0 then ['e', '-'] else ['e', '+']) ++ paddedDigits 2 leading.natAbs

/-- The shortest text that reads back as the same number. -/
def shortest (x : Binary64) : String :=
  match x.specialText with
  | some text => text
  | none =>
      let magnitude := x.toRat.abs
      String.ofList ((if x.isNegative then ['-'] else []) ++
        (if magnitude = 0 then ['0', '.', '0'] else shortestDigits magnitude))

end Binary64

end Eaves.Number
