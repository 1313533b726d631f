import Eaves.Number.Binary64

/-!
# Powers with a fractional exponent

The light a display channel gives off grows with a fractional power of its level.
Such a power is irrational in general, so it is worked out in binary fixed point,
by series for the logarithm and the exponential, with far more fraction bits than
a 64-bit number keeps, and rounded into the format at the end.
-/

namespace Eaves.Number.Power

/-- The number of fraction bits carried. -/
def fractionBits : Nat := 200

/-- One, in fixed point. -/
def one : Int := twoTo fractionBits

/-- A rational in fixed point, rounded down. -/
def ofRat (x : Rat) : Int :=
  x.num * one / (x.den : Int)

/-- The product of two fixed point numbers, rounded down. -/
def times (x y : Int) : Int :=
  x * y / one

/-- The sum of `term / k + term * square / (k + 2) + …`, `count` terms long. -/
def oddSeries (square : Int) : (count : Nat) → (k : Nat) → (term : Int) → Int
  | 0, _, _ => 0
  | count + 1, k, term => term / (k : Int) + oddSeries square count (k + 2) (times term square)

/-- The natural logarithm of a number from one to two, by the series of the inverse
hyperbolic tangent of `(x - 1) / (x + 1)`. -/
def logOfSignificand (x : Int) : Int :=
  let z := (x - one) * one / (x + one)
  2 * oddSeries (times z z) 70 1 z

/-- The natural logarithm of two. -/
def logTwo : Int :=
  logOfSignificand (2 * one)

/-- The natural logarithm of a positive rational. -/
def log (x : Rat) : Int :=
  let e := Binary64.binaryExponent x.num.natAbs x.den
  let significand : Rat :=
    if e < 0 then x * (twoTo (-e).toNat : Int) else x / (twoTo e.toNat : Int)
  logOfSignificand (ofRat significand) + e * logTwo

/-- The sum of `term + term * x / k + …`, `count` terms long. -/
def exponentialSeries (x : Int) : (count : Nat) → (k : Nat) → (term : Int) → Int
  | 0, _, _ => 0
  | count + 1, k, term =>
      term + exponentialSeries x count (k + 1) (times term x / (k : Int))

/-- The exponential of a fixed point number, as a rational. -/
def exponential (x : Int) : Rat :=
  let twos := x / logTwo
  let rest := x - twos * logTwo
  let significand : Rat := mkRat (exponentialSeries rest 60 1 one) (twoTo fractionBits)
  if twos < 0 then significand / (twoTo (-twos).toNat : Int)
  else significand * (twoTo twos.toNat : Int)

/-- A positive finite number raised to a finite power. -/
def power (x y : Rat) : Binary64 :=
  Binary64.ofRat (exponential (log x * y.num / (y.den : Int)))

end Eaves.Number.Power
