/-!
# Binary floating point numbers of 64 bits

A measured quantity (a confidence, a gradient position, a delay) is a number of
the 64-bit binary format.  A finite one is held as the rational it denotes, so a
result of arithmetic is the exact rational result rounded once: scale to the grid
of 53-bit significands, round to the nearest grid point with ties to even, scale
back.  Infinities and the value that is not a number are kept apart; a zero read
with a minus sign is remembered only because its text shows the sign.

The value of a finite number is not restricted to representable rationals by its
type: every operation below delivers a representable one.

The same rule for a tie, that the even neighbour wins, is the one by which positions
along a strip and levels of a colour become whole numbers.
-/

namespace Eaves.Number

/-! ## Rounding a ratio to an integer -/

/-- A power of two. -/
def twoTo (n : Nat) : Nat :=
  Nat.pow 2 n

/-- A power of ten. -/
def tenTo (n : Nat) : Nat :=
  Nat.pow 10 n

/-- The ratio `numerator / denominator` rounded to the nearest integer; a tie goes to the
even neighbour. -/
def roundRatio (numerator : Int) (denominator : Nat) : Int :=
  let low := numerator / (denominator : Int)
  let rest := numerator % (denominator : Int)
  if 2 * rest < denominator then low
  else if (denominator : Int) < 2 * rest then low + 1
  else if low % 2 = 0 then low
  else low + 1

/-- The nearest integer to a rational; a tie goes to the even neighbour. -/
def roundEven (x : Rat) : Int :=
  roundRatio x.num x.den

/-- A ratio of an integer to one is that integer. -/
@[simp]
theorem roundRatio_one (n : Int) : roundRatio n 1 = n := by
  simp [roundRatio]

/-- The rounded ratio is the floor or the integer after it. -/
theorem roundRatio_eq_or (n : Int) (d : Nat) :
    roundRatio n d = n / (d : Int) ∨ roundRatio n d = n / (d : Int) + 1 := by
  unfold roundRatio
  simp only
  split
  · exact .inl rfl
  · split
    · exact .inr rfl
    · split
      · exact .inl rfl
      · exact .inr rfl

/-! ## Numbers of the format -/

/-- What can go wrong when a number leaves or enters the format. -/
inductive NumberFault where
  /-- The ratio of two integers is beyond the greatest finite number. -/
  | ratioTooLarge
  /-- An integer is beyond the greatest finite number. -/
  | integerTooLarge
  /-- An infinity has no whole part. -/
  | wholeOfInfinity
  /-- A value that is not a number has no whole part. -/
  | wholeOfNaN
  /-- A floor division by zero. -/
  | zeroDivisor
  /-- An integer is not the number of a character. -/
  | noCharacter
  /-- A count of seconds is beyond every clock. -/
  | secondsTooLarge
  deriving DecidableEq, Repr

/-- The wording of a number fault. -/
def NumberFault.message : NumberFault → String
  | .ratioTooLarge => "integer division result too large for a float"
  | .integerTooLarge => "int too large to convert to float"
  | .wholeOfInfinity => "cannot convert float infinity to integer"
  | .wholeOfNaN => "cannot convert float NaN to integer"
  | .zeroDivisor => "integer division or modulo by zero"
  | .noCharacter => "%c arg not in range(0x110000)"
  | .secondsTooLarge => "timestamp out of range for platform time_t"

/-- A number of the 64-bit binary format. -/
inductive Binary64 where
  /-- A finite number, as the rational it denotes. -/
  | finite (value : Rat)
  /-- Zero with a minus sign. -/
  | negativeZero
  /-- An infinity and its sign. -/
  | infinite (negative : Bool)
  /-- Not a number. -/
  | nan
  deriving DecidableEq, Repr

namespace Binary64

instance : Inhabited Binary64 := ⟨.finite 0⟩

/-! ## Rounding a rational into the format -/

/-- The greatest `e` with `2 ^ e ≤ n / d`, for positive `n` and `d`. -/
def binaryExponent (n d : Nat) : Int :=
  let guess : Int := (n.log2 : Int) - (d.log2 : Int)
  let below : Bool :=
    if 0 ≤ guess then decide (n < d * twoTo guess.toNat)
    else decide (n * twoTo (-guess).toNat < d)
  if below then guess - 1 else guess

/-- The exponent of the last significand bit of a number as large as `x`; subnormal numbers
share the least one. -/
def gridExponent (x : Rat) : Int :=
  max (binaryExponent x.num.natAbs x.den - 52) (-1074)

/-- The number of grid steps `2 ^ e` nearest to `x`. -/
def gridSteps (x : Rat) (e : Int) : Int :=
  if e < 0 then roundRatio (x.num * twoTo (-e).toNat) x.den
  else roundRatio x.num (x.den * twoTo e.toNat)

/-- The rational that `m` grid steps `2 ^ e` make up. -/
def ofSteps (m : Int) (e : Int) : Rat :=
  if e < 0 then mkRat m (twoTo (-e).toNat)
  else ((m * twoTo e.toNat : Int) : Rat)

/-- The point of the format's grid nearest to `x`, when exponents have no upper bound. -/
def nearest (x : Rat) : Rat :=
  if x.num = 0 then 0 else ofSteps (gridSteps x (gridExponent x)) (gridExponent x)

/-- The least magnitude that is beyond every finite number. -/
def limit : Int := twoTo 1024

/-- Rounds a rational into the format. -/
def ofRat (x : Rat) : Binary64 :=
  let y := nearest x
  if y.den = 1 ∧ limit ≤ y.num.natAbs then .infinite (decide (y.num < 0))
  else .finite y

/-- The number nearest to `digits / 10 ^ places`. -/
def decimal (digits places : Nat) : Binary64 :=
  ofRat (mkRat digits (tenTo places))

/-- The rational a finite number denotes; infinities and the value that is not a number are
read as zero by callers that have excluded them. -/
def toRat : Binary64 → Rat
  | .finite value => value
  | .negativeZero => 0
  | .infinite _ => 0
  | .nan => 0

/-- Whether the number is finite. -/
def isFinite : Binary64 → Bool
  | .finite _ | .negativeZero => true
  | .infinite _ | .nan => false

/-! ## Order -/

/-- Strictly less; nothing is less than, or greater than, a value that is not a number. -/
def lt : Binary64 → Binary64 → Bool
  | .nan, _ | _, .nan => false
  | .infinite true, .infinite true => false
  | .infinite true, _ => true
  | _, .infinite true => false
  | .infinite false, _ => false
  | _, .infinite false => true
  | x, y => decide (x.toRat < y.toRat)

/-- Equal as numbers: the two zeros are equal, a value that is not a number equals nothing. -/
def eq : Binary64 → Binary64 → Bool
  | .nan, _ | _, .nan => false
  | .infinite s, .infinite t => s == t
  | .infinite _, _ | _, .infinite _ => false
  | x, y => decide (x.toRat = y.toRat)

/-- Less or equal. -/
def le (x y : Binary64) : Bool :=
  x.lt y || x.eq y

/-- The second number if it is less than the first, else the first. -/
def least (x y : Binary64) : Binary64 :=
  if y.lt x then y else x

/-- The second number if it is greater than the first, else the first. -/
def greatest (x y : Binary64) : Binary64 :=
  if x.lt y then y else x

/-! ## Arithmetic -/

/-- Negation. -/
def neg : Binary64 → Binary64
  | .finite value => if value = 0 then .negativeZero else .finite (-value)
  | .negativeZero => .finite 0
  | .infinite s => .infinite (!s)
  | .nan => .nan

/-- Magnitude. -/
def abs : Binary64 → Binary64
  | .finite value => .finite value.abs
  | .negativeZero => .finite 0
  | .infinite _ => .infinite false
  | .nan => .nan

/-- Sum, rounded once. -/
def add : Binary64 → Binary64 → Binary64
  | .nan, _ | _, .nan => .nan
  | .infinite s, .infinite t => if s == t then .infinite s else .nan
  | .infinite s, _ | _, .infinite s => .infinite s
  | x, y => ofRat (x.toRat + y.toRat)

/-- Difference, rounded once. -/
def sub (x y : Binary64) : Binary64 :=
  x.add y.neg

/-- Whether the number carries a minus sign. -/
def isNegative : Binary64 → Bool
  | .finite value => decide (value < 0)
  | .negativeZero => true
  | .infinite s => s
  | .nan => false

/-- Product, rounded once. -/
def mul : Binary64 → Binary64 → Binary64
  | .nan, _ | _, .nan => .nan
  | .infinite s, y =>
      if y.isFinite && decide (y.toRat = 0) then .nan else .infinite (s != y.isNegative)
  | x, .infinite t =>
      if x.isFinite && decide (x.toRat = 0) then .nan else .infinite (x.isNegative != t)
  | x, y => ofRat (x.toRat * y.toRat)

/-- Quotient, rounded once; callers exclude a zero divisor. -/
def div : Binary64 → Binary64 → Binary64
  | .nan, _ | _, .nan => .nan
  | .infinite s, y => if y.isFinite then .infinite (s != y.isNegative) else .nan
  | _, .infinite _ => .finite 0
  | x, y => if y.toRat = 0 then .nan else ofRat (x.toRat / y.toRat)

/-- An integer rounded into the format. -/
def ofInt (n : Int) : Except NumberFault Binary64 :=
  match ofRat n with
  | .infinite _ => .error .integerTooLarge
  | x => .ok x

/-- The ratio of two integers, rounded once. -/
def quotient (n d : Int) : Except NumberFault Binary64 :=
  if d = 0 then .error .zeroDivisor
  else
    match ofRat ((n : Rat) / (d : Rat)) with
    | .infinite _ => .error .ratioTooLarge
    | x => .ok x

/-- A whole number made from a finite one by the given rule. -/
def whole (rule : Rat → Int) : Binary64 → Except NumberFault Int
  | .finite value => .ok (rule value)
  | .negativeZero => .ok 0
  | .infinite _ => .error .wholeOfInfinity
  | .nan => .error .wholeOfNaN

/-- The greatest integer not above the number. -/
def floor (x : Binary64) : Except NumberFault Int :=
  x.whole Rat.floor

/-- The least integer not below the number. -/
def ceil (x : Binary64) : Except NumberFault Int :=
  x.whole Rat.ceil

/-- The nearest integer; a tie goes to the even neighbour. -/
def round (x : Binary64) : Except NumberFault Int :=
  x.whole roundEven

/-- The integer next to the number in the direction of zero. -/
def truncate (x : Binary64) : Except NumberFault Int :=
  x.whole fun value => if value < 0 then value.ceil else value.floor

end Binary64

end Eaves.Number
