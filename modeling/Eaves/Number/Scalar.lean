import Eaves.Number.Binary64

/-!
# Number systems for layout arithmetic

Where light falls on a strip is computed with ratios, products and roundings.
The formulas are written once over a `Scalar`, and read in two systems: the
64-bit binary numbers, which the program uses, and the exact rationals, in which
every operation is exact and no quotient of integers is too large.
-/

namespace Eaves.Number

/-- The operations that layout formulas use. -/
class Scalar (α : Type) where
  /-- The scalar a 64-bit number stands for. -/
  ofBinary64 : Binary64 → α
  /-- An integer as a scalar. -/
  ofInt : Int → Except NumberFault α
  /-- The ratio of two integers. -/
  quotient : Int → Int → Except NumberFault α
  /-- Sum. -/
  add : α → α → α
  /-- Difference. -/
  sub : α → α → α
  /-- Product. -/
  mul : α → α → α
  /-- Quotient of two scalars; callers exclude a zero divisor. -/
  div : α → α → α
  /-- Strictly less. -/
  lt : α → α → Bool
  /-- Equal as numbers. -/
  eq : α → α → Bool
  /-- The greatest integer not above a scalar. -/
  floor : α → Except NumberFault Int
  /-- The nearest integer; a tie goes to the even neighbour. -/
  round : α → Except NumberFault Int

namespace Scalar

variable {α : Type} [Scalar α]

/-- Less or equal. -/
def le (x y : α) : Bool :=
  lt x y || eq x y

/-- The second scalar if it is less than the first, else the first. -/
def least (x y : α) : α :=
  if lt y x then y else x

/-- The second scalar if it is greater than the first, else the first. -/
def greatest (x y : α) : α :=
  if lt x y then y else x

/-- The rational `x` as a scalar. -/
def ofRat (x : Rat) : α :=
  ofBinary64 (.finite x)

/-- The nearest integer; a tie goes up.  The half is added in the scalars, so a number just
below a half can round up to one. -/
def roundHalfUp (x : α) : Except NumberFault Int :=
  floor (add x (ofRat (1 / 2)))

end Scalar

instance : Scalar Binary64 where
  ofBinary64 := id
  ofInt := Binary64.ofInt
  quotient := Binary64.quotient
  add := Binary64.add
  sub := Binary64.sub
  mul := Binary64.mul
  div := Binary64.div
  lt := Binary64.lt
  eq := Binary64.eq
  floor := Binary64.floor
  round := Binary64.round

/-- Exact arithmetic: nothing is rounded but to integers. -/
instance : Scalar Rat where
  ofBinary64 := Binary64.toRat
  ofInt n := .ok n
  quotient n d := if d = 0 then .error .zeroDivisor else .ok ((n : Rat) / (d : Rat))
  add := (· + ·)
  sub := (· - ·)
  mul := (· * ·)
  div := (· / ·)
  lt x y := decide (x < y)
  eq x y := decide (x = y)
  floor x := .ok x.floor
  round x := .ok (roundEven x)

end Eaves.Number
