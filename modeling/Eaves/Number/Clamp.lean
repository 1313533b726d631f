import Eaves.Number.Binary64

/-!
# Clamping

Moving an amount into an interval.  Whole and fractional amounts are compared by
their exact values, and the result is one of the three amounts given.
-/

namespace Eaves.Number

/-- A whole or a fractional amount. -/
inductive Amount where
  | whole (n : Int)
  | real (x : Binary64)
  deriving DecidableEq, Repr

namespace Amount

/-- The exact value of an amount. -/
def exact : Amount → Binary64
  | .whole n => .finite n
  | .real x => x

/-- Whether one amount is less than another. -/
def lt (a b : Amount) : Bool :=
  a.exact.lt b.exact

/-- The amount, or the end of the interval that it lies beyond; where the ends are in the wrong
order, the lower end. -/
def clamp (value low high : Amount) : Amount :=
  let capped := if value.lt high then value else high
  if low.lt capped then capped else low

end Amount

end Eaves.Number
