import Eaves.Problem
import Eaves.Text.Numeral
import Eaves.Text.Search

/-!
# Numbers written as text in data

Where a record expects a number, a text may spell it.  Only Latin digits count
here.  A text is first read as it stands; if it is no number that way, it is tidied
once (white space, zeros in front, single underscores between digits, a fraction
of zeros) and read again.
-/

namespace Eaves.Numeral

open Number (Binary64)

/-- Text without its underscores, when none stands at an end or beside another. -/
def joined? (cs : List Char) : Option (List Char) :=
  if cs.head? == some '_' || cs.getLast? == some '_' || Text.occursIn ['_', '_'] cs then none
  else some (cs.filter (· ≠ '_'))

/-! ## Whole numbers -/

/-- The number that digits spell when no zero stands before another digit. -/
def plainDigits? (cs : List Char) : Option Nat :=
  if cs.head? == some '0' && cs.length != 1 then none else Text.latinDigits? cs

/-- The whole number that a text spells without any tidying; of the signs only minus may
stand before it, and sign and digits together are limited in length. -/
def plainWhole? (cs : List Char) : Option Int :=
  if Text.digitLimit < cs.length then none
  else
    match cs with
    | '-' :: digits => (plainDigits? digits).map fun n => -(n : Int)
    | digits => (plainDigits? digits).map fun n => (n : Int)

/-- Whether a text starts with a number that has too many digits to be read. -/
def startsTooLong (cs : List Char) : Bool :=
  let (signs, rest) := cs.span (· == '-')
  let digits := rest.takeWhile Char.isDigit
  decide (signs.length ≤ 1) && digits.head? != some '0' &&
    decide (Text.digitLimit < signs.length + digits.length)

/-- Text that follows a zero, without the zeros and underscores at its start.  The character
before a point stays, and so does the last one of all. -/
def afterZero (before : Char) : List Char → Option (List Char)
  | [] => some [before]
  | c :: cs =>
      if c = '0' ∨ c = '_' then afterZero c cs
      else if c = '.' then some (before :: c :: cs)
      else if c.isDigit then some (c :: cs)
      else none

/-- Text without zeros in front of another digit; it has to start like a number. -/
def withoutZeros : List Char → Option (List Char)
  | [] => none
  | c :: cs =>
      if c = '0' then afterZero c cs
      else if c.isDigit || c == '-' then some (c :: cs)
      else none

/-- Text without a point and the zeros after it; a point alone stays. -/
def withoutFraction (cs : List Char) : List Char :=
  match cs.dropWhile (· ≠ '.') with
  | _ :: fraction =>
      if !fraction.isEmpty && fraction.all (· == '0') then cs.takeWhile (· ≠ '.') else cs
  | [] => cs

/-- Text without a plus sign; there may be no minus sign after it. -/
def withoutPlus : List Char → Option (List Char)
  | '+' :: '-' :: _ => none
  | '+' :: cs => some cs
  | cs => some cs

/-- The tidied form of a text that should spell a whole number. -/
def tidied? (cs : List Char) : Option (List Char) :=
  ((withoutPlus (Text.trimWhite cs)).bind withoutZeros).map fun tidy =>
    (joined? (withoutFraction tidy)).getD (withoutFraction tidy)

/-- The whole number a text spells. -/
def whole (cs : List Char) : Checked Int :=
  if startsTooLong cs then Checked.fail .intParsingSize
  else
    match plainWhole? cs <|> (tidied? cs).bind plainWhole? with
    | some n => .valid n
    | none => Checked.fail .intParsing

/-! ## Real numbers -/

/-- The real number that a text spells in Latin digits, without any tidying. -/
def plainReal? (cs : List Char) : Option Binary64 :=
  if cs.all fun c => c.toNat < 128 && c != '_' then Text.spelledReal? cs else none

/-- The real number a text spells, with white space around it or with single underscores
anywhere inside, but not with both. -/
def real (cs : List Char) : Checked Binary64 :=
  match plainReal? (Text.trimWhite cs) <|> (joined? cs).bind plainReal? with
  | some x => .valid x
  | none => Checked.fail .floatParsing

end Eaves.Numeral
