import Eaves.Number.Decimal
import Eaves.Text.Blank
import Eaves.Text.Quoted

/-!
# Numerals in text

Numbers reach a design as text: digits found inside a phrase, the hexadecimal pairs
of a colour, the wait a controller asks for.  This module reads them.  Digits of any
script count by their value, that of their place in the row of ten they belong to; an
underscore may stand between two digits of a written number.  A wider class, with
superscripts and circled digits, is what a text's own digit test accepts; a member of it
without decimal value spells no number.
-/

namespace Eaves.Text

/-! ## Digits -/

/-- The code points of the zeros of every script; nine more digits follow each. -/
def zeros : List Nat := [
    48, 1632, 1776, 1984, 2406, 2534, 2662, 2790, 2918, 3046, 3174, 3302, 3430, 3558, 3664,
    3792, 3872, 4160, 4240, 6112, 6160, 6470, 6608, 6784, 6800, 6992, 7088, 7232, 7248, 42528,
    43216, 43264, 43472, 43504, 43600, 44016, 65296, 66720, 68912, 69734, 69872, 69942, 70096,
    70384, 70736, 70864, 71248, 71360, 71472, 71904, 72016, 72784, 73040, 73120, 92768, 92864,
    93008, 120782, 120792, 120802, 120812, 120822, 123200, 123632, 125264, 130032]

/-- The value of a decimal digit of any script. -/
def digitValue? (c : Char) : Option Nat :=
  if c.toNat < 128 then (if c.isDigit then some (c.toNat - 48) else none)
  else
    (zeros.find? fun nought => decide (nought ≤ c.toNat ∧ c.toNat ≤ nought + 9)).map (c.toNat - ·)

/-- Whether a character is a decimal digit of any script. -/
def isDecimal (c : Char) : Bool :=
  (digitValue? c).isSome

/-- The ranges of digits without decimal value: superscripts, subscripts, circled digits. -/
def otherDigitRanges : List (Nat × Nat) := [
    (178, 179), (185, 185), (4969, 4977), (6618, 6618), (8304, 8304), (8308, 8313),
    (8320, 8329), (9312, 9320), (9332, 9340), (9352, 9360), (9450, 9450), (9461, 9469),
    (9471, 9471), (10102, 10110), (10112, 10120), (10122, 10130), (68160, 68163),
    (69216, 69224), (69714, 69722), (127232, 127242)]

/-- Whether a character is a digit in the wider sense. -/
def isDigitLike (c : Char) : Bool :=
  isDecimal c ||
    otherDigitRanges.any fun range => decide (range.1 ≤ c.toNat ∧ c.toNat ≤ range.2)

/-! ## Whole numbers -/

/-- Why a text is no whole number. -/
inductive NumeralFault where
  /-- The text does not spell a number in the base. -/
  | notNumeral (base : Nat) (text : String)
  /-- The text spells a decimal number of more digits than are read. -/
  | tooManyDigits (count : Nat)
  deriving DecidableEq, Repr

/-- The greatest count of decimal digits that is read as one number. -/
def digitLimit : Nat := 4300

/-- The wording of a numeral fault. -/
def NumeralFault.message : NumeralFault → String
  | .notNumeral base text =>
      "invalid literal for int() with base " ++ toString base ++ ": " ++ quoted text
  | .tooManyDigits count =>
      "Exceeds the limit (" ++ toString digitLimit ++
        " digits) for integer string conversion: value has " ++ toString count ++
        " digits; use sys.set_int_max_str_digits() to increase the limit"

/-- The value of a digit in a base: a decimal digit of any script, or a Latin letter. -/
def digitIn? (base : Nat) (c : Char) : Option Nat :=
  let value :=
    match digitValue? c with
    | some value => value
    | none =>
        if 'a' ≤ c ∧ c ≤ 'z' then c.toNat - 'a'.toNat + 10
        else if 'A' ≤ c ∧ c ≤ 'Z' then c.toNat - 'A'.toNat + 10
        else base
  if value < base then some value else none

/-- The number spelled by digits with single underscores between them, after the value read
so far; `afterDigit` says whether the last character was a digit. -/
def spelledFrom (base : Nat) : (value : Nat) → (afterDigit : Bool) → List Char → Option Nat
  | value, afterDigit, [] => if afterDigit then some value else none
  | value, afterDigit, c :: cs =>
      if c = '_' then (if afterDigit then spelledFrom base value false cs else none)
      else
        match digitIn? base c with
        | some digit => spelledFrom base (value * base + digit) true cs
        | none => none

/-- The number spelled by digits with single underscores between them. -/
def spelled? (base : Nat) (cs : List Char) : Option Nat :=
  spelledFrom base 0 false cs

/-- A leading sign and what follows it; no sign counts as plus. -/
def splitSign : List Char → Bool × List Char
  | '-' :: cs => (true, cs)
  | '+' :: cs => (false, cs)
  | cs => (false, cs)

/-- The hexadecimal mark `0x` and an underscore after it are skipped. -/
def skipHexMark : List Char → List Char
  | '0' :: 'x' :: '_' :: cs | '0' :: 'X' :: '_' :: cs => cs
  | '0' :: 'x' :: cs | '0' :: 'X' :: cs => cs
  | cs => cs

/-- A number with an optional sign and white space around it, in hexadecimal. -/
def hexNumeral? (cs : List Char) : Option Int :=
  let (negative, digits) := splitSign (trimWhite cs)
  (spelled? 16 (skipHexMark digits)).map fun n => if negative then -(n : Int) else n

/-- The number a pair of hexadecimal digits spells. -/
def hexNumeral (cs : List Char) : Except NumeralFault Int :=
  match hexNumeral? cs with
  | some n => .ok n
  | none => .error (.notNumeral 16 (String.ofList cs))

/-- The number that a run of digits spells in decimal. -/
def decimalNumeral (cs : List Char) : Except NumeralFault Nat :=
  match spelled? 10 cs with
  | none => .error (.notNumeral 10 (String.ofList cs))
  | some n => if digitLimit < cs.length then .error (.tooManyDigits cs.length) else .ok n

/-- The number that Latin digits alone spell. -/
def latinDigits? (cs : List Char) : Option Nat :=
  if cs.all Char.isDigit then spelled? 10 cs else none

/-! ## Real numbers -/

/-- Whether a character belongs to a run of digits. -/
def inDigitRun (c : Char) : Bool :=
  isDecimal c || c == '_'

/-- The number a run of digits spells and how many digits it has; an empty run counts as
zero. -/
def digitRun? (cs : List Char) : Option (Nat × Nat) :=
  if cs.isEmpty then some (0, 0)
  else (spelled? 10 cs).map fun n => (n, (cs.filter isDecimal).length)

/-- The power of ten after an exponent mark. -/
def exponent? : List Char → Option Int
  | [] => some 0
  | mark :: cs =>
      if mark = 'e' ∨ mark = 'E' then
        let (negative, digits) := splitSign cs
        if digits.all inDigitRun then
          (spelled? 10 digits).map fun n => if negative then -(n : Int) else n
        else none
      else none

/-- An unsigned decimal with optional fraction and exponent. -/
def unsignedDecimal? (negative : Bool) (cs : List Char) : Option Number.Decimal :=
  let wholeRun := cs.takeWhile inDigitRun
  let rest := cs.dropWhile inDigitRun
  let (fractionRun, rest) :=
    match rest with
    | '.' :: more => (more.takeWhile inDigitRun, more.dropWhile inDigitRun)
    | _ => ([], rest)
  match digitRun? wholeRun, digitRun? fractionRun, exponent? rest with
  | some (whole, wholeCount), some (fraction, fractionCount), some exponent =>
      if wholeCount + fractionCount = 0 then none
      else some ⟨negative, whole * Number.tenTo fractionCount + fraction,
        wholeCount + fractionCount, exponent - fractionCount⟩
  | _, _, _ => none

/-- The real number that a text spells: a sign, a fraction, an exponent, underscores between
digits, and the names of the infinities and of the value that is not a number are allowed. -/
def spelledReal? (cs : List Char) : Option Number.Binary64 :=
  let (negative, rest) := splitSign cs
  let name := String.ofList (rest.map Char.toLower)
  if name == "inf" || name == "infinity" then some (.infinite negative)
  else if name == "nan" then some .nan
  else (unsignedDecimal? negative rest).map Number.Decimal.toBinary64

/-- The real number that a text spells, with or without white space around it. -/
def realNumeral? (cs : List Char) : Option Number.Binary64 :=
  spelledReal? (trimWhite cs)

end Eaves.Text
