import Eaves.Text.Numeral
import Eaves.Text.Search
import Eaves.Value.Basic

/-!
# Plain words of YAML documents

A word without quotes stands for nothing, a truth value, a whole number, a real
number, a day or a moment, or itself.  Whole numbers may be binary, octal,
hexadecimal or in groups of sixty, real ones in groups of sixty too; underscores
count for nothing.
-/

namespace Eaves.Yaml

open Number (Binary64)

/-! ## Days and moments

A day is written with four, two and two digits.  A moment is a day and a time of day,
perhaps with parts of a second and the distance of a zone; there the month, the day and
the hour may have one digit.
-/

/-- A text behind at least `least` and at most `most` digits at its start. -/
def behindDigits? (least most : Nat) (cs : List Char) : Option (List Char) :=
  let count := ((cs.takeWhile Char.isDigit).take most).length
  if least ≤ count then some (cs.drop count) else none

/-- A text behind a mark at its start. -/
def behindMark? (mark : Char) : List Char → Option (List Char)
  | [] => none
  | c :: cs => if c = mark then some cs else none

/-- A text behind a year, a month and a day, the last two of at least so many digits. -/
def behindDay? (least : Nat) (cs : List Char) : Option (List Char) := do
  let cs ← behindMark? '-' (← behindDigits? 4 4 cs)
  let cs ← behindMark? '-' (← behindDigits? least 2 cs)
  behindDigits? least 2 cs

/-- Whether a character is a blank inside a moment. -/
def isMomentBlank (c : Char) : Bool :=
  c == ' ' || c == '\t'

/-- A text behind what stands between a day and a time of day. -/
def behindGap? : List Char → Option (List Char)
  | [] => none
  | c :: cs =>
      if c == 'T' || c == 't' then some cs
      else if isMomentBlank c then some (cs.dropWhile isMomentBlank)
      else none

/-- A text behind a time of day, perhaps with parts of a second. -/
def behindClock? (cs : List Char) : Option (List Char) := do
  let cs ← behindMark? ':' (← behindDigits? 1 2 cs)
  let cs ← behindMark? ':' (← behindDigits? 2 2 cs)
  let cs ← behindDigits? 2 2 cs
  match behindMark? '.' cs with
  | some parts => return parts.dropWhile Char.isDigit
  | none => return cs

/-- Whether a text is the distance of a zone, without its sign. -/
def isDistance (cs : List Char) : Bool :=
  match behindDigits? 1 2 cs with
  | some [] => true
  | some (':' :: minutes) => behindDigits? 2 2 minutes == some []
  | _ => false

/-- Whether a text is a zone, or nothing. -/
def isZone (cs : List Char) : Bool :=
  match cs.dropWhile isMomentBlank with
  | [] => cs.isEmpty
  | ['Z'] => true
  | sign :: distance => (sign == '+' || sign == '-') && isDistance distance

/-- Whether a text is a day or a moment. -/
def isMoment (cs : List Char) : Bool :=
  behindDay? 2 cs == some [] ||
    match (behindDay? 1 cs).bind behindGap? |>.bind behindClock? with
    | some zone => isZone zone
    | none => false

/-! ## Words -/

/-- The words for nothing. -/
def nullWords : List String := ["", "~", "null", "Null", "NULL"]

/-- The words for true. -/
def trueWords : List String :=
  ["yes", "Yes", "YES", "true", "True", "TRUE", "on", "On", "ON"]

/-- The words for false. -/
def falseWords : List String :=
  ["no", "No", "NO", "false", "False", "FALSE", "off", "Off", "OFF"]

/-- A text without underscores. -/
def withoutUnderscores (cs : List Char) : List Char :=
  cs.filter (· != '_')

/-- Whether every character is a digit of a base or an underscore. -/
def isDigits (base : Nat) (cs : List Char) : Bool :=
  cs.all fun c => c == '_' || (c.toNat < 128 && (Text.digitIn? base c).isSome)

/-- The number that digits spell when underscores are passed over. -/
def digitsValue (base : Nat) (cs : List Char) : Nat :=
  (withoutUnderscores cs).foldl
    (fun value c => value * base + (Text.digitIn? base c).getD 0) 0

/-- Whether a text is a number below sixty in one or two digits. -/
def isSixtieth (cs : List Char) : Bool :=
  match cs with
  | [c] => c.isDigit
  | [c, d] => decide ('0' ≤ c ∧ c ≤ '5') && d.isDigit
  | _ => false

/-- The number of groups of sixty, most significant group first. -/
def sixties (groups : List Nat) : Nat :=
  groups.foldl (fun value group => value * 60 + group) 0

/-- The whole number an unsigned text stands for. -/
def unsignedWhole? (cs : List Char) : Option Nat :=
  match cs with
  | ['0'] => some 0
  | '0' :: 'b' :: digits =>
      if !digits.isEmpty && isDigits 2 digits && !(withoutUnderscores digits).isEmpty then
        some (digitsValue 2 digits)
      else none
  | '0' :: 'x' :: digits =>
      if !digits.isEmpty && isDigits 16 digits && !(withoutUnderscores digits).isEmpty then
        some (digitsValue 16 digits)
      else none
  | '0' :: digits => if isDigits 8 digits then some (digitsValue 8 digits) else none
  | c :: _ =>
      if !c.isDigit then none
      else
        match (cs.splitBy fun a b => a != ':' && b != ':').filter (· != [':']) with
        | [digits] =>
            if isDigits 10 digits && !cs.contains ':' then some (digitsValue 10 digits) else none
        | first :: rest =>
            if isDigits 10 first && rest.all isSixtieth &&
                rest.length == (cs.filter (· == ':')).length then
              some (sixties (digitsValue 10 first :: rest.map (digitsValue 10)))
            else none
        | [] => none
  | [] => none

/-- The whole number a word stands for. -/
def whole? (cs : List Char) : Option Int :=
  let (negative, digits) := Text.splitSign cs
  (unsignedWhole? digits).map fun n => if negative then -(n : Int) else n

/-- Whether a text is an exponent: a mark, a sign and digits. -/
def isExponent : List Char → Bool
  | [] => true
  | mark :: sign :: digits =>
      (mark == 'e' || mark == 'E') && (sign == '+' || sign == '-') && !digits.isEmpty &&
        digits.all Char.isDigit
  | _ => false

/-- Whether an unsigned text is a decimal: it has a point, and a digit before or behind it. -/
def isDecimal (cs : List Char) : Bool :=
  let inRun (c : Char) : Bool := c.isDigit || c == '_'
  let whole := cs.takeWhile inRun
  match cs.dropWhile inRun with
  | '.' :: rest =>
      let fraction := rest.takeWhile inRun
      isExponent (rest.dropWhile inRun) &&
        (match whole, fraction with
          | c :: _, _ => c.isDigit
          | [], c :: _ => c.isDigit
          | [], [] => false)
  | _ => false

/-- The number an unsigned text stands for when it is in groups of sixty with a point behind
the last. -/
def sixtiesReal? (cs : List Char) : Option Rat :=
  let whole := cs.takeWhile (· ≠ '.')
  let fraction := withoutUnderscores (cs.drop (whole.length + 1))
  let groups := (whole.splitBy fun a b => a != ':' && b != ':').filter (· != [':'])
  match groups with
  | first :: second :: rest =>
      let fits := whole.length < cs.length ∧ (first.head?.map Char.isDigit) = some true ∧
        isDigits 10 first ∧ (second :: rest).all isSixtieth ∧ fraction.all Char.isDigit ∧
        groups.length = (whole.filter (· == ':')).length + 1
      if fits then
        some (sixties (groups.map (digitsValue 10)) +
          mkRat (digitsValue 10 fraction) (Number.tenTo fraction.length))
      else none
  | _ => none

/-- The real number a word stands for; a sign needs a digit before the point. -/
def real? (cs : List Char) : Option Binary64 :=
  let (negative, rest) := Text.splitSign cs
  if [".inf", ".Inf", ".INF"].contains (String.ofList rest) then some (.infinite negative)
  else if [".nan", ".NaN", ".NAN"].contains (String.ofList cs) then some .nan
  else if isDecimal rest && (rest.head? != some '.' || cs.head? == some '.') then
    (Text.unsignedDecimal? negative (withoutUnderscores rest)).map Number.Decimal.toBinary64
  else
    (sixtiesReal? rest).map fun x => Binary64.ofRat (if negative then -x else x)

/-- The words that only merge or stand for mappings. -/
def refusedWords : List String := ["=", "<<"]

/-- What a word without quotes stands for. -/
def scalar (cs : List Char) : Option Value :=
  let word := String.ofList cs
  if refusedWords.contains word then none
  else if nullWords.contains word then some .null
  else if trueWords.contains word then some (.bool true)
  else if falseWords.contains word then some (.bool false)
  else
    match whole? cs, real? cs with
    | some n, _ => some (.int n)
    | none, some x => some (.float x)
    | none, none => some (if isMoment cs then .date word else .text word)

/-- The text of a value that stands as a key. -/
def keyText : Value → Option String
  | .text s => some s
  | .int n => some (toString n)
  | .bool truth => some (if truth then "true" else "false")
  | .null => some "null"
  | .float x => some x.shortest
  | .date written => some written
  | _ => none

end Eaves.Yaml
