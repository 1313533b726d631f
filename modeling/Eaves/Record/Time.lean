import Eaves.Record.Reader

/-!
# Times in data

A record may say when it was made.  The time is checked and not kept: it is written
with date and clock, as a date alone, or as a count from the start of 1970, in
seconds or, where it is too large for that, in thousandths of a second.  Times are
those of the years 0 to 9999; the year 0 is read, and then refused because no
calendar counts it.
-/

namespace Eaves.Time

open Number (Binary64)
open Reader

/-- Whether a time that is read is in a year that calendars count. -/
inductive Era where
  | counted
  | yearZero
  deriving DecidableEq, Repr

/-- The era of a year. -/
def Era.ofYear (year : Nat) : Era :=
  if year = 0 then .yearZero else .counted

/-! ## Dates and clocks -/

/-- Whether a year has a 29th of February. -/
def isLeap (year : Nat) : Bool :=
  year % 4 == 0 && (year % 100 != 0 || year % 400 == 0)

/-- The number of days in a month of a year. -/
def daysIn (year month : Nat) : Nat :=
  if month = 2 then (if isLeap year then 29 else 28)
  else if [4, 6, 9, 11].contains month then 30
  else 31

/-- A number of exactly `count` digits at the start of a text, and the rest of the text. -/
def digits? (count : Nat) (cs : List Char) : Option (Nat × List Char) :=
  if (cs.take count).length = count then
    (Text.latinDigits? (cs.take count)).map fun n => (n, cs.drop count)
  else none

/-- What follows one of the given characters. -/
def after? (marks : List Char) : List Char → Option (List Char)
  | [] => none
  | c :: cs => if marks.contains c then some cs else none

/-- The year of a date at the start of a text, and the rest of the text. -/
def date? (cs : List Char) : Option (Nat × List Char) := do
  let (year, cs) ← digits? 4 cs
  let (month, cs) ← digits? 2 (← after? ['-'] cs)
  let (day, cs) ← digits? 2 (← after? ['-'] cs)
  if 1 ≤ month ∧ month ≤ 12 ∧ 1 ≤ day ∧ day ≤ daysIn year month then some (year, cs) else none

/-- A text without the parts of a second at its start. -/
def fraction? (cs : List Char) : Option (List Char) :=
  match after? ['.', ','] cs with
  | none => some cs
  | some rest =>
      if (rest.takeWhile Char.isDigit).isEmpty then none else some (rest.dropWhile Char.isDigit)

/-- A text without the seconds at its start, which may be absent. -/
def seconds? (cs : List Char) : Option (List Char) :=
  match after? [':'] cs with
  | none => some cs
  | some rest =>
      match digits? 2 rest with
      | some (second, rest) => if second < 60 then fraction? rest else none
      | none => none

/-- What follows the time of day at the start of a text. -/
def clock? (cs : List Char) : Option (List Char) := do
  let (hour, cs) ← digits? 2 cs
  let (minute, cs) ← digits? 2 (← after? [':'] cs)
  if hour < 24 ∧ minute < 60 then seconds? cs else none

/-- Whether a text is the distance of a zone from the prime meridian, or nothing. -/
def isZone (cs : List Char) : Bool :=
  match cs with
  | [] | ['Z'] | ['z'] => true
  | _ =>
      let distance? : Option (Nat × Nat × List Char) := do
        let (hours, cs) ← digits? 2 (← after? ['+', '-', '−'] cs)
        let (minutes, cs) ← digits? 2 ((after? [':'] cs).getD cs)
        return (hours, minutes, cs)
      match distance? with
      | some (hours, minutes, []) => decide (hours < 24 ∧ minutes < 60)
      | _ => false

/-- The era of a text that is a date and a time of day. -/
def ofDateTime? (cs : List Char) : Option Era := do
  let (year, cs) ← date? cs
  let cs ← clock? (← after? ['T', 't', ' ', '_'] cs)
  if isZone cs then some (.ofYear year) else none

/-- The era of a text that is a date. -/
def ofDate? (cs : List Char) : Option Era :=
  match date? cs with
  | some (year, []) => some (.ofYear year)
  | _ => none

/-! ## Counts from the start of 1970 -/

/-- The greatest count that is one of seconds. -/
def greatestSeconds : Nat := 20000000000

/-- Whether a count is one of thousandths of a second. -/
def isThousandths (count : Int) : Bool :=
  decide (greatestSeconds < count.natAbs)

/-- The era of a time that is a number of seconds from the start of 1970. -/
def ofSeconds? (seconds : Int) : Option Era :=
  if seconds < -62167219200 ∨ 253402300799 < seconds then none
  else if seconds < -62135596800 then some .yearZero
  else some .counted

/-- The era of a count, when `micros` microseconds follow it. -/
def ofCount? (count : Int) (micros : Int) : Option Era :=
  if isThousandths count then
    ofSeconds? (count.fdiv 1000 + (count.fmod 1000 * 1000 + micros).fdiv 1000000)
  else ofSeconds? (count + micros.fdiv 1000000)

/-- The microseconds nearest to the part of a number after its point, whatever the sign. -/
def microsOf (x : Rat) : Int :=
  let part := Binary64.ofRat (mkRat (x.num.natAbs % x.den : Nat) x.den)
  ((part.mul (.finite 1000000)).toRat + mkRat 1 2).floor

/-- The era of a count with parts. -/
def ofFloat? : Binary64 → Option Era
  | .finite x => ofCount? x.floor (microsOf x)
  | .negativeZero => some .counted
  | .infinite _ | .nan => none

/-- The era of a text that is a count: digits with an optional sign before them, and a point
among or after them. -/
def ofNumeral? (cs : List Char) : Option Era :=
  let (negative, rest) := Text.splitSign cs
  let whole := rest.takeWhile Char.isDigit
  let count? (n : Nat) (part : List Char) : Option Era :=
    let roundsDown := negative && part.any (· != '0')
    let count : Int := if negative then -(n : Int) else n
    ofCount? (if roundsDown then count - 1 else count) 0
  match Text.latinDigits? whole, rest.drop whole.length with
  | some n, [] => count? n []
  | some n, '.' :: part => if part.all Char.isDigit then count? n part else none
  | _, _ => none

/-! ## Reading -/

/-- The check that no time in the year 0 passes. -/
def counted : Era → Checked Unit
  | .counted => .valid ()
  | .yearZero => Checked.fail .datetimeParsing

/-- A time that was read, or a fault where there is none. -/
def settle (fault : Fault) : Option Era → Checked Unit
  | some era => counted era
  | none => Checked.fail fault

/-- A time in a text. -/
def ofText (s : String) : Checked Unit :=
  let cs := s.toList
  settle .datetimeFromDateParsing (ofDateTime? cs <|> ofNumeral? cs <|> ofDate? cs)

/-- A time: a text that spells one, or a count. -/
def read : Reader Unit
  | .int n =>
      match Binary64.ofInt n with
      | .ok _ => settle .datetimeParsing (ofCount? n 0)
      | .error _ => Checked.fail .datetimeType
  | .float x => settle .datetimeParsing (ofFloat? x)
  | value =>
      match text value with
      | .valid s => ofText s
      | .invalid _ => Checked.fail .datetimeType

end Eaves.Time
