import Eaves.Failure
import Eaves.Number.Decimal

/-!
# Instants

An instant is a count of microseconds from the start of 1970, on a calendar whose
leap years repeat every four hundred years.  Instants are written for the zone of the
prime meridian.
-/

namespace Eaves.Journal

open Number (Binary64 NumberFault)

/-- An instant. -/
structure Instant where
  /-- Whole seconds from the start of 1970. -/
  seconds : Int
  /-- Microseconds within the second. -/
  micros : Nat := 0
  deriving DecidableEq, Repr, Inhabited

namespace Instant

/-- The seconds that a clock can count. -/
def clockLimit : Int := Number.twoTo 63

/-- Whole seconds and a count of microseconds that is less than a second in either direction. -/
def settle (seconds micros : Int) : Instant :=
  if 1000000 ≤ micros then ⟨seconds + 1, (micros - 1000000).toNat⟩
  else if micros < 0 then ⟨seconds - 1, (micros + 1000000).toNat⟩
  else ⟨seconds, micros.toNat⟩

/-- The instant a number of seconds from the start of 1970; parts of a second are rounded to
microseconds with ties to even. -/
def ofSeconds (x : Binary64) : Except NumberFault Instant := do
  let seconds ← x.truncate
  if clockLimit ≤ seconds ∨ seconds < -clockLimit then throw .secondsTooLarge
  else
    let whole := Binary64.finite seconds
    let micros ← ((x.sub whole).mul (.finite 1000000)).round
    return settle seconds micros

/-! ## The calendar -/

/-- A day on the calendar. -/
structure Day where
  year : Int
  month : Nat
  day : Nat
  deriving DecidableEq, Repr

/-- Days in four hundred years. -/
def daysPerCycle : Int := 146097

/-- Days from the first of March of the year nought to the start of 1970. -/
def daysToEpoch : Int := 719468

/-- The year within a cycle, counted from March, that a day of the cycle is in. -/
def yearOfCycle (day : Nat) : Nat :=
  (day - day / 1460 + day / 36524 - day / 146096) / 365

/-- The day a number of days after the start of 1970.  Years are counted from March, so that
the day a leap year has more is the last one of its year. -/
def dayOf (days : Int) : Day :=
  let shifted := days + daysToEpoch
  let cycle := shifted.fdiv daysPerCycle
  let dayOfCycle := (shifted - cycle * daysPerCycle).toNat
  let year := yearOfCycle dayOfCycle
  let dayOfYear := dayOfCycle - (365 * year + year / 4 - year / 100)
  let month := (5 * dayOfYear + 2) / 153
  let day := dayOfYear - (153 * month + 2) / 5 + 1
  let fromMarch : Int := year + cycle * 400
  if month < 10 then ⟨fromMarch, month + 3, day⟩ else ⟨fromMarch + 1, month - 9, day⟩

/-- Seconds in a day. -/
def secondsPerDay : Int := 86400

/-- The day an instant is in. -/
def day (instant : Instant) : Day :=
  dayOf (instant.seconds.fdiv secondsPerDay)

/-- A number in at least two digits. -/
def two (n : Nat) : String :=
  String.ofList (Binary64.paddedDigits 2 n)

/-- A day, as year, month and day. -/
def Day.text (day : Day) : String :=
  String.ofList (Binary64.paddedDigits 4 day.year.toNat) ++ "-" ++ two day.month ++ "-" ++
    two day.day

/-- The time within the day, in hours, minutes and seconds. -/
def clock (instant : Instant) : String :=
  let second := (instant.seconds.fmod secondsPerDay).toNat
  two (second / 3600) ++ ":" ++ two (second / 60 % 60) ++ ":" ++ two (second % 60)

/-- An instant in the form with a zone; microseconds are shown where there are any. -/
def stamp (instant : Instant) : Outcome String :=
  let day := instant.day
  if day.year < 1 ∨ 9999 < day.year then .error (.yearOutOfRange day.year)
  else
    let fraction :=
      if instant.micros = 0 then ""
      else "." ++ String.ofList (Binary64.paddedDigits 6 instant.micros)
    .ok (day.text ++ "T" ++ instant.clock ++ fraction ++ "+00:00")

/-- An instant as it starts a line of text, with thousandths of a second. -/
def line (instant : Instant) : String :=
  instant.day.text ++ " " ++ instant.clock ++ "," ++
    String.ofList (Binary64.paddedDigits 3 (instant.micros / 1000))

end Instant

end Eaves.Journal
