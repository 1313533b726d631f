import Eaves.Record.Numeral
import Eaves.Value.Basic

/-!
# Reading data into records

The forms a number, a truth value, a text or a list may take in data, and how the
keys of an object become the fields of a record.  Numbers and truth values are
read generously: a truth value counts as a number, a text may spell one.  Fields
are checked in the order of the record, keys the record does not know after them.
-/

namespace Eaves

open Number (Binary64)

/-- A check that turns a value into something typed. -/
abbrev Reader (α : Type) := Value → Checked α

namespace Reader

variable {α : Type}

/-! ## Single values -/

/-- The magnitude from which on a real number stands for no integer. -/
def wholeLimit : Int := Number.twoTo 63

/-- The integer a real number stands for: it has no fraction and is not too large. -/
def intOfFloat : Binary64 → Checked Int
  | .finite x =>
      if x.den ≠ 1 then Checked.fail .intFromFloat
      else if -wholeLimit < x.num ∧ x.num < wholeLimit then .valid x.num
      else Checked.fail .intParsingSize
  | .negativeZero => .valid 0
  | .infinite _ | .nan => Checked.fail .finiteNumber

/-- An integer: also a truth value, a number without fraction, and a text that spells one. -/
def int : Reader Int
  | .int n => .valid n
  | .bool truth => .valid (if truth then 1 else 0)
  | .float x => intOfFloat x
  | .text s => Numeral.whole s.toList
  | .direction _ | .motion _ | .speed _ => Checked.fail .intParsing
  | _ => Checked.fail .intType

/-- A real number: also an integer, a truth value, and a text that spells one. -/
def float : Reader Binary64
  | .float x => .valid x
  | .int n =>
      match Binary64.ofInt n with
      | .ok x => .valid x
      | .error _ => Checked.fail .floatType
  | .bool truth => .valid (if truth then .finite 1 else .finite 0)
  | .text s => Numeral.real s.toList
  | .direction _ | .motion _ | .speed _ => Checked.fail .floatParsing
  | _ => Checked.fail .floatType

/-- The truth value a word stands for, in any case of letters. -/
def truthOfWord? (word : String) : Option Bool :=
  let lower := word.toLower
  if ["1", "on", "t", "true", "y", "yes"].contains lower then some true
  else if ["0", "off", "f", "false", "n", "no"].contains lower then some false
  else none

/-- The truth value a number stands for. -/
def truthOfInt (n : Int) : Checked Bool :=
  if n = 0 then .valid false else if n = 1 then .valid true else Checked.fail .boolParsing

/-- A truth value: also zero and one, and the words for yes and no.  A number too large for
64 bits is not even looked at as one. -/
def bool : Reader Bool
  | .bool truth => .valid truth
  | .int n =>
      if -wholeLimit ≤ n ∧ n < wholeLimit then truthOfInt n else Checked.fail .boolType
  | .float x =>
      match intOfFloat x with
      | .valid n => truthOfInt n
      | .invalid _ => Checked.fail .boolType
  | .text s =>
      match truthOfWord? s with
      | some truth => .valid truth
      | none => Checked.fail .boolParsing
  | .direction _ | .motion _ | .speed _ => Checked.fail .boolParsing
  | _ => Checked.fail .boolType

/-- A text; a term that is written as a word is that word. -/
def text : Reader String
  | .text s => .valid s
  | .direction direction => .valid (Vocabulary.word direction)
  | .motion kind => .valid (Vocabulary.word kind)
  | .speed preset => .valid (Vocabulary.word preset)
  | _ => Checked.fail .stringType

/-- A text of at least one character. -/
def nonEmptyText (value : Value) : Checked String :=
  (text value).andThen fun s =>
    if s.isEmpty then Checked.fail .stringTooShort else .valid s

/-- A word of a vocabulary; a term of another vocabulary counts by its word. -/
def word [Vocabulary α] (value : Value) : Checked α :=
  match (text value).toOption.bind Vocabulary.ofWord? with
  | some member => .valid member
  | none => Checked.fail .enum

/-- Anything at all. -/
def any : Reader Value := .valid

/-- Nothing, or what the reader accepts. -/
def nullable (reader : Reader α) : Reader (Option α)
  | .null => .valid none
  | value => (reader value).map some

/-- An object, kept as its entries. -/
def entries : Reader Entries
  | .object es => .valid es
  | _ => Checked.fail .dictType

/-! ## Bounded numbers

A bound has to hold: a value that is not a number is within no bound.
-/

/-- An integer that is at least zero. -/
def nat (value : Value) : Checked Nat :=
  (int value).andThen fun n =>
    if 0 ≤ n then .valid n.toNat else Checked.fail .greaterThanEqual

/-- An integer that is at least one. -/
def positive (value : Value) : Checked Positive :=
  (int value).andThen fun n =>
    match Positive.ofInt? n with
    | some count => .valid count
    | none => Checked.fail .greaterThanEqual

/-- An integer between 0 and 255. -/
def level (value : Value) : Checked Level :=
  (int value).andThen Color.channel

/-- A real number that is at least zero. -/
def nonNegative (value : Value) : Checked Binary64 :=
  (float value).andThen fun x =>
    if (Binary64.finite 0).le x then .valid x else Checked.fail .greaterThanEqual

/-- A real number above zero. -/
def aboveZero (value : Value) : Checked Binary64 :=
  (float value).andThen fun x =>
    if (Binary64.finite 0).lt x then .valid x else Checked.fail .greaterThan

/-- A real number that is at most one. -/
def atMostOne (value : Value) : Checked Binary64 :=
  (float value).andThen fun x =>
    if x.le (.finite 1) then .valid x else Checked.fail .lessThanEqual

/-- A real number between zero and one. -/
def share (value : Value) : Checked Binary64 :=
  (atMostOne value).andThen fun x =>
    if (Binary64.finite 0).le x then .valid x else Checked.fail .greaterThanEqual

/-- A real number above zero and at most one. -/
def shareAboveZero (value : Value) : Checked Binary64 :=
  (atMostOne value).andThen fun x =>
    if (Binary64.finite 0).lt x then .valid x else Checked.fail .greaterThan

/-! ## Lists -/

/-- The fields of a record that is written as an object, each a pair of name and value. -/
def pairs : Value → List Value
  | .object es => es.map fun (key, value) => .list [.text key, value]
  | _ => []

/-- The members of a value where a list is expected.  A term that is a record counts as the
list of its fields. -/
def members? : Value → Option (List Value)
  | .list items => some items
  | .color color => some (pairs color.toValue)
  | .zone zone => some (pairs zone.toValue)
  | .spacing rule => some (pairs rule.toValue)
  | _ => none

/-- A list of what the reader accepts. -/
def list (reader : Reader α) (value : Value) : Checked (List α) :=
  match members? value with
  | some items => Checked.listFrom reader 0 items
  | none => Checked.fail .listType

/-- The members of a list, for a field whose members are fixed once it is read. -/
def row (reader : Reader α) (value : Value) : Checked (List α) :=
  match members? value with
  | some items => Checked.listFrom reader 0 items
  | none => Checked.fail .tupleType

/-- A list of at most `most` members; a longer one is refused without looking further. -/
def listUpTo (most : Nat) (reader : Reader α) (value : Value) : Checked (List α) :=
  match members? value with
  | some items =>
      if most < items.length then Checked.fail .tooLong else Checked.listFrom reader 0 items
  | none => Checked.fail .listType

/-- A list with at least one member. -/
def nonEmptyList (reader : Reader α) (value : Value) : Checked (NonEmpty α) :=
  (list reader value).andThen fun members =>
    match NonEmpty.ofList? members with
    | some nonEmpty => .valid nonEmpty
    | none => Checked.fail .tooShort

/-! ## Objects -/

/-- The value under a key, which must be there. -/
def required (es : Entries) (key : String) (reader : Reader α) : Checked α :=
  match es.value? key with
  | some value => (reader value).under key
  | none => (Checked.fail .missing).under key

/-- The value under a key, or a default where the key is absent. -/
def defaulted (es : Entries) (key : String) (default : α) (reader : Reader α) : Checked α :=
  match es.value? key with
  | some value => (reader value).under key
  | none => .valid default

/-- Every key outside the known ones is a problem, in the order given. -/
def onlyKnown (known : List String) (es : Entries) : Checked Unit :=
  let unknown := es.filter fun entry => !known.contains entry.1
  if unknown.isEmpty then .valid ()
  else .invalid (unknown.map fun entry => ⟨[entry.1], .extraForbidden⟩)

/-- A record that refuses keys it does not know. -/
def strictRecord (known : List String) (fields : Entries → Checked α) : Reader α
  | .object es => (fields es).guardedBy (onlyKnown known es)
  | _ => Checked.fail .modelType

/-- A record that passes over keys it does not know. -/
def openRecord (fields : Entries → Checked α) : Reader α
  | .object es => fields es
  | _ => Checked.fail .modelType

end Reader

end Eaves
