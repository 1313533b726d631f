import Eaves.Failure
import Eaves.Prompt.Phrasebook
import Eaves.Text.Blank
import Eaves.Text.Numeral

/-!
# Spacing phrases

A clause names a spacing rule by a fixed phrase, or spells one with numbers:
"every 3", "2 on 1 off", "8 evenly spaced".  Fixed phrases are tried first.  A
number is a run of digits; blanks may stand between it and the words around it.
-/

namespace Eaves.Prompt

/-- What fixed phrases name: a rule, or equal spacing of a count still to be found. -/
inductive NamedSpacing where
  | rule (rule : Spacing)
  | equally
  deriving DecidableEq, Repr

/-- Fixed phrases for spacing rules. -/
def spacings : Phrasebook NamedSpacing := [
  (.rule .everyOther, ["every other", "alternating", "alternate", "skip one", "every second",
    "one on one off", "1 on 1 off"]),
  (.rule .oneOnTwoOff, ["one on two off", "1 on 2 off", "spaced out", "sparse"]),
  (.rule .twoOnOneOff, ["two on one off", "2 on 1 off", "dense"]),
  (.equally, ["equally spaced", "evenly spaced", "uniform spacing", "evenly", "uniformly",
    "distributed", "spread out", "equally distributed"]),
  (.rule .anchorsOnly, ["anchors only", "just anchors", "only anchors", "anchor points only",
    "only at corners", "only at peaks", "just at corners", "just at peaks"])]

/-! ## Scanning -/

/-- What follows a word, when the text starts with it. -/
def afterWord? (word : String) (cs : List Char) : Option (List Char) :=
  if Text.startsWith word.toList cs then some (cs.drop word.toList.length) else none

/-- A run of digits at the start of a text, and what follows it; not an empty run. -/
def digits? (cs : List Char) : Option (List Char × List Char) :=
  let run := cs.takeWhile Text.isDecimal
  if run.isEmpty then none else some (run, cs.dropWhile Text.isDecimal)

/-- What a scan finds at the first place of a text where it finds anything. -/
def search {α : Type} (scan : List Char → Option α) : List Char → Option α
  | [] => scan []
  | c :: cs =>
      match scan (c :: cs) with
      | some found => some found
      | none => search scan cs

/-- The text after "equally" or "evenly" and the blanks behind it, where one stands. -/
def skipEvenly (cs : List Char) : List Char :=
  match (afterWord? "equally" cs).or (afterWord? "evenly" cs) with
  | some rest => Text.trimLeft rest
  | none => cs

/-- The digits of a count of spaced lights. -/
def spacedCount? (cs : List Char) : Option (List Char) := do
  let (count, rest) ← digits? cs
  let _ ← afterWord? "spaced" (skipEvenly (Text.trimLeft rest))
  return count

/-- The digits of an interval. -/
def interval? (cs : List Char) : Option (List Char) := do
  let rest ← afterWord? "every" cs
  let (interval, _) ← digits? (Text.trimLeft rest)
  return interval

/-- The digits of a lit and a dark count; `skip` passes over what may stand between the two
halves. -/
def onOffBy? (skip : List Char → List Char) (cs : List Char) :
    Option (List Char × List Char) := do
  let (on, rest) ← digits? cs
  let rest ← afterWord? "on" (Text.trimLeft rest)
  let (off, rest) ← digits? (skip rest)
  let _ ← afterWord? "off" (Text.trimLeft rest)
  return (on, off)

/-- The digits of a lit and a dark count in a clause, with blanks between the halves. -/
def onOff? : List Char → Option (List Char × List Char) :=
  onOffBy? Text.trimLeft

/-- A comma and the blanks after it, either of which may be absent, are passed over. -/
def skipComma : List Char → List Char
  | ',' :: cs => Text.trimLeft cs
  | cs => Text.trimLeft cs

/-- The digits of a lit and a dark count in a label, which may hold a comma. -/
def onOffLabel? : List Char → Option (List Char × List Char) :=
  onOffBy? skipComma

/-! ## Rules -/

/-- The number a run of digits spells. -/
def count (digits : List Char) : Outcome Int :=
  (liftNumeral (Text.decimalNumeral digits)).map fun n => (n : Int)

/-- The rule a clause spells with numbers. -/
def spelledSpacing (clause : List Char) : Outcome (Option Spacing) :=
  match search interval? clause with
  | some interval => (count interval).map fun n => some (.everyNth n)
  | none =>
      match search onOff? clause with
      | some (on, off) => do return some (.pattern (← count on) (← count off) true)
      | none =>
          match search spacedCount? clause with
          | some lights => (count lights).map fun n => some (.equallySpaced n)
          | none => .ok none

/-- The rule a clause asks for; `usual` is the count of equal spacing without a number. -/
def spacing (clause : List Char) (usual : Int) : Outcome (Option Spacing) :=
  match spacings.first? clause with
  | some (.rule rule) => .ok (some rule)
  | some .equally =>
      match search spacedCount? clause with
      | some lights => (count lights).map fun n => some (.equallySpaced n)
      | none => .ok (some (.equallySpaced usual))
  | none => spelledSpacing clause

end Eaves.Prompt
