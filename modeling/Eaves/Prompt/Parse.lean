import Eaves.Design.Intent
import Eaves.Prompt.Clause
import Eaves.Prompt.Normal
import Eaves.Settings.Basic

/-!
# From a prompt to an intent

The clauses of a prompt in normal form become layers, in order; the flags are those
of the clauses and then those of conflicting pairs of layers.  How sure the parser is
of them: full confidence less a penalty for each flag, for each layer on the whole
roofline and for each layer in plain white, since those are also what the parser falls
back to.
-/

namespace Eaves.Prompt

open Number (Binary64)

/-- What the confidence of a parse depends on. -/
structure Tally where
  flags : Int
  wholeRoofline : Int
  white : Int
  layers : Int
  deriving DecidableEq, Repr

/-- A penalty that applies a number of times. -/
def penalty (each : Binary64) (times : Int) : Outcome Binary64 :=
  (liftNumber (Binary64.ofInt times)).map each.mul

/-- The confidence of a parse, between zero and one; zero when there is no layer. -/
def confidence (tally : Tally) (settings : ParserSettings) : Outcome Binary64 :=
  if tally.layers = 0 then .ok (.finite 0)
  else do
    let flags ← penalty settings.ambiguityPenalty tally.flags
    let whole ← penalty settings.allZonePenalty tally.wholeRoofline
    let white ← penalty settings.whitePenalty tally.white
    let score := (((Binary64.finite 1).sub flags).sub whole).sub white
    return (Binary64.finite 0).greatest ((Binary64.finite 1).least score)

/-- The layers made from clauses, the first of which has number `index`. -/
def understandFrom (roofline : Option Roofline) (settings : ParserSettings) :
    (index : Nat) → List (List Char) → Outcome (List Understanding)
  | _, [] => .ok []
  | index, clause :: rest => do
      let first ← understand clause index roofline settings
      let others ← understandFrom roofline settings (index + 1) rest
      return first :: others

/-- What counts for the confidence in layers and flags. -/
def tally (layers : List Layer) (flags : List Ambiguity) : Tally :=
  ⟨flags.length, layers.countP fun layer => layer.zone == .all,
    layers.countP fun layer => layer.coloring.primary.sameRgb .pureWhite, layers.length⟩

/-- What a prompt asks for. -/
def parse (text : String) (roofline : Option Roofline) (settings : ParserSettings) :
    Outcome Intent := do
  let understood ← understandFrom roofline settings 0 (clauses (normalize text.toList))
  let layers := understood.map Understanding.layer
  let flags := understood.flatMap Understanding.flags ++ conflicts layers
  let confidence ← confidence (tally layers flags) settings
  return {
    prompt := text
    layers := layers
    ambiguities := flags
    confidence := confidence }

end Eaves.Prompt
