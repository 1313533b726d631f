import Eaves.Answer.Layer

/-!
# Settling flags by answers

Answers name options of questions.  An answered question settles the flag it was
made from, found by the position in its id, or else the first open flag of its
layer and kind; its option changes the layer.  Each settled flag raises the
confidence by a fixed step.  Unknown questions and options change nothing.
-/

namespace Eaves

open Number (Binary64)

/-- An answer to a question: an offered option by its id, or an option of the user's own. -/
inductive Answer where
  | chosen (id : String)
  | own (offer : Offer)
  deriving Repr

/-- Answers by question. -/
abbrev Answers := List (String × Answer)

namespace Settle

/-- The option an answer stands for. -/
def offerFor? (question : Question) : Answer → Option Offer
  | .chosen id => question.offer? id
  | .own offer => some offer

/-- The option that answers give to a question. -/
def chosen? (answers : Answers) (question : Question) : Option Offer :=
  (answers.lookup question.id).bind (offerFor? question)

/-- Whether a question asks about the layer and the kind of a flag. -/
def asksAbout (question : Question) (flag : Ambiguity) : Bool :=
  flag.layerId == question.layerId && flag.kind.question == question.kind

/-- Whether the flag at a position is open and one that a question asks about. -/
def isOpenFor (flags : List Ambiguity) (settled : List Nat) (question : Question)
    (position : Nat) : Bool :=
  match flags[position]? with
  | some flag => !settled.contains position && asksAbout question flag
  | none => false

/-- The position at the end of a question's id. -/
def position? (id : String) : Outcome (Option Nat) :=
  let suffix := (Offer.cutAtLast id.toList).2
  if Offer.isAllDigits suffix then (liftNumeral (Text.decimalNumeral suffix)).map some
  else .ok none

/-- The position of the flag a question settles. -/
def flagFor? (flags : List Ambiguity) (settled : List Nat) (question : Question) :
    Outcome (Option Nat) := do
  let own := (← position? question.id).filter (isOpenFor flags settled question)
  return own.or ((List.range flags.length).find? (isOpenFor flags settled question))

/-- The layers after an option is chosen for a question; without its layer nothing changes. -/
def change (layers : List Layer) (question : Question) (offer : Offer)
    (flag : Option Ambiguity) : Outcome (List Layer) :=
  match layers.findIdx? fun layer => some layer.id == question.layerId with
  | none => .ok layers
  | some affected =>
      let alter (f : Layer → Layer) : Outcome (List Layer) := .ok (layers.modify affected f)
      match question.kind with
      | .zone => alter fun layer => layer.chooseZone offer
      | .color => alter fun layer => layer.chooseColor offer
      | .spacing =>
          match layers[affected]? with
          | some layer => (layer.chooseSpacing offer).map (layers.set affected)
          | none => .ok layers
      | .direction => alter fun layer => layer.chooseDirection offer
      | .effect => alter fun layer => layer.chooseEffect offer
      | .speed => alter fun layer => layer.chooseSpeed offer
      | .conflict => chooseWinner layers affected offer flag
      | .brightness | .confirmation | .manualFallback => .ok layers

/-- The brightness an option stands for; a truth value counts as a number. -/
def brightness? (offer : Offer) : Option Level :=
  match offer.value with
  | .int n => some (Level.clamp n)
  | .bool truth => some (Level.clamp (if truth then 1 else 0))
  | _ => none

/-- A design under answers: its layers and settings so far, and the positions of the flags
that are settled. -/
structure Progress where
  layers : List Layer
  settings : SceneSettings
  settled : List Nat := []

/-- Applies the option chosen for one question. -/
def applyOffer (flags : List Ambiguity) (progress : Progress) (question : Question)
    (offer : Offer) : Outcome Progress :=
  if question.kind.settlesFlags then do
    match ← flagFor? flags progress.settled question with
    | none => return progress
    | some position =>
        let layers ← change progress.layers question offer flags[position]?
        return { progress with layers := layers, settled := position :: progress.settled }
  else
    match question.kind, brightness? offer with
    | .brightness, some level =>
        .ok { progress with settings := { progress.settings with brightness := level } }
    | _, _ => do
        let layers ← change progress.layers question offer none
        return { progress with layers := layers }

/-- Applies the answer to one question, if there is one. -/
def applyOne (flags : List Ambiguity) (answers : Answers) (progress : Progress)
    (question : Question) : Outcome Progress :=
  match chosen? answers question with
  | some offer => applyOffer flags progress question offer
  | none => .ok progress

/-- The flags at positions that are not settled. -/
def remaining (flags : List Ambiguity) (settled : List Nat) : List Ambiguity :=
  (flags.zipIdx.filter fun flag => !settled.contains flag.2).map Prod.fst

/-- The gain in confidence for each settled flag. -/
def confidenceStep : Binary64 := .decimal 1 1

/-- The confidence after a number of flags is settled, at most one. -/
def raised (confidence : Binary64) (settled : Nat) : Binary64 :=
  (Binary64.finite 1).least (confidence.add (confidenceStep.mul (.finite (settled : Int))))

end Settle

/-- A design with answers applied to the questions that were asked about it. -/
def Intent.settle (intent : Intent) (answers : Answers) (questions : List Question) :
    Outcome Intent := do
  let progress ← questions.foldlM (Settle.applyOne intent.ambiguities answers)
    { layers := intent.layers, settings := intent.settings }
  return { intent with
    layers := progress.layers
    ambiguities := Settle.remaining intent.ambiguities progress.settled
    confidence := Settle.raised intent.confidence progress.settled.length
    settings := progress.settings }

end Eaves
