import Eaves.Prompt.SpacingPhrase
import Eaves.Question.Basic
import Eaves.Record.Selector
import Eaves.Text.Lowercase

/-!
# Chosen options on layers

What choosing an option does to a layer.  The option's value counts first; where it
is not of the kind that is asked for, the option's id may still say what is meant,
and for spacing its label.  An option that means nothing changes nothing.

A conflict is settled by priorities.  Blending lifts the affected layer by one; a
winner is lifted above the other layers the flag is about, unless it is already.
-/

namespace Eaves

namespace Value

/-- The zone a value is, or is the data of. -/
def zone? (value : Value) : Option Zone :=
  (Zone.read value).toOption

/-- The spacing rule a value is, or is the data of. -/
def spacing? (value : Value) : Option Spacing :=
  (Spacing.read value).toOption

/-- The color a value is, is the data of, or is the hexadecimal form of. -/
def color? : Value → Option Color
  | .color own => some own
  | .text s => (Color.ofHex s).toOption
  | .object es => (Color.read (.object es)).toOption
  | _ => none

/-- The member of a vocabulary that a value spells; terms are spelled by their words. -/
def member? {α : Type} [Vocabulary α] : Value → Option α
  | .text s => Vocabulary.ofWord? s
  | .direction heading => Vocabulary.ofWord? (Vocabulary.word heading)
  | .motion kind => Vocabulary.ofWord? (Vocabulary.word kind)
  | .speed preset => Vocabulary.ofWord? (Vocabulary.word preset)
  | _ => none

end Value

namespace Offer

/-- The member of a vocabulary that an option's value spells, else its id. -/
def member? {α : Type} [Vocabulary α] (offer : Offer) : Option α :=
  offer.value.member?.or (Vocabulary.ofWord? offer.id)

/-- The rest of a text that starts with another. -/
def afterStart? (start s : String) : Option String :=
  let cs := s.toList
  if Text.startsWith start.toList cs then some (String.ofList (cs.drop start.toList.length))
  else none

/-- The zone that an option's id stands for. -/
def zoneOfId? (id : String) : Option Zone :=
  if id == "all" then some .all
  else
    match afterStart? "segment_" id with
    | some segment => some (.segments (.singleton segment))
    | none =>
        match id with
        | "peaks" => some (.features (.singleton .peak))
        | "corners" => some (.features (.singleton .corner))
        | "peaks_and_corners" => some (.features (.pair .peak .corner))
        | "runs" => some (.features (.singleton .run))
        | _ => none

/-- The zone an option stands for. -/
def zone? (offer : Offer) : Option Zone :=
  offer.value.zone?.or (zoneOfId? offer.id)

/-- The colour an option stands for. -/
def color? (offer : Offer) : Option Color :=
  offer.value.color?.or (offer.swatches.bind List.head?)

/-- A text cut at its last underscore; without one it is all number. -/
def cutAtLast (cs : List Char) : List Char × List Char :=
  let number := (cs.reverse.takeWhile (· ≠ '_')).reverse
  (cs.take (cs.length - number.length - 1), number)

/-- Whether a text is made of digits in the wider sense. -/
def isAllDigits (cs : List Char) : Bool :=
  !cs.isEmpty && cs.all Text.isDigitLike

/-- The rule that an option's label spells: a lit and a dark count. -/
def spacingOfLabel? (label : String) : Outcome (Option Spacing) :=
  match Prompt.search Prompt.onOffLabel? label.toList with
  | some (on, off) => do
      return some (.pattern (← Prompt.count on) (← Prompt.count off) true)
  | none => .ok none

/-- The rule an option stands for: its value, else a count or an interval in its id, else its
label.  Setting spacing by hand is no rule. -/
def spacing? (offer : Offer) : Outcome (Option Spacing) :=
  if offer.id == "manual" then .ok none
  else
    match offer.value.spacing? with
    | some rule => .ok (some rule)
    | none =>
        let (name, number) := cutAtLast offer.id.toList
        if isAllDigits number && String.ofList name == "count" then
          (Prompt.count number).map fun n => some (.equallySpaced n)
        else if isAllDigits number && String.ofList name == "interval" then
          (Prompt.count number).map fun n => some (.everyNth n)
        else spacingOfLabel? offer.label

end Offer

namespace Layer

/-- The layer on the zone an option stands for. -/
def chooseZone (layer : Layer) (offer : Offer) : Layer :=
  match offer.zone? with
  | some zone => { layer with zone := zone }
  | none => layer

/-- The layer in the colour an option stands for, named by its label. -/
def chooseColor (layer : Layer) (offer : Offer) : Layer :=
  match offer.color? with
  | some color =>
      { layer with
        coloring := { layer.coloring with
          primary := color
          primaryName := String.ofList (Text.lower offer.label.toList) } }
  | none => layer

/-- The layer with the rule an option stands for, or else its own one, confirmed. -/
def chooseSpacing (layer : Layer) (offer : Offer) : Outcome Layer := do
  match (← offer.spacing?).or layer.coloring.spacing with
  | some rule =>
      return { layer with
        coloring := { layer.coloring with spacing := some rule, acceptedSpacing := some rule } }
  | none => return layer

/-- The layer moving in the direction an option stands for, if it moves. -/
def chooseDirection (layer : Layer) (offer : Offer) : Layer :=
  match offer.member? (α := Direction), layer.motion with
  | some direction, some motion =>
      { layer with
        motion := some { motion with
          direction := direction
          reverse := direction.reversesStrip } }
  | _, _ => layer

/-- The layer with the kind of motion an option stands for. -/
def chooseEffect (layer : Layer) (offer : Offer) : Layer :=
  match offer.member? (α := MotionKind) with
  | some kind =>
      { layer with
        motion := some { layer.motion.getD {} with
          kind := kind
          effect := Effect.forMotion kind } }
  | none => layer

/-- The speed an option stands for. -/
def speedOf? (offer : Offer) : Option Level :=
  match offer.value with
  | .int n => some (Level.clamp n)
  | _ => (offer.member? (α := SpeedPreset)).map SpeedPreset.level

/-- The layer moving at the speed an option stands for, if it moves. -/
def chooseSpeed (layer : Layer) (offer : Offer) : Layer :=
  match speedOf? offer, layer.motion with
  | some speed, some motion => { layer with motion := some { motion with speed := speed } }
  | _, _ => layer

end Layer

/-! ## Conflicts -/

/-- The digits between a start and an end of an id. -/
def winnerDigits? (id : String) : Option (List Char) := do
  let rest ← Prompt.afterWord? "layer_" id.toList
  let (digits, rest) ← Prompt.digits? rest
  if rest = "_wins".toList then return digits else none

/-- The position of the layer that an option lets win. -/
def winner? (id : String) : Outcome (Option Int) :=
  match winnerDigits? id with
  | some digits => (Prompt.count digits).map some
  | none => .ok none

/-- The positions of the layers a flag is about. -/
def contenders (flag : Ambiguity) : Outcome (List Int) := do
  let winners ← flag.choices.mapM fun choice => winner? choice.id
  return winners.filterMap id

/-- The list with the layer at a position lifted to at least a priority. -/
def liftTo (layers : List Layer) (position : Nat) (priority : Int) : List Layer :=
  layers.modify position fun layer => { layer with priority := max layer.priority priority }

/-- The greatest of priorities. -/
def highest (first : Int) (priorities : List Int) : Int :=
  priorities.foldl max first

/-- The layers with the one at a position lifted above those that lose to it.  Positions
outside the list count for nothing. -/
def letWin (layers : List Layer) (winner : Int) (involved : List Int) : List Layer :=
  let losers := (involved.filter fun i => i != winner && decide (0 ≤ i)).filterMap
    fun i => layers[i.toNat]?.map Layer.priority
  match losers with
  | [] => layers
  | first :: rest =>
      if 0 ≤ winner then liftTo layers winner.toNat (highest first rest + 1) else layers

/-- The position that a number stands for, when negative ones count from the end. -/
def position? (count : Nat) (n : Int) : Option Nat :=
  let position := if n < 0 then n + count else n
  if 0 ≤ position ∧ position < count then some position.toNat else none

/-- The layers with the one at a position lifted by one. -/
def blend (layers : List Layer) (affected : Int) : Outcome (List Layer) :=
  match position? layers.length affected with
  | some position =>
      .ok (layers.modify position fun layer => { layer with priority := layer.priority + 1 })
  | none => .error .noPosition

/-- The layers after a conflict is settled by an option; `affected` is the position of the layer
the question is about. -/
def chooseWinner (layers : List Layer) (affected : Int) (offer : Offer)
    (flag : Option Ambiguity) : Outcome (List Layer) :=
  if offer.id == "merge" || offer.id == "blend" then blend layers affected
  else do
    match ← winner? offer.id with
    | none => return layers
    | some winner =>
        let involved ←
          match flag with
          | some flag => contenders flag
          | none => .ok []
        return letWin layers winner involved

end Eaves
