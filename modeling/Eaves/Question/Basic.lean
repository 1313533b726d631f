import Eaves.Design.Intent

/-!
# Questions

A flag becomes a question with at most four options.  Questions are asked in a
fixed order of their kinds; an option carries the value that choosing it puts into
the design, and may carry a preview.
-/

namespace Eaves

/-- What a question is about; the order of declaration is the order of asking. -/
inductive QuestionKind where
  | zone
  | color
  | spacing
  | direction
  | effect
  | conflict
  | brightness
  | speed
  | confirmation
  | manualFallback
  deriving DecidableEq, Repr

instance : Vocabulary QuestionKind where
  title := "ClarificationType"
  members := [.zone, .color, .spacing, .direction, .effect, .conflict, .brightness, .speed,
    .confirmation, .manualFallback]
  word
    | .zone => "zone"
    | .color => "color"
    | .spacing => "spacing"
    | .direction => "direction"
    | .effect => "effect"
    | .conflict => "conflict"
    | .brightness => "brightness"
    | .speed => "speed"
    | .confirmation => "confirmation"
    | .manualFallback => "manual_fallback"

/-- The place of a kind in the order of asking. -/
def QuestionKind.priority : QuestionKind → Nat
  | .zone => 0
  | .color => 1
  | .spacing => 2
  | .direction => 3
  | .effect => 4
  | .conflict => 5
  | .brightness => 6
  | .speed => 7
  | .confirmation => 8
  | .manualFallback => 9

/-- The kind of question that settles a kind of flag. -/
def AmbiguityKind.question : AmbiguityKind → QuestionKind
  | .zone => .zone
  | .color => .color
  | .spacingImpossible => .spacing
  | .direction => .direction
  | .conflict => .conflict
  | .effect => .effect

/-- Whether questions of a kind settle flags. -/
def QuestionKind.settlesFlags : QuestionKind → Bool
  | .zone | .color | .spacing | .direction | .conflict | .effect => true
  | .brightness | .speed | .confirmation | .manualFallback => false

/-- The most options a question offers. -/
def maxOptions : Nat := 4

/-- An option offered for a question. -/
structure Offer where
  id : String
  label : String
  description : String := ""
  icon : Option String := none
  recommended : Bool := false
  value : Value := .null
  preview : Option Entries := none
  swatches : Option (List Color) := none
  deriving Repr, Inhabited

/-- A question about a design. -/
structure Question where
  id : String
  kind : QuestionKind
  wording : String
  offers : List Offer
  mandatory : Bool := true
  source : String := ""
  layerId : Option String := none
  context : Entries := []
  deriving Repr

namespace Question

/-- The offered option with an id. -/
def offer? (question : Question) (id : String) : Option Offer :=
  question.offers.find? fun offer => offer.id == id

/-- The option that is marked as recommended, else the first one. -/
def recommended? (question : Question) : Option Offer :=
  (question.offers.find? Offer.recommended).or question.offers.head?

end Question

end Eaves
