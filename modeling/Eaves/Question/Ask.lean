import Eaves.Question.Preview
import Eaves.Zone.Resolve

/-!
# Asking about flags

Every flag becomes one question, whose id ends in the position of the flag.
Questions are asked by kind, those of one kind in the order of their flags.  Zone,
spacing and conflict questions end with an option that is always there, also where
the others are cut to make room for it.
-/

namespace Eaves

/-- What questions are asked about: a design, perhaps on a roofline. -/
structure Subject where
  intent : Intent
  roofline : Option Roofline
  settings : CheckSettings

namespace Subject

/-- The number of lights a layer covers; the whole strip where the layer is not known. -/
def pixelCount (subject : Subject) (layerId : Option String) : Outcome Nat :=
  match subject.roofline with
  | none => .ok Preview.assumedPixels
  | some roofline =>
      match subject.intent.layer? layerId with
      | some layer => layer.zone.pixelCount roofline subject.settings
      | none => .ok roofline.total

/-- The brightness of previews. -/
def brightness (subject : Subject) : Int :=
  subject.intent.settings.brightness.toInt

end Subject

namespace Offer

/-- A choice of a flag as an option. -/
def ofChoice (icon : String) (choice : Choice) : Offer :=
  { id := choice.id
    label := choice.label
    description := choice.description
    icon := some icon
    recommended := choice.recommended
    value := choice.value
    preview := choice.preview }

/-- Whether some option has an id. -/
def anyWithId (offers : List Offer) (id : String) : Bool :=
  offers.any fun offer => offer.id == id

/-- At most the first three of the options, and then the one that is always offered: one that is
there under its id or an alias, else the given one. -/
def withLast (offers : List Offer) (last : Offer) (aliases : List String) : List Offer :=
  let isLast (offer : Offer) : Bool := offer.id == last.id || aliases.contains offer.id
  let others := offers.filter fun offer => !isLast offer
  others.take (maxOptions - 1) ++ [(offers.find? isLast).getD last]

end Offer

/-! ## Zones -/

/-- A zone of some features as an option. -/
def featureOffer (id label description icon : String) (zone : NonEmpty Feature) : Offer :=
  { id := id, label := label, description := description, icon := some icon,
    value := .zone (.features zone) }

/-- An option with the number of segments it stands for, where there are any. -/
def countedOffer (id name description icon : String) (feature : Feature) (count : Nat) :
    List Offer :=
  if count = 0 then []
  else [featureOffer id (name ++ " (" ++ toString count ++ ")") description icon
    (.singleton feature)]

/-- The option of peaks and corners together. -/
def peaksAndCorners : Offer :=
  { featureOffer "peaks_and_corners" "Peaks & corners" "Both peaks and corners" "architecture"
      (.pair .peak .corner) with
    recommended := true }

/-- The options for the shapes of segments that a roofline has. -/
def segmentOffers (roofline : Roofline) : List Offer :=
  let count (shape : Shape) : Nat := (roofline.ofShapes [shape]).length
  countedOffer "peaks" "Peaks" "All peak and gable segments" "change_history" .peak
      (count .peak) ++
    countedOffer "corners" "Corners" "All corner segments" "turn_right" .corner
      (count .corner) ++
    (if 0 < count .peak ∧ 0 < count .corner then [peaksAndCorners] else []) ++
    countedOffer "runs" "Runs" "Horizontal run segments" "horizontal_rule" .run (count .run)

/-- The options of a zone question with those for the shapes of segments added: an id that is
there is not added again, and nothing added is recommended where something is already. -/
def withSegmentOffers (own : List Offer) (roofline : Roofline) : List Offer :=
  let settled := own.any Offer.recommended
  own ++ ((segmentOffers roofline).filter fun offer => !Offer.anyWithId own offer.id).map
    fun offer => { offer with recommended := offer.recommended && !settled }

/-- The option that every zone question offers. -/
def wholeRoofline : Offer :=
  { id := "all", label := "Entire roofline", description := "Apply to all segments",
    icon := some "roofing", value := .zone .all }

/-- The options of a zone question. -/
def zoneOffers (subject : Subject) (flag : Ambiguity) : List Offer :=
  let own := flag.choices.map fun choice => Offer.ofChoice (Icon.forZone choice.label) choice
  let offers :=
    match subject.roofline with
    | some roofline => withSegmentOffers own roofline
    | none => own
  Offer.withLast offers wholeRoofline []

/-- The wording of a zone question. -/
def zoneWording (flag : Ambiguity) : String :=
  if flag.sourceClause.isEmpty then "Which areas should this apply to?"
  else "You mentioned \"" ++ flag.sourceClause ++ "\" - which areas exactly?"

/-! ## Colours and spacing -/

/-- The option of a colour question; a colour is shown as a swatch and on the strip. -/
def colorOffer (pixelCount brightness : Int) (choice : Choice) : Offer :=
  let plain := Offer.ofChoice "palette" choice
  match choice.value with
  | .color color =>
      { plain with
        swatches := some [color]
        preview := some (Preview.ofColor color pixelCount brightness).toEntries }
  | _ => plain

/-- The options of a colour question. -/
def colorOffers (subject : Subject) (flag : Ambiguity) : Outcome (List Offer) := do
  let pixelCount ← subject.pixelCount flag.layerId
  return flag.choices.map (colorOffer pixelCount subject.brightness)

/-- The option of a spacing question; a rule is shown light by light. -/
def spacingOffer (coloring : Coloring) (pixelCount brightness : Int) (choice : Choice) :
    Outcome Offer :=
  let plain := Offer.ofChoice "straighten" choice
  match choice.value with
  | .spacing rule => do
      let payload ← Preview.ofSpacing rule coloring pixelCount brightness
      return { plain with preview := some payload.toEntries }
  | _ => .ok plain

/-- The option that every spacing question offers. -/
def setManually : Offer :=
  { id := "manual", label := "Set manually", description := "Open spacing controls",
    icon := some "tune" }

/-- The options of a spacing question. -/
def spacingOffers (subject : Subject) (flag : Ambiguity) : Outcome (List Offer) := do
  let pixelCount ← subject.pixelCount flag.layerId
  let coloring := ((subject.intent.layer? flag.layerId).map Layer.coloring).getD {}
  let offers ← flag.choices.mapM (spacingOffer coloring pixelCount subject.brightness)
  return Offer.withLast offers setManually []

/-! ## Motion -/

/-- A direction as an option. -/
def directionOffer (label description : String) (direction : Direction) : Offer :=
  { id := Vocabulary.word direction, label := label, description := description,
    icon := some (Icon.forDirection (Vocabulary.word direction)), value := .direction direction }

/-- The directions offered where a flag has no choices. -/
def usualDirections : List Offer := [
  { directionOffer "Left to right" "Moves from the left side to the right side" .leftToRight with
    recommended := true },
  directionOffer "Right to left" "Moves from the right side to the left side" .rightToLeft,
  directionOffer "Inward" "From both ends toward the center" .inward,
  directionOffer "Outward" "From the center toward both ends" .outward]

/-- The options of a direction question. -/
def directionOffers (flag : Ambiguity) : List Offer :=
  if flag.choices.isEmpty then usualDirections
  else flag.choices.map fun choice => Offer.ofChoice (Icon.forDirection choice.id) choice

/-- The wording of a direction question. -/
def directionWording (flag : Ambiguity) : String :=
  if flag.description.isEmpty then "Which direction should it move?" else flag.description

/-- A kind of motion as an option. -/
def motionOffer (label description : String) (kind : MotionKind) : Offer :=
  { id := Vocabulary.word kind, label := label, description := description,
    icon := some (Icon.forEffect (Vocabulary.word kind)), value := .motion kind }

/-- The kinds of motion offered where a flag has fewer than two choices; the first is the one
to recommend. -/
def usualMotions : List Offer := [
  { motionOffer "Chase" "Running lights that move along" .chase with recommended := true },
  motionOffer "Wave" "Smooth wave of color" .wave,
  motionOffer "Twinkle" "Sparkling like stars" .twinkle,
  motionOffer "Pulse" "Gentle breathing effect" .pulse]

/-- The options of an effect question. -/
def effectOffers (flag : Ambiguity) : List Offer :=
  let own := flag.choices.map fun choice => Offer.ofChoice (Icon.forEffect choice.id) choice
  if own.length < 2 then
    let settled := own.any Offer.recommended
    own ++ (usualMotions.filter fun offer => !Offer.anyWithId own offer.id).map
      fun offer => { offer with recommended := offer.recommended && !settled }
  else own

/-! ## Conflicts -/

/-- The option that every conflict question offers. -/
def blendBoth : Offer :=
  { id := "merge", label := "Blend both", description := "Layer the designs together",
    icon := some "blur_linear" }

/-- The options of a conflict question. -/
def conflictOffers (flag : Ambiguity) : List Offer :=
  Offer.withLast (flag.choices.map (Offer.ofChoice "layers")) blendBoth ["blend"]

/-! ## Questions -/

/-- The wording and the options of the question about a flag. -/
def wordingAndOffers (subject : Subject) (flag : Ambiguity) : Outcome (String × List Offer) :=
  match flag.kind with
  | .zone => .ok (zoneWording flag, zoneOffers subject flag)
  | .color => (colorOffers subject flag).map fun offers => (flag.description, offers)
  | .spacingImpossible =>
      (spacingOffers subject flag).map fun offers =>
        ("The spacing doesn't quite work - which option looks best?", offers)
  | .direction => .ok (directionWording flag, directionOffers flag)
  | .effect => .ok ("Which effect did you have in mind?", effectOffers flag)
  | .conflict =>
      .ok ("These settings overlap - which should take priority?", conflictOffers flag)

/-- The id of the question about flag number `position`. -/
def questionId (kind : AmbiguityKind) (position : Nat) : String :=
  Vocabulary.word kind.question ++ "_" ++ toString position

/-- The question about flag number `position`. -/
def askOne (subject : Subject) (position : Nat) (flag : Ambiguity) : Outcome Question := do
  let (wording, offers) ← wordingAndOffers subject flag
  let pixelCount ← subject.pixelCount flag.layerId
  return {
    id := questionId flag.kind position
    kind := flag.kind.question
    wording := wording
    offers := offers.take maxOptions
    source := flag.sourceClause
    layerId := flag.layerId
    context := [("description", .text flag.description), ("pixel_count", .int pixelCount)] }

/-- The questions about flags, the first of which has number `position`. -/
def askFrom (subject : Subject) : (position : Nat) → List Ambiguity → Outcome (List Question)
  | _, [] => .ok []
  | position, flag :: rest => do
      let first ← askOne subject position flag
      let others ← askFrom subject (position + 1) rest
      return first :: others

/-- Questions in the order of asking; those of one kind keep their order. -/
def inAskingOrder (questions : List Question) : List Question :=
  questions.mergeSort fun a b => decide (a.kind.priority ≤ b.kind.priority)

/-- The questions about flags of a design, in the order of asking. -/
def ask (flags : List Ambiguity) (subject : Subject) : Outcome (List Question) :=
  (askFrom subject 0 flags).map inAskingOrder

end Eaves
