import Eaves.Design.Intent
import Eaves.Prompt.ColorNames
import Eaves.Prompt.SpacingPhrase
import Eaves.Roofline.Basic
import Eaves.Settings.Basic
import Eaves.Text.Lowercase

/-!
# From a clause to a layer

One clause is one layer: a zone, colours, perhaps a spacing rule, a layout and
perhaps motion.  What the clause leaves open becomes a flag of the layer, and the
layer gets the assumption that the flag recommends.
-/

namespace Eaves.Prompt

/-- A layer read from a clause, and what the clause leaves open. -/
structure Understanding where
  layer : Layer
  flags : List Ambiguity := []
  deriving Repr

/-- Where a flag comes from: the clause and the layer it became. -/
structure Origin where
  clause : List Char
  layerId : String

/-- A flag of some origin. -/
def Origin.flag (origin : Origin) (kind : AmbiguityKind) (description : String)
    (choices : List Choice) : Ambiguity :=
  ⟨kind, description, String.ofList origin.clause, some origin.layerId, choices⟩

/-! ## The zone -/

/-- The text with every longer phrase for a direction blanked out. -/
def withoutDirections (text : List Char) : List Char :=
  (directions.flatMap Prod.snd).foldl
    (fun text phrase =>
      if 2 < (Text.trim phrase.toList).length then Text.replace phrase.toList [' '] text
      else text)
    text

/-- The part of a clause that can name a place: a phrase for a direction ("right to left")
names none. -/
def placeText (clause : List Char) : List Char :=
  Text.collapse (Text.trim (withoutDirections (padded clause)))

/-- The zone of the given segments, or a side where there are none. -/
def listedOr (side : Side) (ids : List String) : Zone :=
  match NonEmpty.ofList? ids with
  | some listed => .segments listed
  | none => .side side

/-- The flag for a feature that covers many segments. -/
def manySegments (origin : Origin) (feature : Feature) (zone : Zone) (matching : List Segment) :
    Ambiguity :=
  let front := matching.filter fun segment => segment.side == some .front
  origin.flag .zone
    ("Multiple " ++ feature.plural ++ " found (" ++ toString matching.length ++ ")")
    [{ id := "all", label := "All " ++ feature.plural, recommended := true, value := .zone zone },
      { id := "front_only", label := "Front " ++ feature.plural ++ " only",
        value := .zone (listedOr .front (front.map Segment.id)) },
      { id := "select", label := "Let me select" }]

/-- The segments of a roofline that a feature covers. -/
def coveredBy (roofline : Roofline) (feature : Feature) : List Segment :=
  roofline.segments.filter fun segment => Feature.cover [feature] segment.shape

/-- The flags of a zone of features: a single one that covers many segments is asked about. -/
def featureFlags (origin : Origin) (named : NonEmpty Feature) (roofline : Option Roofline)
    (settings : ParserSettings) : List Ambiguity :=
  match named.val, roofline with
  | [feature], some roofline =>
      let matching := coveredBy roofline feature
      if settings.segmentThreshold < matching.length then
        [manySegments origin feature (.features named) matching]
      else []
  | _, _ => []

/-- The zone a clause names: features, else a side, else a storey, else everything. -/
def zone (origin : Origin) (roofline : Option Roofline) (settings : ParserSettings) :
    Zone × List Ambiguity :=
  let text := placeText origin.clause
  match NonEmpty.ofList? (features.found text) with
  | some named => (.features named, featureFlags origin named roofline settings)
  | none =>
      match sides.first? text with
      | some side => (.side side, [])
      | none =>
          match storeys.first? text with
          | some storey => (.level storey, [])
          | none => (.all, [])

/-! ## The colours -/

/-- A colour and the name it was asked for by. -/
abbrev Asked := String × Color

/-- The flag for a vague colour word. -/
def whichShade (origin : Origin) (vague : VagueColor) : Ambiguity :=
  let choice (recommended : Bool) (shade : Shade) : Choice :=
    { id := shade.id, label := shade.label, value := .color shade.color,
      recommended := recommended }
  origin.flag .color ("Which shade of " ++ vague.word ++ "?")
    (choice true vague.assumed :: vague.others.map (choice false))

/-- Puts an entry in the place of the first one of a name, or at the end. -/
def replaceNamed (name : String) (entry : Asked) : List Asked → List Asked
  | [] => [entry]
  | asked :: rest =>
      if asked.1 == name then entry :: rest else asked :: replaceNamed name entry rest

/-- The assumed shade of a vague word, named by its label in small letters. -/
def assumedShade (vague : VagueColor) : Asked :=
  (String.ofList (Text.lower vague.assumed.label.toList), vague.assumed.color)

/-- The colours a clause asks for, with vague words taken for their assumed shades. -/
def asked (clause : List Char) : List Asked :=
  (vagueMentions clause).foldl
    (fun found mention =>
      replaceNamed mention.vague.word (assumedShade mention.vague) found)
    ((colors clause).map fun mention => (mention.name, mention.color))

/-- The first colour is the primary one.  The second is the secondary one, or the accent where
the clause speaks of one; a third is the accent if there is none yet. -/
def coloringOf (clause : List Char) : List Asked → Coloring
  | [] => {}
  | (name, primary) :: rest =>
      let colors := rest.map Prod.snd
      if mentions clause accentWords then
        { primary := primary, primaryName := name, accent := (colors[0]?).or colors[1]? }
      else
        { primary := primary, primaryName := name, secondary := colors[0]?, accent := colors[1]? }

/-- The colours of a clause and the flags for its vague words. -/
def coloring (origin : Origin) : Coloring × List Ambiguity :=
  (coloringOf origin.clause (asked origin.clause),
    (vagueMentions origin.clause).map fun mention => whichShade origin mention.vague)

/-! ## The motion -/

/-- The flag for motion without a direction. -/
def whichDirection (origin : Origin) (kind : MotionKind) : Ambiguity :=
  origin.flag .direction
    ("Which direction should the " ++ Vocabulary.word kind ++ " go?")
    [{ id := "left_to_right", label := "Left to right", value := .direction .leftToRight,
        recommended := true },
      { id := "right_to_left", label := "Right to left", value := .direction .rightToLeft }]

/-- The flag for motion of no particular kind. -/
def whichMotion (origin : Origin) : Ambiguity :=
  let choice (label : String) (kind : MotionKind) : Choice :=
    { id := Vocabulary.word kind, label := label, value := .motion kind,
      recommended := kind == .chase }
  origin.flag .effect "Which kind of animation?"
    [choice "Chase" .chase, choice "Wave" .wave, choice "Twinkle" .twinkle,
      choice "Pulse" .pulse]

/-- Motion of a kind in a direction. -/
def motionOf (kind : MotionKind) (direction : Direction) (speed : Level) : Motion :=
  { kind := kind, direction := direction, speed := speed, reverse := direction.reversesStrip,
    effect := Effect.forMotion kind }

/-- The motion a clause asks for, and the flag for what it leaves open about it. -/
def motion (origin : Origin) : Option Motion × List Ambiguity :=
  match motions.first? origin.clause with
  | none => (none, if mentions origin.clause anyMotionWords then [whichMotion origin] else [])
  | some kind =>
      let speed := speed origin.clause
      match directions.first? origin.clause with
      | some direction => (some (motionOf kind direction speed), [])
      | none => (some (motionOf kind .leftToRight speed), [whichDirection origin kind])

/-! ## The layer -/

/-- The id of the layer made from clause number `index`. -/
def layerId (index : Int) : String :=
  "layer_" ++ toString index

/-- The layer made from clause number `index`. -/
def understand (clause : List Char) (index : Int) (roofline : Option Roofline)
    (settings : ParserSettings) : Outcome Understanding := do
  let origin : Origin := ⟨clause, layerId index⟩
  let (zone, zoneFlags) := zone origin roofline settings
  let (coloring, colorFlags) := coloring origin
  let spacing ← spacing clause settings.defaultCount.val
  let (motion, motionFlags) := motion origin
  return {
    layer := {
      id := origin.layerId
      name := coloring.primaryName ++ " on " ++ zone.description
      zone := zone
      coloring := { coloring with spacing := spacing }
      pattern := { layout := layout clause }
      motion := motion
      priority := index }
    flags := zoneFlags ++ colorFlags ++ motionFlags }

end Eaves.Prompt
