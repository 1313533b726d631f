import Eaves.Pixels.Group
import Eaves.Value.Basic

/-!
# Payloads

What a controller is sent.  A payload addresses one segment of the controller,
from its first light to a stop that is not included, and either lists every lit
light with its channels, or names an effect with up to three colours.
-/

namespace Eaves

/-- What a payload shows. -/
inductive Scene where
  /-- Every lit light: its index and then its channels, in one flat list. -/
  | individual (lights : List Int)
  /-- An effect in some colours; the direction may be left to the device. -/
  | effect (colors : List (List Int)) (id speed intensity : Int) (reverse : Option Bool)
  deriving DecidableEq, Repr

/-- What a controller is sent. -/
structure Payload where
  brightness : Int
  transition : Option Int := none
  segmentId : Int := 0
  stop : Int
  scene : Scene
  deriving DecidableEq, Repr

namespace Payload

/-- The most colours an effect takes. -/
def maxColors : Nat := 3

/-- The channels of a colour, with the white light's when the strip has one. -/
def channels (rgbw : Bool) (color : Color) : List Int :=
  if rgbw then color.splitWhite .extract else color.rgb

/-- The stop of a segment: the given count, or one past the last light of any group. -/
def stopOf (groups : List Group) : Option Int → Int
  | some total => total
  | none => (groups.map fun group => (group.last : Int) + 1).foldl max 0

/-- Colours not found yet are added, until there are `limit`; one is added even when the limit
is lower. -/
def distinctFrom (limit : Int) : (found : List Color) → List Group → List Color
  | found, [] => found
  | found, group :: rest =>
      if found.any fun color => color.sameRgb group.color then distinctFrom limit found rest
      else
        let found := found ++ [group.color]
        if limit ≤ found.length then found else distinctFrom limit found rest

/-- The first distinct colours of groups, in group order. -/
def distinctColors (groups : List Group) (limit : Int := maxColors) : List Color :=
  distinctFrom limit [] groups

/-- The lights of groups with their channels, in one flat list. -/
def flatten (groups : List Group) (rgbw : Bool) : List Int :=
  groups.flatMap fun group =>
    group.pixels.flatMap fun (pixel : Nat) => (pixel : Int) :: channels rgbw group.color

/-- A payload that lists every light. -/
def individual (groups : List Group) (brightness : Int) (total : Option Int := none)
    (segmentId : Int := 0) (transition : Option Int := none) (rgbw : Bool := false) : Payload :=
  ⟨brightness, transition, segmentId, stopOf groups total, .individual (flatten groups rgbw)⟩

/-- How an effect is run. -/
structure EffectRun where
  id : Int
  speed : Int := 128
  intensity : Int := 128
  reverse : Option Bool := none
  deriving DecidableEq, Repr

/-- A payload that runs an effect in the first distinct colours of groups, in white when there
are none. -/
def effect (groups : List Group) (brightness : Int) (run : EffectRun)
    (total : Option Int := none) (segmentId : Int := 0) (transition : Option Int := none)
    (rgbw : Bool := false) : Payload :=
  let found := distinctColors groups
  let colors := if found.isEmpty then [Color.pureWhite] else found
  ⟨brightness, transition, segmentId, stopOf groups total,
    .effect (colors.map (channels rgbw)) run.id run.speed run.intensity run.reverse⟩

/-- A payload that runs an effect over the whole strip in given colours, in white when none are
given. -/
def wholeStrip (brightness : Int) (run : EffectRun) (total : Int) (colors : List Color)
    (segmentId : Int := 0) (rgbw : Bool := false) : Payload :=
  let slots := (if colors.isEmpty then [Color.pureWhite] else colors).take maxColors
  ⟨brightness, none, segmentId, total,
    .effect (slots.map (channels rgbw)) run.id run.speed run.intensity none⟩

/-- The entries of a payload's segment. -/
def segmentEntries (payload : Payload) : Entries :=
  [("id", .int payload.segmentId), ("start", .int 0), ("stop", .int payload.stop)] ++
    match payload.scene with
    | .individual lights => [("i", .ofInts lights)]
    | .effect colors id speed intensity reverse =>
        [("col", .list (colors.map .ofInts)), ("fx", .int id), ("sx", .int speed),
          ("ix", .int intensity)] ++
        (reverse.map fun backwards => ("rev", Value.bool backwards)).toList

/-- A payload as data. -/
def toEntries (payload : Payload) : Entries :=
  [("on", .bool true), ("bri", .int payload.brightness)] ++
    (payload.transition.map fun tenths => ("transition", Value.int tenths)).toList ++
    [("seg", .list [.object payload.segmentEntries])]

end Payload

end Eaves
