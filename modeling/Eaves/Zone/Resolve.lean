import Eaves.Failure
import Eaves.Roofline.Basic
import Eaves.Settings.Basic
import Eaves.Text.Lowercase
import Eaves.Text.Search
import Eaves.Zone.Basic

/-!
# Zones on a roofline

Against a roofline a zone becomes ranges of lights.  Ranges stay inside the strip
and segments without lights give none.  A segment without a side of its own faces
the side its name speaks of.
-/

namespace Eaves

open Number (Binary64)

/-- The words in a segment's name that place it on a side. -/
def Side.nameWords : Side → List String
  | .front => ["front", "street", "main"]
  | .back => ["back", "rear", "yard"]
  | .left => ["left", "west"]
  | .right => ["right", "east"]

/-- Whether a segment faces a side, by its own side or else by its name. -/
def Segment.faces (segment : Segment) (side : Side) : Bool :=
  match segment.side with
  | some own => own == side
  | none =>
      let name := Text.lower segment.name.toList
      side.nameWords.any fun word => Text.occursIn word.toList name

/-- The range of a segment's lights, when it has any. -/
def Segment.range? (segment : Segment) : Option PixelRange :=
  if segment.pixelCount = 0 then none
  else some ⟨segment.startPixel, segment.startPixel + (segment.pixelCount - 1), by omega⟩

/-- The part of a range that lies on a strip of `total` lights. -/
def PixelRange.clip? (range : PixelRange) (total : Nat) : Option PixelRange :=
  if inside : range.first < total then
    some ⟨range.first, min range.last (total - 1), by
      have := range.ordered
      omega⟩
  else none

namespace Zone

/-- The segments a zone covers; none for the whole roofline and for plain ranges. -/
def segmentsOn (zone : Zone) (roofline : Roofline) : List Segment :=
  match zone with
  | .all | .custom _ => []
  | .segments ids => roofline.segments.filter fun segment => ids.val.contains segment.id
  | .features named =>
      roofline.segments.filter fun segment => Feature.cover named.val segment.shape
  | .side face => roofline.segments.filter fun segment => segment.faces face
  | .level storey => roofline.onLevel storey.val

/-- The ranges of lights a zone addresses. -/
def ranges (zone : Zone) (roofline : Roofline) : List PixelRange :=
  let total := roofline.total
  if total = 0 then []
  else
    match zone with
    | .all => [⟨0, total - 1, by omega⟩]
    | .custom spans => spans.val.filterMap fun range => range.clip? total
    | _ => (zone.segmentsOn roofline).filterMap Segment.range?

/-- A share of the strip, as a whole number of lights. -/
def shareOfStrip (roofline : Roofline) (share : Binary64) : Outcome Nat :=
  liftNumber do
    let total ← Binary64.ofInt roofline.total
    let lights ← (total.mul share).truncate
    return lights.toNat

/-- The number of lights a zone covers.  A feature or a side that covers none is taken to
cover a fixed share of the strip. -/
def pixelCount (zone : Zone) (roofline : Roofline) (settings : CheckSettings) : Outcome Nat :=
  let count := ((zone.ranges roofline).map PixelRange.length).foldr (· + ·) 0
  if count = 0 then
    match zone with
    | .features _ => shareOfStrip roofline settings.featureShare
    | .side _ => shareOfStrip roofline settings.sideShare
    | _ => .ok 0
  else .ok count

end Zone

end Eaves
