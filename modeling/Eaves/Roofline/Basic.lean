import Eaves.Failure
import Eaves.Roofline.Segment

/-!
# Rooflines

A roofline lays segments end to end: each starts where the one before ends.
Segments carry an order; laying them out sorts by it, numbers them afresh and
computes where each one starts.  Two segments of one roofline never share an id.

Every edit lays the changed list out again, so what laying out guarantees holds
after any number of edits.
-/

namespace Eaves

/-- Segments laid end to end. -/
structure Roofline where
  id : String := "default"
  name : String := "Roofline"
  segments : List Segment := []
  deriving DecidableEq, Repr

namespace Roofline

/-! ## Laying out -/

/-- Numbers the segments from `position` and lets the first start at `start`. -/
def placeFrom : (position start : Nat) → List Segment → List Segment
  | _, _, [] => []
  | position, start, segment :: rest =>
      { segment with startPixel := start, sortOrder := position } ::
        placeFrom (position + 1) (start + segment.pixelCount) rest

/-- The segments in their order, numbered and placed end to end. -/
def place (segments : List Segment) : List Segment :=
  placeFrom 0 0 (segments.mergeSort fun s t => decide (s.sortOrder ≤ t.sortOrder))

/-- Whether no two segments share an id. -/
def distinctIds (segments : List Segment) : Bool :=
  decide (segments.map Segment.id).Nodup

/-- The wording of a repeated id. -/
def repeatedId : Fault :=
  .value "segment ids must be unique"

/-- The segments laid out, if their ids are distinct. -/
def layOut (segments : List Segment) : Checked (List Segment) :=
  if distinctIds segments then .valid (place segments) else Checked.fail repeatedId

/-- A roofline from any segments, if their ids are distinct. -/
def ofSegments (id name : String) (segments : List Segment) : Checked Roofline :=
  ((layOut segments).under "segments").map fun placed => ⟨id, name, placed⟩

/-! ## Views -/

/-- The number of lights. -/
def total (roofline : Roofline) : Nat :=
  (roofline.segments.map Segment.pixelCount).foldr (· + ·) 0

/-- The storeys that segments sit on, in order. -/
def levels (roofline : Roofline) : List Nat :=
  increasing (roofline.segments.map fun segment => segment.level.val)

/-- Every anchor, in segment order. -/
def anchors (roofline : Roofline) : List Nat :=
  roofline.segments.flatMap Segment.globalAnchors

/-- Segments grouped with those they are wired to: a segment that is connected joins the
group before it. -/
def runsFrom : List Segment → List (List Segment)
  | [] => []
  | segment :: rest =>
      match rest, runsFrom rest with
      | next :: _, run :: runs =>
          if next.connected then (segment :: run) :: runs else [segment] :: run :: runs
      | _, _ => [[segment]]

/-- Segments grouped into physically connected runs. -/
def connectedRuns (roofline : Roofline) : List (List Segment) :=
  runsFrom roofline.segments

/-- The segments on a storey. -/
def onLevel (roofline : Roofline) (level : Int) : List Segment :=
  roofline.segments.filter fun segment => decide ((segment.level.val : Int) = level)

/-- The segments of some shapes. -/
def ofShapes (roofline : Roofline) (shapes : List Shape) : List Segment :=
  roofline.segments.filter fun segment => shapes.contains segment.shape

/-- The segment with an id. -/
def byId? (roofline : Roofline) (id : String) : Option Segment :=
  roofline.segments.find? fun segment => segment.id == id

/-- The segment a light belongs to. -/
def segmentAt? (roofline : Roofline) (pixel : Int) : Option Segment :=
  roofline.segments.find? fun segment => segment.contains pixel

/-- Whether a light lies in the width of an anchor of its segment. -/
def isAnchor (roofline : Roofline) (pixel : Int) : Bool :=
  match roofline.segmentAt? pixel with
  | some segment => segment.isAnchor (pixel - segment.startPixel)
  | none => false

/-- Whether the controller drives as many lights as the roofline has. -/
def matchesDevice (roofline : Roofline) (count : Int) : Bool :=
  decide ((roofline.total : Int) = count)

/-! ## Edits -/

/-- Gives each segment its position in the list as its order. -/
def renumberFrom : (position : Nat) → List Segment → List Segment
  | _, [] => []
  | position, segment :: rest =>
      { segment with sortOrder := position } :: renumberFrom (position + 1) rest

/-- The roofline with other segments, kept in list order. -/
def withSegments (roofline : Roofline) (segments : List Segment) : Checked Roofline :=
  ofSegments roofline.id roofline.name (renumberFrom 0 segments)

/-- Adds a segment at the end. -/
def add (roofline : Roofline) (segment : Segment) : Checked Roofline :=
  roofline.withSegments (roofline.segments ++ [segment])

/-- Replaces the segment with an id. -/
def update (roofline : Roofline) (id : String) (segment : Segment) : Checked Roofline :=
  roofline.withSegments
    (roofline.segments.map fun present => if present.id == id then segment else present)

/-- Removes the segment with an id. -/
def remove (roofline : Roofline) (id : String) : Checked Roofline :=
  roofline.withSegments (roofline.segments.filter fun segment => segment.id != id)

/-- A list with the member at one position moved to another. -/
def moveMember (segments : List Segment) (source target : Nat) : List Segment :=
  match segments[source]? with
  | some segment => (segments.eraseIdx source).insertIdx target segment
  | none => segments

/-- Moves the segment at one position to another; positions outside the list, and equal
ones, change nothing. -/
def reorder (roofline : Roofline) (source target : Int) : Checked Roofline :=
  let count : Int := roofline.segments.length
  if 0 ≤ source ∧ source < count ∧ 0 ≤ target ∧ target < count ∧ source ≠ target then
    roofline.withSegments (moveMember roofline.segments source.toNat target.toNat)
  else .valid roofline

end Roofline

end Eaves
