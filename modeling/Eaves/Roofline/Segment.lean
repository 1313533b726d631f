import Eaves.Bounds
import Eaves.Roofline.Shape

/-!
# Segments of a strip

A segment is a contiguous piece of the strip.  Its anchors are the offsets where a
fixture starts that should always be lit; without any of its own it takes those of
its shape.  Local offsets count from the segment's first light.
-/

namespace Eaves

/-- A contiguous piece of the strip. -/
structure Segment where
  id : String
  name : String
  pixelCount : Nat
  startPixel : Nat := 0
  shape : Shape := .run
  direction : String := "left_to_right"
  anchors : List Nat := []
  anchorWidth : Positive := 2
  sortOrder : Int := 0
  level : Positive := 1
  side : Option Side := none
  prominent : Bool := false
  connected : Bool := true
  deriving DecidableEq, Repr

namespace Segment

/-- The last light of the segment; one before the first when it is empty. -/
def endPixel (segment : Segment) : Int :=
  (segment.startPixel : Int) + segment.pixelCount - 1

/-- The anchors of the segment's shape: both ends of a run or column, the middle of a corner
or peak. -/
def defaultAnchors (segment : Segment) : List Nat :=
  let last := segment.pixelCount - segment.anchorWidth.val
  if segment.pixelCount = 0 then []
  else
    match segment.shape with
    | .run | .column => if last = 0 then [0] else [0, last]
    | .corner | .peak => [last / 2]
    | .connector => []

/-- The anchors in force: the segment's own ones that lie inside it, or those of its shape
when it has none of its own. -/
def effectiveAnchors (segment : Segment) : List Nat :=
  if segment.anchors.isEmpty then segment.defaultAnchors
  else segment.anchors.filter fun anchor => decide (anchor < segment.pixelCount)

/-- The anchors in force, counted along the whole strip. -/
def globalAnchors (segment : Segment) : List Nat :=
  segment.effectiveAnchors.map (segment.startPixel + ·)

/-- Whether a local offset lies in the width of some anchor. -/
def isAnchor (segment : Segment) (offset : Int) : Bool :=
  segment.effectiveAnchors.any fun anchor =>
    decide ((anchor : Int) ≤ offset ∧ offset < anchor + segment.anchorWidth.val)

/-- Whether a light of the strip belongs to the segment. -/
def contains (segment : Segment) (pixel : Int) : Bool :=
  decide ((segment.startPixel : Int) ≤ pixel ∧ pixel ≤ segment.endPixel)

end Segment

/-- A number put into a strictly increasing list, unless it is there. -/
def insertIncreasing (n : Nat) : List Nat → List Nat
  | [] => [n]
  | m :: rest =>
      if n < m then n :: m :: rest
      else if n = m then m :: rest
      else m :: insertIncreasing n rest

/-- The members of a list, each once, in increasing order. -/
def increasing (ns : List Nat) : List Nat :=
  ns.foldr insertIncreasing []

end Eaves
