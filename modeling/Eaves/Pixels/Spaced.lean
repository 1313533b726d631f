import Eaves.Design.Layer
import Eaves.Number.Scalar
import Eaves.Pixels.Canvas
import Eaves.Roofline.Basic

/-!
# Painting spacing rules

Within a range of lights a spacing rule lights some of them in the accent colour,
or the primary where there is none, and the others in the fill colour where there
is one.  The formula for equal spacing is written over any number system; the
64-bit numbers and the exact rationals read it in their own way.
-/

namespace Eaves

open Number (Scalar)

namespace Coloring

/-- The colour of lit lights. -/
def lit (coloring : Coloring) : Color :=
  coloring.accent.getD coloring.primary

end Coloring

namespace Spacing

/-- The length of a lit or a dark stretch of a cycle. -/
def stretch (on off : Nat) (isLit : Bool) : Nat :=
  if isLit then on else off

/-- Paints one stretch of a cycle: lit, or dark where there is a colour for dark lights. -/
def paintStretch (canvas : Canvas) (lit : Color) (dark : Option Color) (isLit : Bool)
    (first count : Nat) : Canvas :=
  if isLit then canvas.paintRun first count lit else canvas.paintRun? first count dark

/-- Paints a cycle of `on` lit and `off` dark lights, from `first` on, over the lights that
remain; a stretch without lights ends the painting. -/
def paintCycle (lit : Color) (dark : Option Color) (on off : Nat) :
    (canvas : Canvas) → (isLit : Bool) → (first remaining : Nat) → Canvas
  | canvas, isLit, first, remaining =>
      let count := stretch on off isLit
      if done : remaining = 0 ∨ count = 0 then canvas
      else
        have : 0 < remaining ∧ 0 < stretch on off isLit := by omega
        paintCycle lit dark on off
          (paintStretch canvas lit dark isLit first (min count remaining))
          (!isLit || off == 0) (first + count) (remaining - count)
termination_by _ _ _ remaining => remaining
decreasing_by omega

/-- The offset of light number `index` among `count` spread evenly over `length` lights: the
step between neighbours times the index, rounded to the nearest with a half going up. -/
def evenOffset (α : Type) [Scalar α] (length count : Nat) (index : Nat) : Outcome Int :=
  liftNumber do
    let step ← Scalar.quotient (α := α) ((length : Int) - 1) ((count : Int) - 1)
    let times ← Scalar.ofInt (α := α) index
    Scalar.roundHalfUp (Scalar.mul step times)

/-- The offsets of `count` lights spread evenly over `length` lights; a single one stands in
the middle. -/
def evenOffsets (α : Type) [Scalar α] (length count : Nat) : Outcome (List Int) :=
  if count = 1 then .ok [((length / 2 : Nat) : Int)]
  else (List.range count).mapM (evenOffset α length count)

/-- Lights the offsets that stay inside a range. -/
def paintOffsets (canvas : Canvas) (range : PixelRange) (color : Color) (offsets : List Int) :
    Canvas :=
  offsets.foldl
    (fun canvas offset =>
      let pixel := ((range.first : Int) + offset).toNat
      if pixel ≤ range.last then canvas.insert pixel color else canvas)
    canvas

/-- The first light of every interval of a range. -/
def everyNthPixels (range : PixelRange) (interval : Nat) : List Nat :=
  (List.range ((range.length + interval - 1) / interval)).map fun i => range.first + i * interval

/-- Lights the widths of a segment's anchors that start inside a range, as far as both
reach. -/
def paintAnchors (canvas : Canvas) (range : PixelRange) (color : Color) (segment : Segment) :
    Canvas :=
  if (range.last : Int) < segment.startPixel ∨ segment.endPixel < range.first then canvas
  else
    segment.globalAnchors.foldl
      (fun canvas anchor =>
        if range.first ≤ anchor ∧ anchor ≤ range.last then
          let last : Int :=
            min (min ((anchor : Int) + segment.anchorWidth.val - 1) segment.endPixel) range.last
          canvas.paintRun anchor (last - anchor + 1).toNat color
        else canvas)
      canvas

/-- Paints a rule over a range of lights.  Anchors are those of the roofline; without one there
are none. -/
def paint (α : Type) [Scalar α] (rule : Spacing) (canvas : Canvas) (range : PixelRange)
    (coloring : Coloring) (roofline : Option Roofline) : Outcome Canvas :=
  let filled := canvas.paintRun? range.first range.length coloring.fill
  match rule with
  | .pattern on off startLit =>
      if on ≤ 0 ∨ off < 0 then .ok canvas
      else
        .ok (paintCycle coloring.lit coloring.fill on.toNat off.toNat canvas
          (startLit || off == 0) range.first range.length)
  | .equallySpaced count =>
      if count ≤ 0 then .ok canvas
      else
        (evenOffsets α range.length count.toNat).map
          (paintOffsets filled range coloring.lit)
  | .everyNth interval =>
      if interval ≤ 0 then .ok canvas
      else
        .ok ((everyNthPixels range interval.toNat).foldl
          (fun canvas pixel => canvas.insert pixel coloring.lit) filled)
  | .anchorsOnly =>
      let segments := (roofline.map Roofline.segments).getD []
      .ok (segments.foldl (fun canvas segment => paintAnchors canvas range coloring.lit segment)
        filled)
  | .continuous => .ok (canvas.paintRun range.first range.length coloring.lit)

end Spacing

end Eaves
