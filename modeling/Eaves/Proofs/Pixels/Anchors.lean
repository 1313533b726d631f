import Eaves.Pixels.Compose
import Eaves.Proofs.Pixels.Templates
import Eaves.Proofs.Zone.Apart

/-!
# The lights of anchors

A layer that lights only anchors, the look-up of a light's segment, and the template
that lights only anchors cut an anchor's width off in three ways: at the end of the
range, at the end of the segment the light is found in, and at the end of the segment
the anchor is taken from.  They come to the same lights, since every anchor in force
lies inside its segment and no range of a zone cuts through a segment, unless the zone
is given by ranges.
-/

namespace Eaves

namespace Spacing

/-- A light of a range follows the start of an anchor that lies in the range, as far as the anchor's
width, its segment and the range reach. -/
def LightsAnchor (range : PixelRange) (segment : Segment) (pixel : Nat) : Prop :=
  ∃ anchor ∈ segment.globalAnchors, range.first ≤ anchor ∧ anchor ≤ pixel ∧
    pixel < anchor + segment.anchorWidth.val ∧ pixel < segment.startPixel + segment.pixelCount ∧
    pixel ≤ range.last

/-- Painting the anchors of a segment over a range lights the lights that follow the start of one
of them. -/
theorem repaints_paintAnchors (canvas : Canvas) (range : PixelRange) (color : Color)
    (segment : Segment) :
    canvas.Repaints color (LightsAnchor range segment)
      (paintAnchors canvas range color segment) := by
  unfold paintAnchors
  split
  · rename_i apart
    apply (Canvas.Repaints.refl canvas color).congr
    intro pixel
    constructor
    · exact False.elim
    · rintro ⟨anchor, mem, fromFirst, fromAnchor, within, inSegment, inRange⟩
      have bounds := Segment.globalAnchors_bounds mem
      unfold Segment.endPixel at apart
      omega
  · have steps : ∀ (work : Canvas) (anchor : Nat), work.Repaints color
        (fun pixel => range.first ≤ anchor ∧ anchor ≤ pixel ∧
          pixel < anchor + segment.anchorWidth.val ∧
          pixel < segment.startPixel + segment.pixelCount ∧ pixel ≤ range.last)
        (if range.first ≤ anchor ∧ anchor ≤ range.last then
          let last : Int :=
            min (min ((anchor : Int) + segment.anchorWidth.val - 1) segment.endPixel) range.last
          work.paintRun anchor (last - anchor + 1).toNat color
        else work) := by
      intro work anchor
      split
      · apply (Canvas.Repaints.paintRun work anchor _ color).congr
        intro pixel
        unfold Segment.endPixel
        omega
      · apply (Canvas.Repaints.refl work color).congr
        intro pixel
        rw [false_iff]
        omega
    exact Canvas.Repaints.foldl steps segment.globalAnchors canvas

/-- Painting anchors over a range, without a colour for dark lights, lights those of every segment
of the roofline. -/
theorem exists_paint_anchorsOnly {α : Type} [Number.Scalar α] (canvas : Canvas)
    (range : PixelRange) {coloring : Coloring} (noFill : coloring.fill = none)
    (roofline : Roofline) :
    ∃ painted, Spacing.anchorsOnly.paint α canvas range coloring (some roofline) = .ok painted ∧
      canvas.Repaints coloring.lit
        (fun pixel => ∃ segment ∈ roofline.segments, LightsAnchor range segment pixel) painted := by
  refine ⟨_, rfl, ?_⟩
  rw [noFill]
  exact Canvas.Repaints.foldl
    (fun work segment => repaints_paintAnchors work range coloring.lit segment)
    roofline.segments canvas

end Spacing

namespace Layer

/-- A layer that lights only anchors and leaves the others dark lights, in each range of its zone,
the anchors of every segment. -/
theorem exists_paint_anchorsOnly {layer : Layer} (rule : layer.coloring.spacing = some .anchorsOnly)
    (noFill : layer.coloring.fill = none) (roofline : Roofline) :
    ∃ canvas, layer.paint roofline = .ok canvas ∧
      Canvas.blank.Repaints layer.coloring.lit
        (fun pixel => ∃ range ∈ layer.zone.ranges roofline, ∃ segment ∈ roofline.segments,
          Spacing.LightsAnchor range segment pixel) canvas := by
  unfold paint
  rw [rule]
  exact Canvas.Repaints.foldlM
    (fun work range => Spacing.exists_paint_anchorsOnly work range noFill roofline)
    (layer.zone.ranges roofline) Canvas.blank

end Layer

/-- In the ranges of a zone that is not given by ranges, the anchors that are painted light the
lights that are found to be those of an anchor. -/
theorem Zone.lightsAnchor_iff {zone : Zone} (named : ∀ ranges, zone ≠ .custom ranges)
    {roofline : Roofline} (laidOut : roofline.LaidOut) {pixel : Nat} :
    (∃ range ∈ zone.ranges roofline, ∃ segment ∈ roofline.segments,
        Spacing.LightsAnchor range segment pixel) ↔
      (∃ range ∈ zone.ranges roofline, range.Contains pixel) ∧
        roofline.isAnchor pixel = true := by
  rw [laidOut.isAnchor_iff]
  constructor
  · rintro ⟨range, isRange, segment, mem, anchor, isOne, fromFirst, fromAnchor, within, inSegment,
      inRange⟩
    exact ⟨⟨range, isRange, Nat.le_trans fromFirst fromAnchor, inRange⟩, segment, mem, anchor,
      isOne, fromAnchor, within, inSegment⟩
  · rintro ⟨⟨range, isRange, inRange⟩, segment, mem, isAnchor⟩
    have first := first_le_startPixel named laidOut isRange mem inRange isAnchor.contains
    rcases isAnchor with ⟨anchor, isOne, fromAnchor, within, inSegment⟩
    have bounds := Segment.globalAnchors_bounds isOne
    exact ⟨range, isRange, segment, mem, anchor, isOne, by omega, fromAnchor, within, inSegment,
      inRange.2⟩

/-! ## The template -/

/-- The template that lights only anchors covers the lights of the anchors of every segment. -/
theorem Template.groups_anchorsOnly_spec {template : Template}
    (onlyAnchors : template.kind = .anchorsOnly) (roofline : Roofline) :
    ∃ groups, template.groups roofline = .ok groups ∧
      ∀ pixel, (∃ group ∈ groups, pixel ∈ group.pixels) ↔
        ∃ segment ∈ roofline.segments, segment.IsAnchorLight pixel := by
  cases made : downlighting roofline template.anchorColor template.anchorColor 0 true with
  | error failure =>
      rcases failure_of_downlighting made with ⟨segment, -, inSegment⟩
      cases inSegment
  | ok parts =>
      refine ⟨Group.merge parts, ?_, ?_⟩
      · rw [groups, unmerged, onlyAnchors]
        simp only [made]
        rfl
      · intro pixel
        rw [Group.exists_mem_pixels_iff]
        simp only [(shows_downlighting made).merge pixel _]
        simp [not_isSpacedLight_zero]

/-! ## Three descriptions of one set of lights -/

/-- The lights of a roofline are those of the one range of the whole zone. -/
theorem Zone.exists_range_all_iff {roofline : Roofline} {pixel : Nat} :
    (∃ range ∈ Zone.all.ranges roofline, range.Contains pixel) ↔ pixel < roofline.total := by
  unfold Zone.ranges
  simp only
  split
  · rename_i dark
    simp [dark]
  · simp only [List.mem_singleton, exists_eq_left, PixelRange.Contains]
    omega

/-- A layer that lights only anchors, without a colour for dark lights, on a zone that is not given
by ranges, lights exactly those lights of the zone's ranges that are found to be an anchor's.  On
the whole zone these are the lights that the groups of the template for anchors cover. -/
theorem anchors_agree {roofline : Roofline} (laidOut : roofline.LaidOut) {layer : Layer}
    (named : ∀ ranges, layer.zone ≠ .custom ranges)
    (rule : layer.coloring.spacing = some .anchorsOnly) (noFill : layer.coloring.fill = none) :
    ∃ canvas, layer.paint roofline = .ok canvas ∧
      (∀ (pixel : Nat) (color : Color), canvas[pixel]? = some color ↔
        color = layer.coloring.lit ∧
          (∃ range ∈ layer.zone.ranges roofline, range.Contains pixel) ∧
            roofline.isAnchor pixel = true) ∧
      (layer.zone = .all → ∀ template : Template, template.kind = .anchorsOnly →
        ∃ groups, template.groups roofline = .ok groups ∧
          ∀ pixel, (∃ group ∈ groups, pixel ∈ group.pixels) ↔
            ∃ color, canvas[pixel]? = some color) := by
  obtain ⟨canvas, paints, repaints⟩ := Layer.exists_paint_anchorsOnly rule noFill roofline
  have found := repaints.congr fun _ => Zone.lightsAnchor_iff named laidOut
  refine ⟨canvas, paints, fun _ _ => found.getElem?_eq_some_iff, ?_⟩
  intro whole template onlyAnchors
  obtain ⟨groups, isGroups, covers⟩ := Template.groups_anchorsOnly_spec onlyAnchors roofline
  refine ⟨groups, isGroups, ?_⟩
  intro pixel
  have onStrip : roofline.isAnchor pixel = true → pixel < roofline.total := by
    intro isAnchor
    rcases laidOut.isAnchor_iff.mp isAnchor with ⟨segment, mem, anchor, -, -, -, inSegment⟩
    exact Nat.lt_of_lt_of_le inSegment (laidOut.end_le_total mem)
  rw [covers, ← laidOut.isAnchor_iff]
  simp only [found.getElem?_eq_some_iff, whole, Zone.exists_range_all_iff, exists_eq_left]
  exact ⟨fun isAnchor => ⟨onStrip isAnchor, isAnchor⟩, And.right⟩

/-- A run of six lights with anchors that overlap and one that lies outside, a corner without
lights, and a peak of three lights whose anchor is wider than it. -/
def runCornerPeak : Roofline :=
  { segments := [
      { id := "run", name := "Run", pixelCount := 6, anchors := [1, 2, 5, 9] },
      { id := "corner", name := "Corner", pixelCount := 0, startPixel := 6, sortOrder := 1,
        shape := .corner },
      { id := "peak", name := "Peak", pixelCount := 3, startPixel := 6, sortOrder := 2,
        shape := .peak, anchorWidth := 5 }] }

/-- Every anchor of the run and the peak. -/
def anchorLayer : Layer :=
  { id := "a", name := "anchors", coloring := { spacing := some .anchorsOnly } }

/-- The anchors light the second to the fourth light, the sixth, and the whole peak; the first and
the fifth light stay dark. -/
theorem anchors_agree_runCornerPeak :
    runCornerPeak.LaidOut ∧ ∃ canvas, anchorLayer.paint runCornerPeak = .ok canvas ∧
      canvas[(3 : Nat)]? = some .pureWhite ∧ canvas[(8 : Nat)]? = some .pureWhite ∧
      canvas[(4 : Nat)]? ≠ some .pureWhite ∧
      ∃ groups, ({ kind := .anchorsOnly } : Template).groups runCornerPeak = .ok groups ∧
        ∃ group ∈ groups, 8 ∈ group.pixels := by
  have laidOut : runCornerPeak.LaidOut := by decide
  have named : ∀ ranges, anchorLayer.zone ≠ .custom ranges := by
    intro ranges
    simp [anchorLayer]
  obtain ⟨canvas, paints, shown, template⟩ := anchors_agree laidOut named rfl rfl
  obtain ⟨groups, isGroups, covers⟩ := template rfl { kind := .anchorsOnly } rfl
  have last : canvas[(8 : Nat)]? = some .pureWhite :=
    (shown 8 _).mpr ⟨rfl, by decide, by decide⟩
  refine ⟨laidOut, canvas, paints, (shown 3 _).mpr ⟨rfl, by decide, by decide⟩, last, ?_, groups,
    isGroups, (covers 8).mpr ⟨_, last⟩⟩
  intro lit
  exact absurd ((shown 4 _).mp lit).2.2 (by decide)

end Eaves
