import Eaves.Pixels.Compose
import Eaves.Proofs.Pixels.Moved
import Eaves.Proofs.Pixels.Offsets
import Eaves.Proofs.Zone.Apart

/-!
# Painting range by range

A layer is painted over one range of its zone after the other.  Where the ranges do
not overlap, no range touches what the others painted, so what a light shows in the
end was decided over its own range.

No spacing rule and no pattern lights anything outside the range that it is painted
over, however it counts the lights: a cycle ends with the range, the places of spread
lights are never left of it and are left out right of it, and so are the widths of
anchors.  So a layer stays inside the ranges of its zone, and all of these lie on the
strip.

The lights of a canvas that show a colour are listed once each, which makes them
countable.
-/

namespace Eaves

open Number (Binary64)

namespace Canvas

/-! ## Lights that show a colour -/

/-- The lights that show a colour, in order. -/
def showing (canvas : Canvas) (color : Color) : List Nat :=
  (canvas.toList.filter fun light => decide (light.2 = color)).map Prod.fst

theorem mem_showing_iff {canvas : Canvas} {color : Color} {pixel : Nat} :
    pixel ∈ canvas.showing color ↔ canvas[pixel]? = some color := by
  rw [← Std.TreeMap.mem_toList_iff_getElem?_eq_some, showing, List.mem_map]
  simp only [List.mem_filter, decide_eq_true_iff]
  constructor
  · rintro ⟨⟨_, _⟩, ⟨mem, rfl⟩, rfl⟩
    exact mem
  · intro mem
    exact ⟨(pixel, color), ⟨mem, rfl⟩, rfl⟩

theorem pairwise_showing (canvas : Canvas) (color : Color) :
    (canvas.showing color).Pairwise (· < ·) := by
  rw [showing, List.pairwise_map]
  exact canvas.pairwise_toList.filter _

theorem nodup_showing (canvas : Canvas) (color : Color) : (canvas.showing color).Nodup :=
  (pairwise_showing canvas color).imp Nat.ne_of_lt

/-! ## One range after another -/

/-- Painting over a range decided which of its lights show a colour, as far as they showed nothing
before, and left the lights outside it alone. -/
structure Decides (canvas painted : Canvas) (range : PixelRange) (color : Color)
    (lights : Nat → Prop) : Prop where
  inside : ∀ pixel, range.Contains pixel → canvas[pixel]? = none →
    (painted[pixel]? = some color ↔ lights pixel)
  outside : ∀ pixel, ¬range.Contains pixel → painted[pixel]? = canvas[pixel]?

/-- Filling a range and then painting some of its lights in another colour decides that these, and
no others, show that colour. -/
theorem Repaints.decides {canvas painted : Canvas} {range : PixelRange} {color : Color}
    {fill : Option Color} {lights : Nat → Prop}
    (repaints : (canvas.paintRun? range.first range.length fill).Repaints color lights painted)
    (inRange : ∀ pixel, lights pixel → range.Contains pixel) (otherFill : fill ≠ some color) :
    canvas.Decides painted range color lights := by
  constructor
  · intro pixel contained dark
    by_cases lit : lights pixel
    · exact iff_of_true ((repaints pixel).1 lit) lit
    · rw [(repaints pixel).2 lit, getElem?_paintRun?,
        if_pos (range.contains_iff_lt.mpr contained), dark, Option.or_none]
      exact iff_of_false otherFill lit
  · intro pixel outside
    rw [(repaints pixel).2 fun lit => outside (inRange pixel lit), getElem?_paintRun?,
      if_neg fun contained => outside (range.contains_iff_lt.mp contained)]

/-- Painted one after another over ranges that do not overlap, each range decides which of its
lights show a colour. -/
theorem foldlM_decides {paint : Canvas → PixelRange → Outcome Canvas} {color : Color}
    {lights : PixelRange → Nat → Prop} {ranges : List PixelRange}
    (apart : ranges.Pairwise fun a b => a.overlaps b = false)
    (steps : ∀ (canvas : Canvas) range, range ∈ ranges → ∃ painted,
      paint canvas range = .ok painted ∧ canvas.Decides painted range color (lights range))
    {canvas : Canvas}
    (dark : ∀ range ∈ ranges, ∀ pixel, range.Contains pixel → canvas[pixel]? = none) :
    ∃ painted, ranges.foldlM paint canvas = .ok painted ∧
      (∀ pixel, (∀ range ∈ ranges, ¬range.Contains pixel) → painted[pixel]? = canvas[pixel]?) ∧
      ∀ range ∈ ranges, ∀ pixel, range.Contains pixel →
        (painted[pixel]? = some color ↔ lights range pixel) := by
  induction ranges generalizing canvas with
  | nil => exact ⟨canvas, rfl, fun _ _ => rfl, by simp⟩
  | cons first rest ih =>
      rw [List.pairwise_cons] at apart
      obtain ⟨firstApart, restApart⟩ := apart
      obtain ⟨next, stepOk, decides⟩ := steps canvas first List.mem_cons_self
      have misses : ∀ range ∈ rest, ∀ pixel, range.Contains pixel → ¬first.Contains pixel := by
        intro range mem pixel inRange inFirst
        have overlap := (PixelRange.overlaps_iff first range).mpr ⟨pixel, inFirst, inRange⟩
        rw [firstApart range mem] at overlap
        cases overlap
      have stillDark : ∀ range ∈ rest, ∀ pixel, range.Contains pixel → next[pixel]? = none := by
        intro range mem pixel inRange
        rw [decides.outside pixel (misses range mem pixel inRange)]
        exact dark range (List.mem_cons_of_mem _ mem) pixel inRange
      obtain ⟨painted, restOk, others, decided⟩ := ih restApart
        (fun work range mem => steps work range (List.mem_cons_of_mem _ mem)) stillDark
      refine ⟨painted, ?_, ?_, ?_⟩
      · rw [List.foldlM_cons, stepOk, Outcome.ok_bind, restOk]
      · intro pixel outside
        rw [others pixel fun range mem => outside range (List.mem_cons_of_mem _ mem),
          decides.outside pixel (outside first List.mem_cons_self)]
      · intro range mem pixel inRange
        rcases List.mem_cons.mp mem with rfl | later
        · rw [others pixel fun other otherMem inOther =>
            misses other otherMem pixel inOther inRange]
          exact decides.inside pixel inRange (dark range List.mem_cons_self pixel inRange)
        · exact decided range later pixel inRange

end Canvas

/-! ## A range at a time -/

section Range

variable {canvas painted : Canvas} {range : PixelRange} {coloring : Coloring}

/-- Filling a range changes none but its lights. -/
theorem PixelRange.paintRun?_changesOnly (range : PixelRange) (canvas : Canvas)
    (color : Option Color) :
    canvas.ChangesOnly range.Contains (canvas.paintRun? range.first range.length color) := by
  apply Canvas.ChangesOnly.paintRun?
  intro pixel fromFirst beforeEnd
  exact range.contains_iff_lt.mp ⟨fromFirst, beforeEnd⟩

/-- Painting a range in one colour lights it. -/
theorem PixelRange.paintRun_fills (range : PixelRange) (canvas : Canvas) (color : Color) :
    canvas.Fills range.Contains (canvas.paintRun range.first range.length color) := by
  apply (Canvas.Fills.of_repaints (.paintRun canvas range.first range.length color)).congr
  intro pixel
  exact range.contains_iff_lt

/-- A spacing rule changes none but the lights of its range. -/
theorem Spacing.paint_changesOnly {rule : Spacing} {roofline : Option Roofline}
    (paints : rule.paint Binary64 canvas range coloring roofline = .ok painted) :
    canvas.ChangesOnly range.Contains painted := by
  have filled := range.paintRun?_changesOnly canvas coloring.fill
  unfold paint at paints
  cases rule with
  | pattern on off startLit =>
      simp only at paints
      split at paints
      · cases paints
        exact .refl canvas _
      · cases paints
        apply paintCycle_changesOnly
        intro pixel fromFirst beforeEnd
        exact range.contains_iff_lt.mp ⟨fromFirst, beforeEnd⟩
  | equallySpaced count =>
      simp only at paints
      split at paints
      · cases paints
        exact .refl canvas _
      · rcases Outcome.map_eq_ok_iff.mp paints with ⟨offsets, computed, rfl⟩
        apply filled.trans
        apply paintOffsets_changesOnly
        intro offset mem
        exact evenOffsets_nonneg (Nat.succ_pos _) (by omega) computed mem
  | everyNth interval =>
      simp only at paints
      split at paints
      · cases paints
        exact .refl canvas _
      · cases paints
        apply filled.trans
        apply Canvas.ChangesOnly.foldl
        intro work pixel mem
        exact .insert work ((mem_everyNthPixels_iff (by omega)).mp mem).1 coloring.lit
  | anchorsOnly =>
      cases paints
      apply filled.trans
      apply Canvas.ChangesOnly.foldl
      intro work segment _
      exact paintAnchors_changesOnly
  | continuous =>
      cases paints
      exact (range.paintRun_fills canvas coloring.lit).changesOnly

/-- A pattern can be painted over any range, and lights all of it and nothing else. -/
theorem Pattern.exists_paint (pattern : Pattern) (canvas : Canvas) (range : PixelRange)
    (coloring : Coloring) : ∃ painted,
      pattern.paint Binary64 canvas range coloring = .ok painted ∧
        canvas.Fills range.Contains painted := by
  have plain := range.paintRun_fills canvas coloring.primary
  unfold paint
  cases pattern.layout with
  | alternating => exact exists_paintEach (fun _ _ => ⟨_, rfl⟩) canvas
  | gradient =>
      simp only
      split
      · split
        · exact ⟨_, rfl, plain⟩
        · apply exists_paintEach
          intro offset inside
          obtain ⟨position, isPosition⟩ := position_succeeds inside
          obtain ⟨color, isColor⟩ := colorAt_succeeds _ _ _ position
          refine ⟨color, ?_⟩
          change (do
            let position ← liftNumber (Binary64.quotient offset range.length)
            colorAt _ _ _ position) = Except.ok color
          rw [isPosition, Outcome.liftNumber_ok, Outcome.ok_bind]
          exact isColor
      · exact ⟨_, rfl, plain⟩
  | solid => exact ⟨_, rfl, plain⟩
  | wave => exact ⟨_, rfl, plain⟩
  | twinkle => exact ⟨_, rfl, plain⟩

end Range

/-! ## All ranges of a layer -/

namespace Layer

variable {layer : Layer} {roofline : Roofline}

/-- A layer lights none but the lights that its zone addresses. -/
theorem paint_changesOnly {canvas : Canvas} (paints : layer.paint roofline = .ok canvas) :
    Canvas.blank.ChangesOnly (layer.zone.Addresses roofline) canvas := by
  apply Outcome.foldlM_keeps (fun work =>
    Canvas.blank.ChangesOnly (layer.zone.Addresses roofline) work) _ (.refl _ _) paints
  intro work range next mem before step
  have inRange : work.ChangesOnly range.Contains next := by
    split at step
    · exact Spacing.paint_changesOnly step
    · obtain ⟨painted, paints, fills⟩ :=
        layer.pattern.exists_paint work range layer.coloring
      rw [paints] at step
      cases step
      exact fills.changesOnly
  apply before.trans
  apply inRange.mono
  intro pixel inside
  exact ⟨range, mem, inside⟩

/-- A layer lights nothing beyond a roofline that is laid out. -/
theorem paint_fitsOn (laidOut : roofline.LaidOut) {canvas : Canvas}
    (paints : layer.paint roofline = .ok canvas) : canvas.FitsOn roofline.total := by
  apply Canvas.blank_fitsOn.of_changesOnly (paint_changesOnly paints)
  rintro pixel ⟨range, mem, -, beforeEnd⟩
  exact Nat.lt_of_le_of_lt beforeEnd (Zone.last_lt_total laidOut mem)

/-- A layer without a spacing rule can be painted, and lights every light that its zone
addresses. -/
theorem exists_paint_of_patterned (patterned : layer.coloring.spacing = none)
    (roofline : Roofline) : ∃ canvas, layer.paint roofline = .ok canvas ∧
      Canvas.blank.Fills (layer.zone.Addresses roofline) canvas := by
  unfold paint
  rw [patterned]
  apply Canvas.Fills.foldlM
  intro work range _
  exact layer.pattern.exists_paint work range layer.coloring

/-- A layer can be painted where it spreads far fewer lights, over far fewer lights, than the
greatest finite number. -/
theorem paint_succeeds
    (below : ∀ rule, layer.coloring.spacing = some rule → rule.SpreadsBelow (2 ^ 120))
    (laidOut : roofline.LaidOut) (short : roofline.total < 2 ^ 120) :
    ∃ canvas, layer.paint roofline = .ok canvas := by
  cases spaced : layer.coloring.spacing with
  | none =>
      obtain ⟨canvas, paints, -⟩ := exists_paint_of_patterned spaced roofline
      exact ⟨canvas, paints⟩
  | some rule =>
      unfold paint
      rw [spaced]
      have steps : ∀ (work : Canvas) (range : PixelRange), range ∈ layer.zone.ranges roofline →
          True → ∃ painted, rule.paint Binary64 work range layer.coloring (some roofline) =
            .ok painted ∧ True := by
        intro work range mem _
        have inside := Zone.last_lt_total laidOut mem
        have rangeShort : range.length < 2 ^ 120 := by
          unfold PixelRange.length
          omega
        obtain ⟨painted, paints⟩ := Spacing.paint_succeeds (below rule spaced) work rangeShort
          layer.coloring (some roofline)
        exact ⟨painted, paints, trivial⟩
      obtain ⟨canvas, paints, -⟩ := Outcome.foldlM_succeeds (fun _ => True) steps trivial
      exact ⟨canvas, paints⟩

/-- A layer stays inside its zone.  It lights none but the lights that its zone addresses, and all
of them where it has no spacing rule, so cutting it at the end of the strip drops nothing.  The
ranges of the zone lie on the strip, and ascend one behind the other unless the zone is given by
ranges. -/
theorem paint_stays_in_zone (laidOut : roofline.LaidOut) (layer : Layer) :
    (∀ canvas, layer.paint roofline = .ok canvas →
      (∀ pixel color, canvas[pixel]? = some color → layer.zone.Addresses roofline pixel) ∧
      (canvas.below roofline.total).toList = canvas.toList) ∧
    (layer.coloring.spacing = none → ∃ canvas, layer.paint roofline = .ok canvas ∧
      ∀ pixel, layer.zone.Addresses roofline pixel → ∃ color, canvas[pixel]? = some color) ∧
    ((∀ rule, layer.coloring.spacing = some rule → rule.SpreadsBelow (2 ^ 120)) →
      roofline.total < 2 ^ 120 → ∃ canvas, layer.paint roofline = .ok canvas) ∧
    (∀ range ∈ layer.zone.ranges roofline,
      range.first ≤ range.last ∧ range.last < roofline.total) ∧
    ((∀ spans, layer.zone ≠ .custom spans) →
      (layer.zone.ranges roofline).Pairwise fun a b => a.last < b.first) := by
  refine ⟨?inside, ?whole, fun below => paint_succeeds below laidOut, ?onStrip,
    fun named => Zone.ascending_ranges named laidOut⟩
  case inside =>
    intro canvas paints
    refine ⟨?_, (paint_fitsOn laidOut paints).toList_below⟩
    intro pixel color lit
    by_contra outside
    rw [paint_changesOnly paints pixel outside, Canvas.getElem?_blank] at lit
    cases lit
  case whole =>
    intro patterned
    obtain ⟨canvas, paints, fills⟩ := exists_paint_of_patterned patterned roofline
    exact ⟨canvas, paints, fills.lit⟩
  case onStrip =>
    intro range mem
    exact ⟨range.ordered, Zone.last_lt_total laidOut mem⟩

/-- A porch of four lights and a gable of three. -/
def porchAndGable : Roofline :=
  { segments := [{ id := "porch", name := "Porch", pixelCount := 4 },
      { id := "gable", name := "Gable", pixelCount := 3, startPixel := 4, sortOrder := 1 }] }

/-- The gable in red and black by turns. -/
def turnsOnGable : Layer :=
  { id := "a", name := "turns", zone := .segments (.singleton "gable"),
    pattern := { layout := .alternating }, coloring := { primary := ⟨255, 0, 0, 0⟩ } }

/-- The turns light all of the gable, its black lights included, and nothing of the porch. -/
theorem paint_stays_in_zone_turnsOnGable :
    porchAndGable.LaidOut ∧ ∃ canvas, turnsOnGable.paint porchAndGable = .ok canvas ∧
      (∀ color, canvas[3]? ≠ some color) ∧ (∃ color, canvas[5]? = some color) := by
  have laidOut : porchAndGable.LaidOut := by decide
  obtain ⟨inside, whole, -, onStrip, -⟩ := paint_stays_in_zone laidOut turnsOnGable
  have ranges : turnsOnGable.zone.ranges porchAndGable = [⟨4, 6, by decide⟩] := by decide
  obtain ⟨canvas, paints, lit⟩ := whole rfl
  refine ⟨laidOut, canvas, paints, ?_, lit 5 ?_⟩
  · intro color onPorch
    obtain ⟨range, isRange, fromFirst, -⟩ := (inside canvas paints).1 3 color onPorch
    rw [ranges, List.mem_singleton] at isRange
    rw [isRange] at fromFirst
    simp at fromFirst
  · exact ⟨⟨4, 6, by decide⟩, by rw [ranges]; exact List.mem_singleton_self _, by decide⟩

end Layer

end Eaves
