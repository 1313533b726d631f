import Eaves.Proofs.Number.Finite
import Eaves.Proofs.Outcome
import Eaves.Proofs.Roofline.Edits
import Eaves.Zone.Resolve
import Mathlib.Algebra.Order.BigOperators.Group.List

/-!
# The ranges of a zone

On a roofline that is laid out, the ranges of every zone lie on the strip.

The lights of a zone can be counted on every roofline of fewer than `2 ^ 53` lights,
and there are not many more of them than that: a zone names a segment once, a share
of the strip is not more than the strip, and only plain ranges can count a light
several times, as often as there are ranges.
-/

namespace Eaves

open Number (Binary64)
open Outcome

namespace Zone

/-! ## Ranges on the strip -/

/-- A zone covers segments of the roofline, in their order. -/
theorem segmentsOn_sublist (zone : Zone) (roofline : Roofline) :
    (zone.segmentsOn roofline).Sublist roofline.segments := by
  cases zone with
  | all => exact List.nil_sublist _
  | custom ranges => exact List.nil_sublist _
  | segments ids => exact List.filter_sublist
  | features named => exact List.filter_sublist
  | side face => exact List.filter_sublist
  | level storey => exact List.filter_sublist

theorem range?_eq_some_iff {segment : Segment} {range : PixelRange} :
    segment.range? = some range ↔
      0 < segment.pixelCount ∧ range.first = segment.startPixel ∧
        range.last = segment.startPixel + (segment.pixelCount - 1) := by
  unfold Segment.range?
  split
  · simp only [reduceCtorEq, false_iff]
    omega
  · simp only [Option.some.injEq]
    constructor
    · rintro rfl
      exact ⟨by omega, rfl, rfl⟩
    · rintro ⟨-, first, last⟩
      exact (PixelRange.eq_of_ends first last).symm

theorem last_lt_of_clip? {range clipped : PixelRange} {total : Nat}
    (clips : range.clip? total = some clipped) : clipped.last < total := by
  unfold PixelRange.clip? at clips
  split at clips
  · cases clips
    simp only
    omega
  · cases clips

/-- The range of a segment of a laid out roofline ends on the strip. -/
theorem last_lt_total_of_range? {roofline : Roofline} (laidOut : roofline.LaidOut)
    {segment : Segment} (mem : segment ∈ roofline.segments) {range : PixelRange}
    (isRange : segment.range? = some range) : range.last < roofline.total := by
  rcases range?_eq_some_iff.mp isRange with ⟨lit, -, last⟩
  have := laidOut.end_le_total mem
  omega

/-- The ranges of a zone end on the strip. -/
theorem last_lt_total {zone : Zone} {roofline : Roofline} (laidOut : roofline.LaidOut)
    {range : PixelRange} (mem : range ∈ zone.ranges roofline) : range.last < roofline.total := by
  unfold ranges at mem
  simp only at mem
  split at mem
  · cases mem
  · rename_i lit
    split at mem
    · rw [List.mem_singleton] at mem
      subst mem
      simp only
      omega
    · rcases List.mem_filterMap.mp mem with ⟨asked, -, clips⟩
      exact last_lt_of_clip? clips
    · rcases List.mem_filterMap.mp mem with ⟨segment, covered, isRange⟩
      have onStrip := (zone.segmentsOn_sublist roofline).subset covered
      exact last_lt_total_of_range? laidOut onStrip isRange

end Zone

/-! ## Shares -/

/-- A share: a finite number above zero and at most one. -/
def Number.Binary64.IsShare (x : Binary64) : Prop :=
  ∃ value : Rat, x = .finite value ∧ 0 < value ∧ value ≤ 1

/-- What stands in for missing tags are shares of the strip. -/
structure CheckSettings.HasShares (settings : CheckSettings) : Prop where
  feature : settings.featureShare.IsShare
  side : settings.sideShare.IsShare

namespace Zone

/-- Plain ranges are fewer than a list can hold. -/
def IsListed : Zone → Prop
  | .custom ranges => ranges.val.length < 2 ^ 63
  | _ => True

/-! ## Sums of lengths -/

theorem length_le_of_clip? {range clipped : PixelRange} {total : Nat}
    (clips : range.clip? total = some clipped) : clipped.length ≤ total := by
  have := last_lt_of_clip? clips
  unfold PixelRange.length
  omega

theorem length_of_range? {segment : Segment} {range : PixelRange}
    (isRange : segment.range? = some range) : range.length = segment.pixelCount := by
  rcases range?_eq_some_iff.mp isRange with ⟨lit, first, last⟩
  unfold PixelRange.length
  omega

/-- Ranges of at most `most` lights each have at most as many times that as there are. -/
theorem sum_clips_le (ranges : List PixelRange) (total : Nat) :
    ((ranges.filterMap fun range => range.clip? total).map PixelRange.length).foldr (· + ·) 0 ≤
      ranges.length * total := by
  induction ranges with
  | nil => simp
  | cons range rest ih =>
      rw [List.length_cons, Nat.add_mul, Nat.one_mul]
      cases clips : range.clip? total with
      | none =>
          rw [List.filterMap_cons, clips]
          exact ih.trans (Nat.le_add_right _ _)
      | some clipped =>
          have := length_le_of_clip? clips
          rw [List.filterMap_cons, clips]
          simp only [List.map_cons, List.foldr_cons]
          omega

/-- The ranges of segments have no more lights than the segments. -/
theorem sum_ranges_le (segments : List Segment) :
    ((segments.filterMap Segment.range?).map PixelRange.length).foldr (· + ·) 0 ≤
      (segments.map Segment.pixelCount).foldr (· + ·) 0 := by
  induction segments with
  | nil => simp
  | cons segment rest ih =>
      rw [List.map_cons, List.foldr_cons]
      cases isRange : segment.range? with
      | none =>
          rw [List.filterMap_cons_none isRange]
          omega
      | some range =>
          have := length_of_range? isRange
          rw [List.filterMap_cons_some isRange, List.map_cons, List.foldr_cons]
          omega

/-- Some of the segments of a roofline have no more lights than all of them. -/
theorem sum_sublist_le {some all : List Segment} (sub : some.Sublist all) :
    (some.map Segment.pixelCount).foldr (· + ·) 0 ≤
      (all.map Segment.pixelCount).foldr (· + ·) 0 := by
  induction sub with
  | slnil => exact Nat.le_refl _
  | cons segment _ ih =>
      rw [List.map_cons, List.foldr_cons]
      omega
  | cons_cons segment _ ih =>
      simp only [List.map_cons, List.foldr_cons]
      omega

/-! ## Counts -/

/-- The ranges of a zone count every light of the strip once, those of plain ranges as often
as there are ranges. -/
theorem sum_ranges_lt {zone : Zone} (listed : zone.IsListed) {roofline : Roofline}
    (small : roofline.total < 2 ^ 53) :
    ((zone.ranges roofline).map PixelRange.length).foldr (· + ·) 0 < 2 ^ 116 := by
  unfold ranges
  simp only
  split
  · simp
  · split
    · simp only [List.map_cons, List.map_nil, List.foldr_cons, List.foldr_nil, PixelRange.length]
      omega
    · rename_i spans
      have most : spans.val.length < 2 ^ 63 := listed
      calc _ ≤ spans.val.length * roofline.total := sum_clips_le spans.val roofline.total
        _ ≤ 2 ^ 63 * roofline.total := Nat.mul_le_mul_right _ (Nat.le_of_lt most)
        _ < 2 ^ 116 := by omega
    · have covered := sum_sublist_le (zone.segmentsOn_sublist roofline)
      have all : (roofline.segments.map Segment.pixelCount).foldr (· + ·) 0 < 2 ^ 53 := small
      have := sum_ranges_le (zone.segmentsOn roofline)
      omega

/-- A share of a strip can be counted. -/
theorem shareOfStrip_succeeds {roofline : Roofline} (small : roofline.total < 2 ^ 53)
    {share : Binary64} (isShare : share.IsShare) :
    ∃ lights, shareOfStrip roofline share = .ok lights ∧ lights < 2 ^ 116 := by
  rcases isShare with ⟨value, rfl, positive, atMost⟩
  have smallRat : ((roofline.total : Int) : Rat) < 2 ^ 53 := by exact_mod_cast small
  have totalNonneg : (0 : Rat) ≤ ((roofline.total : Int) : Rat) := by positivity
  have isTotal := Binary64.ofInt_eq (n := (roofline.total : Int))
    (by rw [abs_of_nonneg (by omega)]; omega)
  have totalBound := Binary64.abs_nearest_le ((roofline.total : Int) : Rat)
  rw [abs_of_nonneg totalNonneg] at totalBound
  generalize Binary64.nearest ((roofline.total : Int) : Rat) = total at isTotal totalBound
  have product : |total * value| ≤ 2 ^ 54 + 1 := by
    rw [abs_mul, abs_of_pos positive]
    calc |total| * value ≤ |total| * 1 := mul_le_mul_of_nonneg_left atMost (abs_nonneg _)
      _ ≤ 2 ^ 54 + 1 := by linarith
  have isLights := Binary64.mul_eq (product.trans (by norm_num))
  have lightsBound := Binary64.abs_nearest_le (total * value)
  generalize Binary64.nearest (total * value) = lights at isLights lightsBound
  have bound : |lights| ≤ 2 ^ 56 := by linarith
  let whole : Int := if lights < 0 then lights.ceil else lights.floor
  refine ⟨whole.toNat, ?_, ?_⟩
  · rw [shareOfStrip, isTotal, ok_bind, isLights]
    rfl
  · have atMostLights : whole ≤ 2 ^ 56 := by
      have high := (abs_le.mp bound).2
      show (if lights < 0 then lights.ceil else lights.floor) ≤ 2 ^ 56
      split
      · exact Rat.ceil_le_iff.mpr (by exact_mod_cast high)
      · have : (lights.floor : Rat) ≤ 2 ^ 56 := (Rat.floor_le lights).trans high
        exact_mod_cast this
    omega

/-- A zone that covers some range counts the lights of its ranges. -/
theorem pixelCount_eq_sum {zone : Zone} {roofline : Roofline} (covers : zone.ranges roofline ≠ [])
    (settings : CheckSettings) : zone.pixelCount roofline settings =
      .ok ((zone.ranges roofline).map PixelRange.length).sum := by
  have some : ((zone.ranges roofline).map PixelRange.length).foldr (· + ·) 0 ≠ 0 := by
    cases isCons : zone.ranges roofline with
    | nil => exact absurd isCons covers
    | cons first rest =>
        simp only [List.map_cons, List.foldr_cons, PixelRange.length]
        omega
  unfold pixelCount
  simp only [some, if_false]
  rfl

/-- The lights of a zone can be counted. -/
theorem pixelCount_succeeds {zone : Zone} (listed : zone.IsListed) {roofline : Roofline}
    (small : roofline.total < 2 ^ 53) {settings : CheckSettings} (shares : settings.HasShares) :
    ∃ n, zone.pixelCount roofline settings = .ok n ∧ n < 2 ^ 116 := by
  unfold pixelCount
  simp only
  split
  · split
    · exact shareOfStrip_succeeds small shares.feature
    · exact shareOfStrip_succeeds small shares.side
    · exact ⟨0, rfl, by omega⟩
  · exact ⟨_, rfl, sum_ranges_lt listed small⟩

end Zone

/-- One run with more lights than the number format can count. -/
def longRun : Roofline where
  segments := Roofline.placeFrom 0 0 [{ id := "run", name := "Run", pixelCount := 10 ^ 309 }]

end Eaves
