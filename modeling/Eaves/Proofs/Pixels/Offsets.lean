import Eaves.Pixels.Downlight
import Eaves.Pixels.Patterned
import Eaves.Pixels.Spaced
import Eaves.Proofs.Number.Finite
import Eaves.Proofs.Outcome
import Eaves.Proofs.Roofline.Lookup

/-!
# Painting succeeds

Of the spacing rules only equal spacing computes with ratios, and so only it could
fail.  It does not where the lights to spread and the lights to spread them over are
far fewer than the greatest finite number.

Of the patterns only a gradient computes.  It blends levels by a share between zero and
one, and all that it rounds on the way is so small that the channels it ends with are
levels again; so a pattern never fails.

The lights that a template spreads between anchors are computed like equally spaced
ones, and succeed alike.
-/

namespace Eaves

open Number (Binary64 Scalar)
open Outcome

namespace Spacing

/-- The place of a spread light before it is rounded to an offset: the step between neighbours
times the index, each result rounded into the format. -/
def evenPlace (length count index : Nat) : Rat :=
  Binary64.nearest (Binary64.nearest ((((length : Int) - 1 : Int) : Rat) /
    (((count : Int) - 1 : Int) : Rat)) * Binary64.nearest ((index : Int) : Rat))

/-- The place of a spread light rounded to an offset: it is rounded down, half a light further
on. -/
def roundedPlace (length count index : Nat) : Int :=
  (Binary64.nearest (evenPlace length count index + 1 / 2)).floor

/-- A ratio of integers times an index can be computed and rounded to an integer. -/
theorem timesRatio_eq {n d : Int} {index : Nat} (nonzero : d ≠ 0) (small : |n| ≤ 2 ^ 120)
    (early : index < 2 ^ 120) :
    (do
      let step ← Scalar.quotient (α := Binary64) n d
      let times ← Scalar.ofInt (α := Binary64) index
      Scalar.roundHalfUp (Scalar.mul step times)) =
      Except.ok (Binary64.nearest (Binary64.nearest (Binary64.nearest ((n : Rat) / (d : Rat)) *
        Binary64.nearest ((index : Int) : Rat)) + 1 / 2)).floor := by
  have numerator : |(n : Rat)| ≤ 2 ^ 120 := by exact_mod_cast small
  have indexInt : |(index : Int)| ≤ 2 ^ 120 := by
    rw [abs_of_nonneg (by omega)]
    omega
  have indexRat : |((index : Int) : Rat)| ≤ 2 ^ 120 := by exact_mod_cast indexInt
  have ratioBound := (Binary64.abs_ratio_le nonzero).trans numerator
  have isStep := Binary64.quotient_eq nonzero (ratioBound.trans (by norm_num))
  have isTimes := Binary64.ofInt_eq (indexInt.trans (by norm_num))
  have stepBound := Binary64.abs_nearest_le ((n : Rat) / (d : Rat))
  have timesBound := Binary64.abs_nearest_le ((index : Int) : Rat)
  generalize Binary64.nearest ((n : Rat) / (d : Rat)) = step at isStep stepBound ⊢
  generalize Binary64.nearest ((index : Int) : Rat) = times at isTimes timesBound ⊢
  have productSmall : |step * times| ≤ 2 ^ 244 := by
    rw [abs_mul]
    calc |step| * |times| ≤ 2 ^ 122 * 2 ^ 122 :=
          mul_le_mul (by linarith) (by linarith) (abs_nonneg _) (by norm_num)
      _ = 2 ^ 244 := by norm_num
  have isPlace := Binary64.mul_eq (productSmall.trans (by norm_num))
  have placeBound := Binary64.abs_nearest_le (step * times)
  generalize Binary64.nearest (step * times) = place at isPlace placeBound ⊢
  have shifted : |place + 1 / 2| ≤ 2 ^ 250 := by
    have apart := abs_add_le place (1 / 2)
    have half : |(1 / 2 : Rat)| = 1 / 2 := by norm_num
    linarith
  simp only [Scalar.quotient, Scalar.ofInt, Scalar.mul, Scalar.roundHalfUp, Scalar.floor,
    Scalar.add, Scalar.ofRat, Scalar.ofBinary64, id]
  rw [isStep, ok_bind, isTimes, ok_bind, isPlace, Binary64.add_eq shifted]
  rfl

/-- The offset of a spread light is its rounded place. -/
theorem evenOffset_eq {length count index : Nat} (several : 2 ≤ count)
    (short : length < 2 ^ 120) (early : index < 2 ^ 120) :
    evenOffset Binary64 length count index = .ok (roundedPlace length count index) := by
  have small : |(length : Int) - 1| ≤ 2 ^ 120 := by
    rw [abs_le]
    constructor <;> omega
  have computed := timesRatio_eq (show (count : Int) - 1 ≠ 0 by omega) small early
  exact congrArg liftNumber computed

/-- The offsets of several spread lights are their rounded places. -/
theorem evenOffsets_eq {length count : Nat} (several : 2 ≤ count) (short : length < 2 ^ 120)
    (few : count < 2 ^ 120) :
    evenOffsets Binary64 length count =
      .ok ((List.range count).map (roundedPlace length count)) := by
  rw [evenOffsets, if_neg (by omega)]
  apply mapM_eq_ok_map
  intro index mem
  have inside := List.mem_range.mp mem
  exact evenOffset_eq several short (by omega)

/-- The offsets of spread lights can be computed. -/
theorem evenOffsets_succeeds {length count : Nat} (some : 0 < count) (short : length < 2 ^ 120)
    (few : count < 2 ^ 120) :
    ∃ offsets, evenOffsets Binary64 length count = .ok offsets := by
  by_cases one : count = 1
  · exact ⟨_, if_pos one⟩
  · exact ⟨_, evenOffsets_eq (by omega) short few⟩

/-- A rule that spreads at most `most` lights, if it spreads any. -/
def SpreadsBelow (most : Int) : Spacing → Prop
  | .equallySpaced count => count < most
  | _ => True

theorem SpreadsBelow.mono {most more : Int} (le : most ≤ more) {rule : Spacing}
    (below : rule.SpreadsBelow most) : rule.SpreadsBelow more := by
  cases rule with
  | equallySpaced count => exact Int.lt_of_lt_of_le below le
  | _ => trivial

/-- A rule can be painted over a range. -/
theorem paint_succeeds {rule : Spacing} (below : rule.SpreadsBelow (2 ^ 120)) (canvas : Canvas)
    {range : PixelRange} (short : range.length < 2 ^ 120) (coloring : Coloring)
    (roofline : Option Roofline) :
    ∃ painted, rule.paint Binary64 canvas range coloring roofline = .ok painted := by
  cases rule with
  | pattern on off startLit =>
      rw [paint]
      split <;> exact ⟨_, rfl⟩
  | equallySpaced count =>
      rw [paint]
      split
      · exact ⟨_, rfl⟩
      · have few : count < 2 ^ 120 := below
        obtain ⟨offsets, computed⟩ :=
          evenOffsets_succeeds (by omega : 0 < count.toNat) short (by omega)
        exact ⟨_, map_eq_ok_iff.mpr ⟨offsets, computed, rfl⟩⟩
  | everyNth interval =>
      rw [paint]
      split <;> exact ⟨_, rfl⟩
  | anchorsOnly => exact ⟨_, rfl⟩
  | continuous => exact ⟨_, rfl⟩

end Spacing

/-- Rounding moves a number that is far below the precision of the format by next to nothing. -/
theorem Number.Binary64.abs_nearest_sub_le_of_small {x : Rat} (small : |x| ≤ 2 ^ 40) :
    |nearest x - x| ≤ 1 / 2 ^ 10 := by
  have near := abs_nearest_sub_le x
  linarith

/-! ## Blending colours -/

theorem Level.toInt_le_iff {level other : Level} : level.toInt ≤ other.toInt ↔ level ≤ other := by
  rw [Level.toInt, Level.toInt, Int.ofNat_le, Fin.le_def]

namespace Color

/-- The place of a share of the way from one level to another is between the two. -/
theorem exactWay_between (a b : Level) {share : Rat} (nonneg : 0 ≤ share) (atMostOne : share ≤ 1) :
    ((min a b).toInt : Rat) ≤ (a.toInt : Rat) + (b.toInt - a.toInt : Int) * share ∧
      (a.toInt : Rat) + (b.toInt - a.toInt : Int) * share ≤ (max a b).toInt := by
  push_cast
  rcases le_total a b with up | down
  · rw [min_eq_left up, max_eq_right up]
    have distance : (0 : Rat) ≤ b.toInt - a.toInt :=
      sub_nonneg.mpr (by exact_mod_cast Level.toInt_le_iff.mpr up)
    have walked := mul_nonneg distance nonneg
    have short := mul_le_of_le_one_right distance atMostOne
    constructor <;> linarith
  · rw [min_eq_right down, max_eq_left down]
    have distance : (b.toInt - a.toInt : Rat) ≤ 0 :=
      sub_nonpos.mpr (by exact_mod_cast Level.toInt_le_iff.mpr down)
    have walked := mul_nonpos_of_nonpos_of_nonneg distance nonneg
    have short := mul_nonneg (neg_nonneg.mpr distance) (sub_nonneg.mpr atMostOne)
    constructor <;> linarith

/-- The place of a share of the way from one level to another is not beyond the levels. -/
theorem exactWay_bounds (a b : Level) {share : Rat} (nonneg : 0 ≤ share) (atMostOne : share ≤ 1) :
    0 ≤ (a.toInt : Rat) + (b.toInt - a.toInt : Int) * share ∧
      (a.toInt : Rat) + (b.toInt - a.toInt : Int) * share ≤ 255 := by
  obtain ⟨low, high⟩ := exactWay_between a b nonneg atMostOne
  have lowest : (0 : Rat) ≤ (min a b).toInt := by exact_mod_cast (min a b).toInt_bounds.1
  have highest : ((max a b).toInt : Rat) ≤ 255 := by exact_mod_cast (max a b).toInt_bounds.2
  exact ⟨lowest.trans low, high.trans highest⟩

/-- Rounded, the share of a distance is off by next to nothing if the distance is. -/
theorem abs_nearest_mul_sub_le {distance read share : Rat} (small : |distance| ≤ 255)
    (near : |read - distance| ≤ 1 / 2 ^ 10) (nonneg : 0 ≤ share) (atMostOne : share ≤ 1) :
    |read * share| ≤ 256 ∧
      |Binary64.nearest (read * share) - distance * share| ≤ 2 / 2 ^ 10 := by
  have shared : |read * share - distance * share| ≤ 1 / 2 ^ 10 := by
    rw [← sub_mul, abs_mul, abs_of_nonneg nonneg]
    exact (mul_le_of_le_one_right (abs_nonneg _) atMostOne).trans near
  have exactSmall : |distance * share| ≤ 255 := by
    rw [abs_mul, abs_of_nonneg nonneg]
    exact (mul_le_of_le_one_right (abs_nonneg _) atMostOne).trans small
  have readSmall : |read * share| ≤ 256 := by
    have grown := abs_sub_abs_le_abs_sub (read * share) (distance * share)
    linarith
  have rounded := Binary64.abs_nearest_sub_le_of_small (x := read * share) (by linarith)
  have apart := abs_sub_le (Binary64.nearest (read * share)) (read * share) (distance * share)
  exact ⟨readSmall, by linarith⟩

/-- A blended channel is a whole number nearest to a place that is off by next to nothing from the
share of the way. -/
theorem blendChannel_near {t : Binary64} (share : t.IsUnit) (a b : Level) :
    ∃ place : Rat, blendChannel t a b = .ok (Number.roundEven place) ∧
      |place - ((a.toInt : Rat) + (b.toInt - a.toInt : Int) * t.toRat)| ≤ 4 / 2 ^ 10 := by
  obtain ⟨isFinite, nonneg, atMostOne⟩ := Binary64.isUnit_iff.mp share
  have startBounds := a.toInt_bounds
  have endBounds := b.toInt_bounds
  have startInt : |a.toInt| ≤ 255 := by
    rw [abs_of_nonneg startBounds.1]
    exact startBounds.2
  have distanceInt : |b.toInt - a.toInt| ≤ 255 := by
    rw [abs_le]
    constructor <;> omega
  have startRat : |(a.toInt : Rat)| ≤ 255 := by exact_mod_cast startInt
  have distanceRat : |((b.toInt - a.toInt : Int) : Rat)| ≤ 255 := by exact_mod_cast distanceInt
  have isStart := Binary64.ofInt_eq (startInt.trans (by norm_num))
  have isDistance := Binary64.ofInt_eq (distanceInt.trans (by norm_num))
  have startNear := Binary64.abs_nearest_sub_le_of_small (startRat.trans (by norm_num))
  have distanceNear := Binary64.abs_nearest_sub_le_of_small (distanceRat.trans (by norm_num))
  obtain ⟨waySmall, wayNear⟩ :=
    abs_nearest_mul_sub_le distanceRat distanceNear nonneg atMostOne
  generalize Binary64.nearest (a.toInt : Rat) = start at isStart startNear
  generalize Binary64.nearest ((b.toInt - a.toInt : Int) : Rat) = distance
    at isDistance waySmall wayNear
  have isWay : (Binary64.finite distance).mul t =
      .finite (Binary64.nearest (distance * t.toRat)) := by
    rw [Binary64.mul_of_isFinite rfl isFinite]
    exact Binary64.ofRat_eq (waySmall.trans (by norm_num))
  generalize Binary64.nearest (distance * t.toRat) = way at isWay wayNear
  have exactBounds := exactWay_bounds a b nonneg atMostOne
  rw [abs_le] at startNear wayNear
  have sumSmall : |start + way| ≤ 2 ^ 40 := by
    rw [abs_le]
    constructor <;> linarith
  have isPlace := Binary64.add_eq (sumSmall.trans (by norm_num))
  have placeNear := Binary64.abs_nearest_sub_le_of_small sumSmall
  refine ⟨Binary64.nearest (start + way), ?_, ?_⟩
  · simp only [blendChannel, Scalar.ofInt, Scalar.round, Scalar.add, Scalar.mul, isStart,
      isDistance, ok_bind, isWay, isPlace]
    rfl
  · rw [abs_le] at placeNear ⊢
    constructor <;> linarith

/-- A blended channel is a level. -/
theorem exists_blendChannel_eq {t : Binary64} (share : t.IsUnit) (a b : Level) :
    ∃ level : Level, blendChannel t a b = .ok level.toInt := by
  obtain ⟨-, nonneg, atMostOne⟩ := Binary64.isUnit_iff.mp share
  obtain ⟨place, computed, near⟩ := blendChannel_near share a b
  have exactBounds := exactWay_bounds a b nonneg atMostOne
  have rounded := Number.roundEven_near place
  rw [abs_le] at near rounded
  have aboveRat : (-1 : Rat) < (Number.roundEven place : Rat) := by linarith
  have belowRat : (Number.roundEven place : Rat) < 256 := by linarith
  have above : -1 < Number.roundEven place := by exact_mod_cast aboveRat
  have below : Number.roundEven place < 256 := by exact_mod_cast belowRat
  refine ⟨⟨(Number.roundEven place).toNat, by omega⟩, ?_⟩
  rw [computed, Level.toInt, Int.toNat_of_nonneg (by omega)]

/-- The channels of a colour. -/
def channels : List (Color → Level) :=
  [red, green, blue, white]

/-- Where any two levels blend to a level that is related to them, two colours blend to a colour
with each channel so related to theirs. -/
theorem exists_blend {α : Type} [Scalar α] (Blends : Level → Level → Level → Prop) {t : α}
    (each : ∀ a b : Level, ∃ level : Level,
      blendChannel (Scalar.greatest (Scalar.ofRat 0) (Scalar.least (Scalar.ofRat 1) t)) a b =
        .ok level.toInt ∧ Blends a b level) (c d : Color) :
    ∃ mixed, c.blend d t = .ok mixed ∧
      ∀ channel ∈ channels, Blends (channel c) (channel d) (channel mixed) := by
  obtain ⟨r, isR, redBlends⟩ := each c.red d.red
  obtain ⟨g, isG, greenBlends⟩ := each c.green d.green
  obtain ⟨b, isB, blueBlends⟩ := each c.blue d.blue
  obtain ⟨w, isW, whiteBlends⟩ := each c.white d.white
  refine ⟨⟨r, g, b, w⟩, ?_, ?_⟩
  · simp only [blend, isR, isG, isB, isW, ok_bind, ofChannels_toInt]
    rfl
  · simp only [channels, List.forall_mem_cons]
    exact ⟨redBlends, greenBlends, blueBlends, whiteBlends, List.forall_mem_nil _⟩

/-- Any two colours can be blended, whatever the share: what lies outside zero and one counts as the
nearest end. -/
theorem blend_succeeds (c d : Color) (t : Binary64) : ∃ color, c.blend d t = .ok color := by
  obtain ⟨mixed, blends, -⟩ :
      ∃ mixed, c.blend d t = .ok mixed ∧ ∀ channel ∈ channels, True := by
    apply exists_blend fun _ _ _ => True
    intro a b
    obtain ⟨level, isLevel⟩ := exists_blendChannel_eq (Binary64.isUnit_greatest t) a b
    exact ⟨level, isLevel, trivial⟩
  exact ⟨mixed, blends⟩

end Color

/-! ## Gradients -/

namespace Pattern

/-- The colour at a position of a gradient can be worked out. -/
theorem colorAt_succeeds (first last : Stop Binary64) (stops : List (Stop Binary64))
    (position : Binary64) : ∃ color, colorAt first last stops position = .ok color := by
  unfold colorAt
  generalize (between? position stops).getD (first, last) = ends
  obtain ⟨lower, upper⟩ := ends
  simp only
  split
  · exact ⟨_, rfl⟩
  · exact Color.blend_succeeds _ _ _

/-- The share of a range that lies before one of its lights can be computed. -/
theorem position_succeeds {offset length : Nat} (inside : offset < length) :
    ∃ position, Binary64.quotient offset length = .ok position := by
  have positive : (0 : Rat) < (length : Int) := by exact_mod_cast (by omega : 0 < length)
  have atMost : ((offset : Int) : Rat) / ((length : Int) : Rat) ≤ 1 := by
    rw [div_le_one positive]
    exact_mod_cast inside.le
  have nonneg : 0 ≤ ((offset : Int) : Rat) / ((length : Int) : Rat) := by positivity
  refine ⟨_, Binary64.quotient_eq (by omega) ?_⟩
  rw [abs_of_nonneg nonneg]
  linarith

end Pattern

/-! ## Lights between anchors -/

namespace Segment

variable {segment : Segment}

theorem spacedOffset_succeeds (first : Int) {length : Int} (small : |length| ≤ 2 ^ 120)
    (count : Nat) {index : Nat} (early : index < 2 ^ 120) :
    ∃ offset, spacedOffset Binary64 first length count index = .ok offset := by
  have computed := Spacing.timesRatio_eq (show (count : Int) + 1 ≠ 0 by omega) small early
  rcases bind_eq_ok_iff.mp computed with ⟨interval, isInterval, rest⟩
  rcases bind_eq_ok_iff.mp rest with ⟨times, isTimes, isPlace⟩
  simp only [spacedOffset, isInterval, isTimes, isPlace, ok_bind]
  exact ⟨_, rfl⟩

/-- The lights of a gap can be computed where the gap has far fewer lights than the greatest finite
number, and gets far fewer. -/
theorem gapOffsets_succeeds {count anchor next : Nat} (few : count < 2 ^ 120)
    (short : next < 2 ^ 120) :
    ∃ offsets, gapOffsets Binary64 segment count anchor next = .ok offsets := by
  unfold gapOffsets
  simp only
  split
  · exact ⟨[], rfl⟩
  · rename_i positive
    have small : |(next : Int) - 1 - (anchor + segment.anchorWidth.val) + 1| ≤ 2 ^ 120 := by
      rw [abs_le]
      constructor <;> omega
    have each : ∀ index ∈ List.range' 1 count, ∃ offset,
        spacedOffset Binary64 (anchor + segment.anchorWidth.val)
          ((next : Int) - 1 - (anchor + segment.anchorWidth.val) + 1) count index =
            .ok offset := by
      intro index mem
      rw [List.mem_range'_1] at mem
      exact spacedOffset_succeeds _ small count (by omega)
    obtain ⟨places, ran⟩ := mapM_succeeds each
    rw [ran, ok_bind]
    exact ⟨_, rfl⟩

/-- The lights between anchors can be computed where the segment has far fewer lights than the
greatest finite number, and each gap gets far fewer. -/
theorem spacedOffsets_succeeds (short : segment.pixelCount < 2 ^ 120) {count : Int}
    (few : count < 2 ^ 120) :
    ∃ offsets, segment.spacedOffsets Binary64 count = .ok offsets := by
  unfold spacedOffsets
  split
  · exact ⟨[], rfl⟩
  · have each : ∀ gap ∈ segment.anchorGaps, ∃ offsets,
        gapOffsets Binary64 segment count.toNat gap.1 gap.2 = .ok offsets := by
      rintro ⟨anchor, next⟩ between
      have inside := effectiveAnchors_lt (List.mem_of_mem_drop (List.of_mem_zip between).2)
      exact gapOffsets_succeeds (by omega) (by omega)
    obtain ⟨gaps, ran⟩ := mapM_succeeds each
    rw [ran, ok_bind]
    exact ⟨_, rfl⟩

/-- Computing the lights between anchors fails with a number out of range and nothing else. -/
theorem failure_of_spacedOffsets {count : Int} {failure : Failure}
    (failed : segment.spacedOffsets Binary64 count = .error failure) :
    ∃ fault, failure = .number fault := by
  unfold spacedOffsets at failed
  split at failed
  · cases failed
  · rcases bind_eq_error_iff.mp failed with inGaps | ⟨_, -, gone⟩
    · rcases exists_failure_of_mapM inGaps with ⟨gap, -, inGap⟩
      unfold gapOffsets at inGap
      simp only at inGap
      split at inGap
      · cases inGap
      · rcases bind_eq_error_iff.mp inGap with inPlaces | ⟨_, -, gone⟩
        · rcases exists_failure_of_mapM inPlaces with ⟨index, -, inPlace⟩
          unfold spacedOffset at inPlace
          exact liftNumber_eq_error inPlace
        · cases gone
    · cases gone

end Segment

end Eaves
