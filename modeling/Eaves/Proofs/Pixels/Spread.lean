import Eaves.Proofs.Pixels.Offsets
import Mathlib.Data.List.Perm.Basic
import Mathlib.Data.List.Sort
import Mathlib.Tactic.LinearCombination

/-!
# Where spread lights stand

The place of a light that is spread evenly is a multiple of the step between
neighbours, and its offset is the nearest whole number.  Computed in the format, each
place is off a little; but a place that is not half way between two offsets is at
least half a step's denominator away from there, so where the lights and their count
are far from the precision of the format, the offset is still a nearest one.

That an offset is nearest to its exact place is all that the counting needs.  Where
there are enough lights, offsets that follow each other differ; where there are too
few, they differ by one at most, so none is left out.
-/

namespace Eaves.Spacing

open Number (Binary64)
open Outcome

/-- The exact place of light number `index` among `count` lights spread evenly over `length`
lights. -/
def exactPlace (length count index : Nat) : Rat :=
  index * (((length : Int) - 1 : Int) / ((count : Int) - 1 : Int))

section Rounding

variable {length count index : Nat}

theorem exactPlace_le (several : 2 ≤ count) (lit : 0 < length) (early : index < count) :
    exactPlace length count index ≤ length - 1 := by
  have gaps : (0 : Rat) < ((count : Int) - 1 : Int) := by
    exact_mod_cast (show (0 : Int) < (count : Int) - 1 by omega)
  have lights : (0 : Rat) ≤ ((length : Int) - 1 : Int) := by
    exact_mod_cast (show (0 : Int) ≤ (length : Int) - 1 by omega)
  have within : (index : Rat) ≤ ((count : Int) - 1 : Int) := by
    exact_mod_cast (show (index : Int) ≤ (count : Int) - 1 by omega)
  have bound : exactPlace length count index ≤ ((length : Int) - 1 : Int) := by
    rw [exactPlace, mul_div_assoc', div_le_iff₀ gaps, mul_comm]
    exact mul_le_mul_of_nonneg_left within lights
  simpa using bound

/-- Computed in the format, the place of a spread light is off by less than a `2 ^ 50`-th of the
lights. -/
theorem abs_evenPlace_sub_le (several : 2 ≤ count) (lit : 0 < length) (early : index < count)
    (few : index < 2 ^ 100) (short : length < 2 ^ 100) :
    |evenPlace length count index - exactPlace length count index| ≤ length / 2 ^ 50 := by
  have atMost := exactPlace_le several lit early
  have lights : (1 : Rat) ≤ length := by exact_mod_cast lit
  have fewRat : (index : Rat) ≤ 2 ^ 100 := by exact_mod_cast few.le
  have shortRat : (length : Rat) ≤ 2 ^ 100 := by exact_mod_cast short.le
  have index_nonneg : (0 : Rat) ≤ index := by positivity
  have step_nonneg : (0 : Rat) ≤ ((length : Int) - 1 : Int) / ((count : Int) - 1 : Int) := by
    have gaps : (0 : Int) ≤ (count : Int) - 1 := by omega
    have lights : (0 : Int) ≤ (length : Int) - 1 := by omega
    positivity
  have step_le := exactPlace_le several lit (show 1 < count by omega)
  unfold evenPlace exactPlace at *
  rw [Int.cast_natCast]
  rw [Nat.cast_one, one_mul] at step_le
  generalize (((length : Int) - 1 : Int) : Rat) / ((count : Int) - 1 : Int) = step at *
  have stepNear := Binary64.abs_nearest_sub_le step
  have timesNear := Binary64.abs_nearest_sub_le index
  generalize Binary64.nearest step = stepRead at *
  generalize Binary64.nearest (index : Rat) = times at *
  rw [abs_of_nonneg step_nonneg] at stepNear
  rw [abs_of_nonneg index_nonneg] at timesNear
  have timesBound : |times| ≤ 2 * index + 1 := by
    have := abs_sub_abs_le_abs_sub times index
    rw [abs_of_nonneg index_nonneg] at this
    linarith
  have product : |stepRead * times - index * step| ≤ 5 * length / 2 ^ 53 := by
    have shape : stepRead * times - index * step =
        (stepRead - step) * times + step * (times - index) := by ring
    have first : |(stepRead - step) * times| ≤
        (step / 2 ^ 53 + 1 / 2 ^ 250) * (2 * index + 1) := by
      rw [abs_mul]
      exact mul_le_mul stepNear timesBound (abs_nonneg _) (by positivity)
    have second : |step * (times - index)| ≤ step * (index / 2 ^ 53 + 1 / 2 ^ 250) := by
      rw [abs_mul, abs_of_nonneg step_nonneg]
      exact mul_le_mul_of_nonneg_left timesNear step_nonneg
    rw [shape]
    apply (abs_add_le _ _).trans
    linarith
  have read := Binary64.abs_nearest_sub_le (stepRead * times)
  have magnitude : |stepRead * times| ≤ 2 * length := by
    have := abs_sub_abs_le_abs_sub (stepRead * times) (index * step)
    rw [abs_of_nonneg (mul_nonneg index_nonneg step_nonneg)] at this
    linarith
  have apart := abs_sub_le (Binary64.nearest (stepRead * times)) (stepRead * times) (index * step)
  linarith

/-- An offset is a nearest one to the exact place of a spread light. -/
def IsNearest (length count index : Nat) (offset : Int) : Prop :=
  2 * |offset * ((count : Int) - 1) - index * ((length : Int) - 1)| ≤ (count : Int) - 1

theorem isNearest_iff {offset : Int} : IsNearest length count index offset ↔
    2 * (index * ((length : Int) - 1)) ≤ 2 * (offset * ((count : Int) - 1)) + ((count : Int) - 1) ∧
      2 * (offset * ((count : Int) - 1)) ≤
        2 * (index * ((length : Int) - 1)) + ((count : Int) - 1) := by
  have twice : 2 * |offset * ((count : Int) - 1) - index * ((length : Int) - 1)| =
      |2 * (offset * ((count : Int) - 1) - index * ((length : Int) - 1))| := by
    rw [abs_mul, abs_two]
  rw [IsNearest, twice, abs_le]
  omega

/-- Rounding a place that is off by too little to reach another half gives an offset nearest to
the exact place. -/
theorem isNearest_floor (several : 2 ≤ count) {place : Rat}
    (close : |place - (exactPlace length count index + 1 / 2)| * (2 * ((count : Int) - 1 : Int)) <
      1) :
    IsNearest length count index place.floor := by
  have gaps : (0 : Rat) < ((count : Int) - 1 : Int) := by
    exact_mod_cast (show (0 : Int) < (count : Int) - 1 by omega)
  have low : (place.floor : Rat) ≤ place := Rat.floor_le place
  have high : place < (place.floor + 1 : Int) := Rat.lt_floor_add_one place
  generalize place.floor = offset at low high ⊢
  have atPlace : exactPlace length count index * ((count : Int) - 1 : Int) =
      index * ((length : Int) - 1 : Int) := by
    rw [exactPlace, mul_assoc, div_mul_cancel₀ _ gaps.ne']
  rw [isNearest_iff]
  generalize (count : Int) - 1 = steps at *
  generalize (length : Int) - 1 = span at *
  -- twice the steps times a place is a whole number where the place is half way between offsets
  have scaled : |place * (2 * steps) - (2 * (index * span : Int) + steps : Int)| < 1 := by
    have shape : place * (2 * steps) - (2 * (index * span : Int) + steps : Int) =
        (place - (exactPlace length count index + 1 / 2)) * (2 * steps) := by
      push_cast
      linear_combination 2 * atPlace
    rw [shape, abs_mul, abs_of_pos (show (0 : Rat) < 2 * steps by linarith)]
    exact close
  rw [abs_lt] at scaled
  have lowScaled := mul_le_mul_of_nonneg_right low (show (0 : Rat) ≤ 2 * steps by linarith)
  have highScaled := mul_lt_mul_of_pos_right high (show (0 : Rat) < 2 * steps by linarith)
  have notAbove : offset * (2 * steps) < 2 * (index * span) + steps + 1 := by
    have : (offset : Rat) * (2 * steps) < (2 * (index * span : Int) + steps : Int) + 1 := by
      linarith
    exact_mod_cast this
  have notBelow : 2 * (index * span) + steps - 1 < (offset + 1) * (2 * steps) := by
    have : ((2 * (index * span : Int) + steps : Int) : Rat) - 1 <
        (offset + 1 : Int) * (2 * steps) := by
      linarith
    exact_mod_cast this
  constructor <;> linarith

/-- The offset of a spread light, computed in the format, is a nearest one to its exact place, as
long as the lights and their count are far from the format's precision. -/
theorem isNearest_roundedPlace (several : 2 ≤ count) (lit : 0 < length) (early : index < count)
    (precise : count * length < 2 ^ 48) :
    IsNearest length count index (roundedPlace length count index) := by
  have short : length < 2 ^ 48 := lt_of_le_of_lt (Nat.le_mul_of_pos_left _ (by omega)) precise
  have few : count < 2 ^ 48 := lt_of_le_of_lt (Nat.le_mul_of_pos_right _ lit) precise
  apply isNearest_floor several
  have near := abs_evenPlace_sub_le several lit early (by omega) (by omega)
  have atMost := exactPlace_le several lit early
  have lights : (1 : Rat) ≤ length := by exact_mod_cast lit
  have read := Binary64.abs_nearest_sub_le (evenPlace length count index + 1 / 2)
  have nonneg : 0 ≤ exactPlace length count index := by
    have gaps : (0 : Int) ≤ (count : Int) - 1 := by omega
    have span : (0 : Int) ≤ (length : Int) - 1 := by omega
    unfold exactPlace
    positivity
  generalize evenPlace length count index = place at *
  generalize exactPlace length count index = ideal at *
  have magnitude : |place + 1 / 2| ≤ 2 * length := by
    rw [abs_le] at near ⊢
    constructor <;> linarith
  have error : |Binary64.nearest (place + 1 / 2) - (ideal + 1 / 2)| ≤ length / 2 ^ 49 := by
    have apart := abs_sub_le (Binary64.nearest (place + 1 / 2)) (place + 1 / 2) (ideal + 1 / 2)
    rw [add_sub_add_right_eq_sub] at apart
    linarith
  have gaps : (0 : Rat) < 2 * ((count : Int) - 1 : Int) := by
    have : (0 : Int) < (count : Int) - 1 := by omega
    positivity
  have preciseRat : (count : Rat) * length < 2 ^ 48 := by exact_mod_cast precise
  calc _ ≤ (length : Rat) / 2 ^ 49 * (2 * ((count : Int) - 1 : Int)) :=
        mul_le_mul_of_nonneg_right error gaps.le
    _ < 1 := by
        push_cast
        linarith

end Rounding

/-! ## Distinct lights -/

section Distinct

variable {length count : Nat}

/-- The offsets nearest to exact places lie among the lights. -/
theorem IsNearest.bounds {index : Nat} {offset : Int} (near : IsNearest length count index offset)
    (several : 2 ≤ count) (lit : 0 < length) (early : index < count) :
    0 ≤ offset ∧ offset < length := by
  obtain ⟨low, high⟩ := isNearest_iff.mp near
  have steps : 0 ≤ (count : Int) - 1 := by omega
  have span : 0 ≤ (length : Int) - 1 := by omega
  have fromFirst : 0 ≤ (index : Int) * ((length : Int) - 1) := mul_nonneg (by omega) span
  have toLast : (index : Int) * ((length : Int) - 1) ≤ ((count : Int) - 1) * ((length : Int) - 1) :=
    mul_le_mul_of_nonneg_right (by omega) span
  constructor
  · by_contra negative
    have : offset * ((count : Int) - 1) ≤ -1 * ((count : Int) - 1) :=
      mul_le_mul_of_nonneg_right (by omega) steps
    omega
  · by_contra beyond
    have : (((length : Int) - 1) + 1) * ((count : Int) - 1) ≤ offset * ((count : Int) - 1) :=
      mul_le_mul_of_nonneg_right (by omega) steps
    rw [add_mul, one_mul, mul_comm] at this
    omega

variable {place : Nat → Int} (near : ∀ index < count, IsNearest length count index (place index))

include near

/-- Where there are enough lights, each spread light has an offset behind that of the one before
it. -/
theorem place_lt_succ (several : 2 ≤ count) (enough : count ≤ length) {index : Nat}
    (early : index + 1 < count) : place index < place (index + 1) := by
  obtain ⟨low, high⟩ := isNearest_iff.mp (near index (by omega))
  obtain ⟨nextLow, nextHigh⟩ := isNearest_iff.mp (near (index + 1) early)
  push_cast at nextLow nextHigh
  rw [add_mul, one_mul] at nextLow nextHigh
  by_contra notBehind
  have : place (index + 1) * ((count : Int) - 1) ≤ place index * ((count : Int) - 1) :=
    mul_le_mul_of_nonneg_right (by omega) (by omega)
  -- then the step is of one light only, and this light lies half way between two offsets
  have step : (length : Int) - 1 = (count : Int) - 1 := by omega
  rw [step] at high nextLow
  have halfWay : (2 * place index - (2 * index + 1)) * ((count : Int) - 1) = 0 := by linarith
  rcases mul_eq_zero.mp halfWay with half | noSteps
  · omega
  · omega

/-- Where there are too few lights, each spread light is at most one light behind the one before
it. -/
theorem place_succ_le (several : 2 ≤ count) (tooFew : length < count) {index : Nat}
    (early : index + 1 < count) : place (index + 1) ≤ place index + 1 := by
  obtain ⟨low, -⟩ := isNearest_iff.mp (near index (by omega))
  obtain ⟨-, nextHigh⟩ := isNearest_iff.mp (near (index + 1) early)
  push_cast at nextHigh
  rw [add_mul, one_mul] at nextHigh
  by_contra further
  have : (place index + 2) * ((count : Int) - 1) ≤ place (index + 1) * ((count : Int) - 1) :=
    mul_le_mul_of_nonneg_right (by omega) (by omega)
  rw [add_mul] at this
  omega

/-- The first light of a range is spread light number zero. -/
theorem place_zero (several : 2 ≤ count) (lit : 0 < length) : place 0 = 0 := by
  have first := near 0 (by omega)
  have bounds := first.bounds several lit (by omega)
  obtain ⟨-, high⟩ := isNearest_iff.mp first
  by_contra behind
  have : 1 * ((count : Int) - 1) ≤ place 0 * ((count : Int) - 1) :=
    mul_le_mul_of_nonneg_right (by omega) (by omega)
  rw [Int.natCast_zero, zero_mul] at high
  omega

/-- The last light of a range is the last spread light. -/
theorem place_last (several : 2 ≤ count) (lit : 0 < length) :
    place (count - 1) = (length : Int) - 1 := by
  have last := near (count - 1) (by omega)
  have bounds := last.bounds several lit (by omega)
  obtain ⟨low, -⟩ := isNearest_iff.mp last
  have lastIndex : ((count - 1 : Nat) : Int) = (count : Int) - 1 := by omega
  by_contra before
  have : (place (count - 1) + 1) * ((count : Int) - 1) ≤
      ((length : Int) - 1) * ((count : Int) - 1) :=
    mul_le_mul_of_nonneg_right (by omega) (by omega)
  rw [lastIndex, mul_comm ((count : Int) - 1) ((length : Int) - 1)] at low
  rw [add_mul, one_mul] at this
  omega

/-- Where there are too few lights, every light up to a spread one is spread. -/
theorem exists_place_eq (several : 2 ≤ count) (lit : 0 < length) (tooFew : length < count)
    {index : Nat} (early : index < count) {offset : Int} (nonneg : 0 ≤ offset)
    (upTo : offset ≤ place index) : ∃ earlier ≤ index, place earlier = offset := by
  induction index with
  | zero =>
      have first := place_zero near several lit
      exact ⟨0, Nat.le_refl 0, by omega⟩
  | succ index ih =>
      by_cases before : offset ≤ place index
      · rcases ih (by omega) before with ⟨earlier, le, same⟩
        exact ⟨earlier, Nat.le_succ_of_le le, same⟩
      · have step := place_succ_le near several tooFew early
        exact ⟨index + 1, Nat.le_refl _, by omega⟩

/-- Where there are enough lights, spread lights have offsets of their own. -/
theorem place_lt_place (several : 2 ≤ count) (enough : count ≤ length) {index later : Nat}
    (before : index < later) (early : later < count) : place index < place later := by
  induction later with
  | zero => omega
  | succ later ih =>
      have step := place_lt_succ near several enough early
      rcases Nat.lt_succ_iff_lt_or_eq.mp before with earlier | rfl
      · exact lt_trans (ih earlier (by omega)) step
      · exact step

end Distinct

/-! ## The number of lights -/

/-- The lights among the first `length` that stand at one of the offsets. -/
def lightsAt (length : Nat) (offsets : List Int) : List Nat :=
  (List.range length).filter fun light => decide ((light : Int) ∈ offsets)

theorem mem_lightsAt_iff {length : Nat} {offsets : List Int} {light : Nat} :
    light ∈ lightsAt length offsets ↔ light < length ∧ (light : Int) ∈ offsets := by
  rw [lightsAt, List.mem_filter, List.mem_range, decide_eq_true_iff]

theorem pairwise_lightsAt (length : Nat) (offsets : List Int) :
    (lightsAt length offsets).Pairwise (· < ·) :=
  List.pairwise_lt_range.filter _

theorem nodup_lightsAt (length : Nat) (offsets : List Int) : (lightsAt length offsets).Nodup :=
  (pairwise_lightsAt length offsets).imp Nat.ne_of_lt

section Counting

variable {length count : Nat} {place : Nat → Int}
  (near : ∀ index < count, IsNearest length count index (place index))

include near

/-- The places that lights are spread to are offsets of the range. -/
theorem places_inside (several : 2 ≤ count) (lit : 0 < length) :
    ∀ offset ∈ (List.range count).map place, 0 ≤ offset ∧ offset < length := by
  intro offset mem
  rcases List.mem_map.mp mem with ⟨index, early, rfl⟩
  rw [List.mem_range] at early
  exact (near index early).bounds several lit early

/-- Where there are enough lights, those at the places are the places in order. -/
theorem lightsAt_of_enough (several : 2 ≤ count) (enough : count ≤ length) :
    lightsAt length ((List.range count).map place) =
      (List.range count).map fun index => (place index).toNat := by
  have bounds := fun index (early : index < count) =>
    (near index early).bounds several (by omega) early
  apply (pairwise_lightsAt _ _).eq_of_mem_iff
  · rw [List.pairwise_map]
    apply List.pairwise_lt_range.imp_of_mem
    intro index later _ mem before
    have early := List.mem_range.mp mem
    have := place_lt_place near several enough before early
    have := bounds index (by omega)
    omega
  intro light
  rw [mem_lightsAt_iff]
  simp only [List.mem_map, List.mem_range]
  constructor
  · rintro ⟨-, index, early, isPlace⟩
    exact ⟨index, early, by omega⟩
  · rintro ⟨index, early, isPlace⟩
    have := bounds index early
    exact ⟨by omega, index, early, by omega⟩

/-- Where there are too few lights, each stands at some place. -/
theorem length_lightsAt_of_tooFew (several : 2 ≤ count) (lit : 0 < length)
    (tooFew : length < count) :
    (lightsAt length ((List.range count).map place)).length = length := by
  have every : lightsAt length ((List.range count).map place) = List.range length := by
    apply List.filter_eq_self.mpr
    intro light mem
    have inside := List.mem_range.mp mem
    have last := place_last near several lit
    obtain ⟨index, early, isPlace⟩ := exists_place_eq near several lit tooFew
      (show count - 1 < count by omega) (show (0 : Int) ≤ light by omega) (by omega)
    rw [decide_eq_true_iff, ← isPlace]
    exact List.mem_map_of_mem (List.mem_range.mpr (by omega))
  rw [every, List.length_range]

/-- As many lights stand at the places as there are places, or as there are lights if these are
fewer. -/
theorem length_lightsAt_places (several : 2 ≤ count) (lit : 0 < length) :
    (lightsAt length ((List.range count).map place)).length = min count length := by
  by_cases enough : count ≤ length
  · rw [lightsAt_of_enough near several enough, List.length_map, List.length_range,
      min_eq_left enough]
  · rw [length_lightsAt_of_tooFew near several lit (by omega), min_eq_right (by omega)]

end Counting

/-- A single spread light stands in the middle. -/
theorem lightsAt_middle {length : Nat} (lit : 0 < length) :
    (lightsAt length [((length / 2 : Nat) : Int)]).length = 1 := by
  have same : (lightsAt length [((length / 2 : Nat) : Int)]).Perm [length / 2] := by
    rw [List.perm_ext_iff_of_nodup (nodup_lightsAt _ _) (List.nodup_singleton _)]
    intro light
    rw [mem_lightsAt_iff, List.mem_singleton, List.mem_singleton]
    omega
  rw [same.length_eq, List.length_singleton]

/-- Spread lights stand inside the range, and there are as many of them as were asked for, or as
there are lights if these are fewer. -/
theorem evenOffsets_spec {length count : Nat} (positive : 0 < count) (lit : 0 < length)
    (precise : count * length < 2 ^ 48) :
    ∃ offsets, evenOffsets Binary64 length count = .ok offsets ∧
      (∀ offset ∈ offsets, 0 ≤ offset ∧ offset < length) ∧
      (lightsAt length offsets).length = min count length := by
  by_cases one : count = 1
  · refine ⟨_, if_pos one, ?_, ?_⟩
    · intro offset mem
      rw [List.mem_singleton] at mem
      omega
    · rw [lightsAt_middle lit]
      omega
  have several : 2 ≤ count := by omega
  have short : length < 2 ^ 48 := lt_of_le_of_lt (Nat.le_mul_of_pos_left _ positive) precise
  have few : count < 2 ^ 48 := lt_of_le_of_lt (Nat.le_mul_of_pos_right _ lit) precise
  have near := fun index (early : index < count) =>
    isNearest_roundedPlace several lit early precise
  exact ⟨_, evenOffsets_eq several (by omega) (by omega), places_inside near several lit,
    length_lightsAt_places near several lit⟩

end Eaves.Spacing
