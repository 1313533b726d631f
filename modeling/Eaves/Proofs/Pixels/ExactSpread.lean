import Eaves.Proofs.Pixels.EvenCount
import Mathlib.Algebra.Order.Floor.Ring
import Mathlib.Data.List.Range
import Mathlib.Data.Rat.Floor

/-!
# Spread lights in exact arithmetic

Over the rationals, rounding to whole lights is all that comes between the gap of
spread lights and their offsets.  So there is no limit on the lights or on their count:
the offsets are nearest to the places, whatever the range, and all that follows from
this follows.

Going on by a gap, the floor grows by the gap's own floor at least, and by its ceiling
at most.  These are the same or neighbours, so no other gap comes between two lights.
-/

namespace Eaves.Spacing

/-! ## Exact offsets -/

/-- The gap from one spread light to the next. -/
def exactGap (length count : Nat) : Rat :=
  ((length : Rat) - 1) / ((count : Rat) - 1)

/-- The exact place of a spread light, rounded to the nearest with a half going up. -/
def exactOffset (length count index : Nat) : Int :=
  ⌊exactPlace length count index + 1 / 2⌋

section Offsets

variable {length count index : Nat}

theorem exactPlace_eq (length count index : Nat) :
    exactPlace length count index = index * exactGap length count := by
  unfold exactPlace exactGap
  push_cast
  rfl

theorem evenOffset_exact (several : 2 ≤ count) :
    evenOffset Rat length count index = .ok (exactOffset length count index) := by
  have gap : Number.Scalar.quotient (α := Rat) ((length : Int) - 1) ((count : Int) - 1) =
      .ok (((length : Int) - 1 : Int) / ((count : Int) - 1 : Int)) := if_neg (by omega)
  unfold evenOffset exactOffset exactPlace
  rw [gap, mul_comm]
  rfl

theorem evenOffsets_exact (several : 2 ≤ count) :
    evenOffsets Rat length count = .ok ((List.range count).map (exactOffset length count)) := by
  rw [evenOffsets, if_neg (by omega)]
  exact Outcome.mapM_eq_ok_map fun index _ => evenOffset_exact several

/-- Computed exactly, an offset is nearest to its place. -/
theorem isNearest_exactOffset (several : 2 ≤ count) :
    IsNearest length count index (exactOffset length count index) := by
  apply isNearest_floor several
  rw [sub_self, abs_zero, zero_mul]
  exact one_pos

/-- The next spread light stands behind one by the gap, rounded down or up. -/
theorem exactOffset_succ (length count index : Nat) :
    exactOffset length count (index + 1) - exactOffset length count index =
        ⌊exactGap length count⌋ ∨
      exactOffset length count (index + 1) - exactOffset length count index =
        ⌈exactGap length count⌉ := by
  have next : exactPlace length count (index + 1) + 1 / 2 =
      exactPlace length count index + 1 / 2 + exactGap length count := by
    rw [exactPlace_eq, exactPlace_eq, Nat.cast_succ]
    ring
  unfold exactOffset
  rw [next]
  generalize exactPlace length count index + 1 / 2 = place
  generalize exactGap length count = gap
  have atLeast := Int.le_floor_add place gap
  have atMost : ⌊place + gap⌋ ≤ ⌊place⌋ + ⌈gap⌉ := by
    rw [← Int.floor_add_intCast]
    exact Int.floor_mono (add_le_add_right (Int.le_ceil gap) place)
  have narrow := Int.ceil_le_floor_add_one gap
  omega

end Offsets

/-! ## The lights of a range -/

/-- Lights of a range that a count is spread to: in order, as many as were asked for, or as the
range has if these are fewer, from the first of the range to the last, and with no gap between two
of them but the exact one, rounded down or up. -/
structure IsEvenSpread (range : PixelRange) (count : Nat) (lights : List Nat) : Prop where
  ascending : lights.Pairwise (· < ·)
  inside : ∀ light ∈ lights, range.Contains light
  counted : lights.length = min count range.length
  ends : 2 ≤ count → range.first ∈ lights ∧ range.last ∈ lights
  gaps : 2 ≤ count → count ≤ range.length → lights.IsChain fun (light next : Nat) =>
    (next : Int) - light = ⌊exactGap range.length count⌋ ∨
      (next : Int) - light = ⌈exactGap range.length count⌉

section Range

variable {range : PixelRange} {count : Nat}

/-- A single light in the middle is spread evenly. -/
theorem isEvenSpread_middle (range : PixelRange) :
    IsEvenSpread range 1 ((lightsAt range.length [((range.length / 2 : Nat) : Int)]).map
      (range.first + ·)) where
  ascending := (lightsAt_inside range _).1
  inside := (lightsAt_inside range _).2
  counted := by
    have lit : 0 < range.length := Nat.succ_pos _
    rw [List.length_map, lightsAt_middle lit, min_eq_left lit]
  ends several := by omega
  gaps several := by omega

/-- Several lights at the exact offsets are spread evenly. -/
theorem isEvenSpread_exactOffsets (several : 2 ≤ count) :
    IsEvenSpread range count ((lightsAt range.length
      ((List.range count).map (exactOffset range.length count))).map (range.first + ·)) := by
  have lit : 0 < range.length := Nat.succ_pos _
  have ordered := range.ordered
  have near : ∀ index < count,
      IsNearest range.length count index (exactOffset range.length count index) :=
    fun _ _ => isNearest_exactOffset several
  have bounds := fun index (early : index < count) => (near index early).bounds several lit early
  refine ⟨(lightsAt_inside range _).1, (lightsAt_inside range _).2, ?_, fun _ => ⟨?_, ?_⟩, ?_⟩
  · rw [List.length_map, length_lightsAt_places near several lit]
  · rw [mem_map_lightsAt_iff (places_inside near several lit)]
    refine ⟨_, List.mem_map_of_mem (List.mem_range.mpr (show 0 < count by omega)), ?_, ordered⟩
    rw [place_zero near several lit]
    omega
  · rw [mem_map_lightsAt_iff (places_inside near several lit)]
    refine ⟨_, List.mem_map_of_mem (List.mem_range.mpr (show count - 1 < count by omega)), ?_,
      Nat.le_refl _⟩
    rw [place_last near several lit]
    unfold PixelRange.length
    omega
  · intro _ enough
    rw [lightsAt_of_enough near several enough, List.map_map]
    rw [List.isChain_map, List.isChain_range]
    intro index early
    have here := bounds index (by omega)
    have next := bounds (index + 1) (by omega)
    have step := exactOffset_succ range.length count index
    rw [Nat.succ_eq_add_one, Function.comp_apply, Function.comp_apply]
    omega

end Range

/-- In exact arithmetic, spreading a count over a range lights, besides what the fill colour does,
the same lights whatever the canvas and the colours are, and these are spread evenly. -/
theorem exact_spread_is_even {count : Nat} (positive : 0 < count) (range : PixelRange) :
    ∃ lights, IsEvenSpread range count lights ∧
      ∀ canvas coloring roofline, ∃ painted,
        (Spacing.equallySpaced count).paint Rat canvas range coloring roofline = .ok painted ∧
        (canvas.paintRun? range.first range.length coloring.fill).Repaints coloring.lit
          (· ∈ lights) painted := by
  have lit : 0 < range.length := Nat.succ_pos _
  by_cases one : count = 1
  · subst one
    refine ⟨_, isEvenSpread_middle range, exists_paint_offsets positive (if_pos rfl) ?_⟩
    intro offset mem
    rw [List.mem_singleton] at mem
    omega
  · have several : 2 ≤ count := by omega
    exact ⟨_, isEvenSpread_exactOffsets several, exists_paint_offsets positive
      (evenOffsets_exact several)
      (places_inside (fun _ _ => isNearest_exactOffset several) several lit)⟩

/-- Of four lights, three that are spread are the first and the last two: the middle one would stand
half way between two lights, and goes up. -/
theorem exact_spread_of_three_over_four :
    0 < 3 ∧ ∃ lights painted, IsEvenSpread ⟨10, 13, by decide⟩ 3 lights ∧
      (Spacing.equallySpaced 3).paint Rat .blank ⟨10, 13, by decide⟩ {} none = .ok painted ∧
      painted.showing .pureWhite = [10, 12, 13] := by
  obtain ⟨lights, even, paints⟩ :=
    exact_spread_is_even (show 0 < 3 by decide) ⟨10, 13, by decide⟩
  obtain ⟨painted, isPainted, -⟩ := paints .blank {} none
  have shown : (((Spacing.equallySpaced 3).paint Rat .blank ⟨10, 13, by decide⟩ {} none).map
      fun canvas => canvas.showing .pureWhite).toOption = some [10, 12, 13] := by
    decide +kernel
  obtain ⟨_, same, isShown⟩ := Outcome.exists_ok_of_toOption shown
  cases isPainted.symm.trans same
  exact ⟨by decide, lights, painted, even, isPainted, isShown⟩

end Eaves.Spacing
