import Eaves.Check.Spacing
import Eaves.Proofs.Check.Validation
import Eaves.Proofs.Pixels.Canvas

/-!
# Cycles of lit and dark lights

Painting a cycle stretch by stretch comes to a rule for each light: whether it is lit
depends on its offset modulo the length of the cycle.  Seen this way, the dark gaps
of a range are whole, all but perhaps the one at its end; and that one is whole, or
not begun, exactly where the check of the rule is satisfied.
-/

namespace Eaves

namespace Spacing

/-! ## One light of a cycle -/

/-- Whether the light at an offset is lit in a cycle that starts with its lit lights, or with its
dark ones. -/
def isLitAt (on off : Nat) (startLit : Bool) (offset : Nat) : Bool :=
  if startLit then decide (offset % (on + off) < on) else decide (off ≤ offset % (on + off))

/-- Past its first part, a cycle goes on as one that starts with the other part. -/
theorem add_mod_lt_iff {part other : Nat} (positive : 0 < part + other) (offset : Nat) :
    (offset + part) % (part + other) < part ↔ other ≤ offset % (part + other) := by
  have small := Nat.mod_lt offset positive
  rw [Nat.add_mod_eq_ite]
  by_cases noOther : other = 0
  · subst noOther
    simp only [Nat.add_zero] at small ⊢
    simp only [Nat.mod_self, Nat.add_zero, Nat.zero_le, iff_true]
    split <;> omega
  · rw [Nat.mod_eq_of_lt (show part < part + other by omega)]
    split <;> omega

variable {on off : Nat}

/-- The lights of the first stretch are lit or dark together. -/
theorem isLitAt_of_lt_stretch {isLit : Bool} {offset : Nat}
    (inside : offset < stretch on off isLit) : isLitAt on off isLit offset = isLit := by
  cases isLit with
  | true =>
      have below : offset < on := inside
      simp [isLitAt, Nat.mod_eq_of_lt (show offset < on + off by omega), below]
  | false =>
      have below : offset < off := inside
      simp [isLitAt, Nat.mod_eq_of_lt (show offset < on + off by omega), below]

/-- Behind the first stretch the cycle goes on with the other part, if there is one. -/
theorem isLitAt_stretch_add (positive : 0 < on) {isLit : Bool} (starts : isLit = true ∨ 0 < off)
    (offset : Nat) :
    isLitAt on off isLit (stretch on off isLit + offset) =
      isLitAt on off (!isLit || off == 0) offset := by
  cases isLit with
  | true =>
      have shifted := add_mod_lt_iff (show 0 < on + off by omega) offset
      rw [Nat.add_comm offset on] at shifted
      by_cases noDark : off = 0
      · subst noDark
        simp [isLitAt, stretch, Nat.mod_lt _ positive]
      · simp [isLitAt, stretch, noDark, shifted]
  | false =>
      have someDark : 0 < off := by simpa using starts
      have shifted := add_mod_lt_iff (show 0 < off + on by omega) offset
      rw [Nat.add_comm offset off, Nat.add_comm off on] at shifted
      simpa [isLitAt, stretch] using not_congr shifted

variable {lit : Color} {dark : Option Color}

/-- Painting a stretch lights its lights, or leaves them to the colour for dark ones. -/
theorem getElem?_paintStretch (canvas : Canvas) (isLit : Bool) (first count pixel : Nat) :
    (paintStretch canvas lit dark isLit first count)[pixel]? =
      if first ≤ pixel ∧ pixel < first + count then
        if isLit then some lit else dark.or canvas[pixel]?
      else canvas[pixel]? := by
  unfold paintStretch
  cases isLit with
  | true => simp [Canvas.getElem?_paintRun]
  | false => simp [Canvas.getElem?_paintRun?]

/-- Painting a cycle lights the lights of its lit parts and leaves the dark ones to the colour for
them, if there is one. -/
theorem getElem?_paintCycle (positive : 0 < on) {canvas : Canvas} {isLit : Bool}
    {first remaining : Nat} (starts : isLit = true ∨ 0 < off) (pixel : Nat) :
    (paintCycle lit dark on off canvas isLit first remaining)[pixel]? =
      if first ≤ pixel ∧ pixel < first + remaining then
        if isLitAt on off isLit (pixel - first) then some lit else dark.or canvas[pixel]?
      else canvas[pixel]? := by
  induction canvas, isLit, first, remaining using paintCycle.induct lit dark on off with
  | case1 canvas isLit first remaining count done =>
      have someLights : 0 < count := by
        rcases starts with rfl | someDark
        · exact positive
        · cases isLit <;> assumption
      have noneLeft : remaining = 0 := by omega
      rw [paintCycle, dif_pos done, if_neg (by omega)]
  | case2 canvas isLit first remaining count going _ ih =>
      have goesOn : (!isLit || off == 0) = true ∨ 0 < off := by
        by_cases noDark : off = 0
        · simp [noDark]
        · exact .inr (Nat.pos_of_ne_zero noDark)
      rw [paintCycle, dif_neg going, ih goesOn, getElem?_paintStretch]
      by_cases isBefore : pixel < first
      · rw [if_neg (by omega), if_neg (by omega), if_neg (by omega)]
      · obtain ⟨offset, rfl⟩ := Nat.exists_eq_add_of_le (Nat.le_of_not_lt isBefore)
        rw [Nat.add_sub_cancel_left]
        by_cases inStretch : offset < count
        · have same : first ≤ first + offset ∧ first + offset < first + min count remaining ↔
              first ≤ first + offset ∧ first + offset < first + remaining := by omega
          rw [if_neg (by omega), isLitAt_of_lt_stretch inStretch]
          simp only [same]
        · obtain ⟨rest, rfl⟩ := Nat.exists_eq_add_of_le (Nat.le_of_not_lt inStretch)
          have same : first + count ≤ first + (count + rest) ∧
                first + (count + rest) < first + count + (remaining - count) ↔
              first ≤ first + (count + rest) ∧ first + (count + rest) < first + remaining := by
            omega
          have outside : ¬(first ≤ first + (count + rest) ∧
              first + (count + rest) < first + min count remaining) := by omega
          have offset_eq : first + (count + rest) - (first + count) = rest := by omega
          rw [isLitAt_stretch_add positive starts, if_neg outside, offset_eq]
          simp only [same]

/-- A cycle without dark lights is lit throughout, however it starts. -/
theorem isLitAt_or (positive : 0 < on) (startLit : Bool) (offset : Nat) :
    isLitAt on off (startLit || off == 0) offset = isLitAt on off startLit offset := by
  cases startLit with
  | true => rfl
  | false =>
      by_cases noDark : off = 0
      · subst noDark
        simp [isLitAt, Nat.mod_lt _ positive]
      · rw [beq_eq_false_iff_ne.mpr noDark, Bool.or_false]

/-- Painting a cycle over a range decides light by light, by the offset in the range. -/
theorem exists_paint_pattern {α : Type} [Number.Scalar α] {on : Nat} (positive : 0 < on)
    (off : Nat) (startLit : Bool) (canvas : Canvas) (range : PixelRange) (coloring : Coloring)
    (roofline : Option Roofline) :
    ∃ painted, (Spacing.pattern on off startLit).paint α canvas range coloring roofline =
        .ok painted ∧
      ∀ pixel, painted[pixel]? =
        if range.Contains pixel then
          if isLitAt on off startLit (pixel - range.first) then some coloring.lit
          else coloring.fill.or canvas[pixel]?
        else canvas[pixel]? := by
  have valid : ¬((on : Int) ≤ 0 ∨ (off : Int) < 0) := by omega
  have noDark : ((off : Int) == 0) = (off == 0) := by
    rw [Bool.eq_iff_iff, beq_iff_eq, beq_iff_eq, Int.natCast_eq_zero]
  refine ⟨paintCycle coloring.lit coloring.fill on off canvas (startLit || off == 0) range.first
    range.length, ?_, ?_⟩
  · simp only [paint, if_neg valid, Int.toNat_natCast, noDark]
  intro pixel
  have starts : (startLit || off == 0) = true ∨ 0 < off := by
    by_cases noDark : off = 0
    · simp [noDark]
    · exact .inr (Nat.pos_of_ne_zero noDark)
  rw [getElem?_paintCycle positive starts, isLitAt_or positive]
  simp only [range.contains_iff_lt]

/-- Painting intervals over a range lights the first light of each, by the offset in the range. -/
theorem exists_paint_everyNth {α : Type} [Number.Scalar α] {interval : Nat}
    (positive : 0 < interval) (canvas : Canvas) (range : PixelRange) (coloring : Coloring)
    (roofline : Option Roofline) :
    ∃ painted, (Spacing.everyNth interval).paint α canvas range coloring roofline = .ok painted ∧
      ∀ pixel, painted[pixel]? =
        if range.Contains pixel then
          if (pixel - range.first) % interval = 0 then some coloring.lit
          else coloring.fill.or canvas[pixel]?
        else canvas[pixel]? := by
  have valid : ¬(interval : Int) ≤ 0 := by omega
  have paints : (Spacing.everyNth interval).paint α canvas range coloring roofline =
      .ok ((everyNthPixels range interval).foldl
        (fun canvas pixel => canvas.insert pixel coloring.lit)
        (canvas.paintRun? range.first range.length coloring.fill)) := by
    simp only [paint, if_neg valid, Int.toNat_natCast]
  refine ⟨_, paints, ?_⟩
  intro pixel
  have repaints := Canvas.Repaints.foldl
    (fun (work : Canvas) first => Canvas.Repaints.insert work first coloring.lit)
    (everyNthPixels range interval)
    (canvas.paintRun? range.first range.length coloring.fill) pixel
  simp only [exists_eq_right', mem_everyNthPixels_iff positive] at repaints
  by_cases isFirst : range.Contains pixel ∧ (pixel - range.first) % interval = 0
  · rw [repaints.1 isFirst, if_pos isFirst.1, if_pos isFirst.2]
  · rw [repaints.2 isFirst, Canvas.getElem?_paintRun?]
    simp only [range.contains_iff_lt]
    by_cases inside : range.Contains pixel
    · rw [if_pos inside, if_pos inside, if_neg fun isMultiple => isFirst ⟨inside, isMultiple⟩]
    · rw [if_neg inside, if_neg inside]

/-- Painting a cycle, at least one light lit in it, decides by the offset of a light in the range,
modulo the length of the cycle.  A cycle that starts lit lights the offsets below its lit part, one
that starts dark those from its dark part on; the other lights of the range get the colour for dark
ones if there is one, and neither they without one nor the lights outside the range change.  So
every light of an interval but the first is dark as in a cycle of one lit light, and painting
without gaps is a cycle without dark lights. -/
theorem cycle_paints_by_offset {α : Type} [Number.Scalar α] {on off : Int} (litPart : 1 ≤ on)
    (darkPart : 0 ≤ off) (startLit : Bool) (canvas : Canvas) (range : PixelRange)
    (coloring : Coloring) (roofline : Option Roofline) :
    (∃ painted, (Spacing.pattern on off startLit).paint α canvas range coloring roofline =
        .ok painted ∧
      (∀ pixel : Nat, range.Contains pixel →
        (startLit = true → painted[pixel]? =
          if ((pixel : Int) - range.first) % (on + off) < on then
            some (coloring.accent.getD coloring.primary)
          else coloring.fill.or canvas[pixel]?) ∧
        (startLit = false → painted[pixel]? =
          if off ≤ ((pixel : Int) - range.first) % (on + off) then
            some (coloring.accent.getD coloring.primary)
          else coloring.fill.or canvas[pixel]?)) ∧
      ∀ pixel : Nat, ¬range.Contains pixel → painted[pixel]? = canvas[pixel]?) ∧
    (∀ interval : Int, 1 ≤ interval → ∃ painted other,
      (Spacing.everyNth interval).paint α canvas range coloring roofline = .ok painted ∧
      (Spacing.pattern 1 (interval - 1) true).paint α canvas range coloring roofline = .ok other ∧
      painted.toList = other.toList) ∧
    ∀ (count : Int) (anyStart : Bool), 1 ≤ count → ∃ painted other,
      Spacing.continuous.paint α canvas range coloring roofline = .ok painted ∧
      (Spacing.pattern count 0 anyStart).paint α canvas range coloring roofline = .ok other ∧
      painted.toList = other.toList := by
  refine ⟨?_, ?_, ?_⟩
  · obtain ⟨on, rfl⟩ := Int.eq_ofNat_of_zero_le (show 0 ≤ on by omega)
    obtain ⟨off, rfl⟩ := Int.eq_ofNat_of_zero_le darkPart
    obtain ⟨painted, paints, lights⟩ := exists_paint_pattern (α := α) (show 0 < on by omega) off
      startLit canvas range coloring roofline
    refine ⟨painted, paints, ?_, fun pixel outside => by rw [lights, if_neg outside]⟩
    intro pixel inside
    have offset : ((pixel : Int) - range.first) % (on + off) =
        ((pixel - range.first) % (on + off) : Nat) := by
      rw [Int.natCast_emod, Int.natCast_add, Int.natCast_sub inside.1]
    rw [lights, if_pos inside, offset]
    constructor
    · rintro rfl
      simp only [isLitAt, if_true, decide_eq_true_eq, Int.ofNat_lt, Coloring.lit]
    · rintro rfl
      simp only [isLitAt, Bool.false_eq_true, if_false, decide_eq_true_eq, Int.ofNat_le,
        Coloring.lit]
  · intro interval positive
    obtain ⟨more, rfl⟩ := Int.eq_ofNat_of_zero_le (show 0 ≤ interval by omega)
    obtain ⟨painted, paints, lights⟩ := exists_paint_everyNth (α := α) (show 0 < more by omega)
      canvas range coloring roofline
    obtain ⟨other, paintsOther, otherLights⟩ := exists_paint_pattern (α := α) Nat.one_pos
      (more - 1) true canvas range coloring roofline
    refine ⟨painted, other, paints, ?_, ?_⟩
    · rwa [Int.natCast_sub (by omega)] at paintsOther
    · apply Canvas.toList_congr
      intro pixel
      have whole : 1 + (more - 1) = more := by omega
      simp [lights, otherLights, isLitAt, whole]
  · intro count anyStart positive
    obtain ⟨count, rfl⟩ := Int.eq_ofNat_of_zero_le (show 0 ≤ count by omega)
    have some : 0 < count := by omega
    obtain ⟨other, paintsOther, otherLights⟩ := exists_paint_pattern (α := α) some 0 anyStart
      canvas range coloring roofline
    refine ⟨_, other, rfl, paintsOther, ?_⟩
    apply Canvas.toList_congr
    intro pixel
    have isLit : isLitAt count 0 anyStart (pixel - range.first) = true := by
      cases anyStart <;> simp [isLitAt, Nat.mod_lt _ some]
    rw [Canvas.getElem?_paintRun, otherLights, isLit]
    simp only [range.contains_iff_lt, if_true]

/-- Two lit lights and three dark ones, by turns over seven lights, the dark ones first: the fourth
and the fifth light are lit, and no others. -/
theorem cycle_paints_by_offset_darkFirst :
    (1 : Int) ≤ 2 ∧ (0 : Int) ≤ 3 ∧
      ∃ painted, (Spacing.pattern 2 3 false).paint Number.Binary64 Canvas.blank
          ⟨4, 10, by decide⟩ { accent := some ⟨255, 0, 0, 0⟩ } none = .ok painted ∧
        painted[6]? = none ∧ painted[7]? = some ⟨255, 0, 0, 0⟩ ∧ painted[9]? = none := by
  obtain ⟨⟨painted, paints, inside, -⟩, -⟩ := cycle_paints_by_offset (α := Number.Binary64)
    (show (1 : Int) ≤ 2 by decide) (show (0 : Int) ≤ 3 by decide) false Canvas.blank
    ⟨4, 10, by decide⟩ { accent := some ⟨255, 0, 0, 0⟩ } none
  refine ⟨by decide, by decide, painted, paints, ?_, ?_, ?_⟩
  · rw [(inside 6 (by decide)).2 rfl, if_neg (by decide)]
    simp
  · rw [(inside 7 (by decide)).2 rfl, if_pos (by decide)]
    rfl
  · rw [(inside 9 (by decide)).2 rfl, if_neg (by decide)]
    simp

end Spacing

/-! ## Dark gaps -/

/-- The `count` lights from `first` on are a dark gap of a range: they lie in the range, none of
them is lit, and the lights next to them are lit or lie outside the range. -/
structure Canvas.IsGap (canvas : Canvas) (range : PixelRange) (first count : Nat) : Prop where
  nonempty : 0 < count
  starts : range.first ≤ first
  ends : first + count ≤ range.last + 1
  dark : ∀ pixel, first ≤ pixel → pixel < first + count → canvas[pixel]? = none
  litBefore : range.first < first → canvas[first - 1]? ≠ none
  litBehind : first + count ≤ range.last → canvas[first + count]? ≠ none

namespace Spacing

variable {on off : Nat} {canvas : Canvas} {range : PixelRange}

/-- The lights of a range are dark where a cycle that starts lit has its dark part. -/
def FollowsCycle (canvas : Canvas) (range : PixelRange) (on off : Nat) : Prop :=
  ∀ offset, offset < range.length →
    (canvas[range.first + offset]? = none ↔ on ≤ offset % (on + off))

theorem FollowsCycle.dark_iff (follows : FollowsCycle canvas range on off) (cycles offset : Nat)
    (inCycle : offset < on + off) (inside : (on + off) * cycles + offset < range.length) :
    canvas[range.first + ((on + off) * cycles + offset)]? = none ↔ on ≤ offset := by
  rw [follows _ inside, Nat.mul_add_mod, Nat.mod_eq_of_lt inCycle]

/-- Where the cycle leaves no dark rest at the end, every gap has the length of its dark part. -/
theorem FollowsCycle.gap_eq (follows : FollowsCycle canvas range on off) (positive : 0 < on)
    (fits : range.length % (on + off) ≤ on) {first count : Nat}
    (gap : canvas.IsGap range first count) : count = off := by
  have ordered := range.ordered
  have length_eq : range.length = range.last - range.first + 1 := rfl
  rcases gap with ⟨nonempty, starts, ends, dark, litBefore, litBehind⟩
  obtain ⟨start, rfl⟩ := Nat.exists_eq_add_of_le starts
  have inCycle := Nat.mod_lt start (show 0 < on + off by omega)
  have start_eq := Nat.div_add_mod start (on + off)
  generalize start / (on + off) = cycles at start_eq
  generalize start % (on + off) = offset at start_eq inCycle
  subst start_eq
  -- a gap starts with the dark part, since the light before it is lit
  have atDark : offset = on := by
    have isDark := (follows.dark_iff cycles offset inCycle (by omega)).mp
      (dark _ (Nat.le_refl _) (by omega))
    by_contra later
    apply litBefore (by omega)
    have before := (follows.dark_iff cycles (offset - 1) (by omega) (by omega)).mpr (by omega)
    rwa [show range.first + ((on + off) * cycles + offset) - 1 =
      range.first + ((on + off) * cycles + (offset - 1)) by omega]
  subst offset
  apply Nat.le_antisymm
  · -- it does not go on into the next lit part
    by_contra longer
    have litAgain := (follows.dark_iff (cycles + 1) 0 (by omega)
      (by rw [Nat.mul_add]; omega)).not.mpr (by omega)
    apply litAgain
    apply dark
    · rw [Nat.mul_add]
      omega
    · rw [Nat.mul_add]
      omega
  · -- it does not end before it, unless the range does
    by_contra shorter
    have inCycle : on + count < on + off := by omega
    by_cases goesOn : range.first + ((on + off) * cycles + on) + count ≤ range.last
    · apply litBehind goesOn
      have behind := (follows.dark_iff cycles (on + count) inCycle (by omega)).mpr (by omega)
      rwa [show range.first + ((on + off) * cycles + on) + count =
        range.first + ((on + off) * cycles + (on + count)) by omega]
    · have whole : range.length = (on + off) * cycles + (on + count) := by omega
      rw [whole, Nat.mul_add_mod, Nat.mod_eq_of_lt inCycle] at fits
      omega

/-- A dark rest at the end is a gap that is cut short. -/
theorem FollowsCycle.isGap_rest (follows : FollowsCycle canvas range on off) (positive : 0 < on)
    (rest : on < range.length % (on + off)) :
    canvas.IsGap range (range.first + ((on + off) * (range.length / (on + off)) + on))
      (range.length % (on + off) - on) := by
  have ordered := range.ordered
  have length_eq : range.length = range.last - range.first + 1 := rfl
  have inCycle := Nat.mod_lt range.length (show 0 < on + off by omega)
  have whole := Nat.div_add_mod range.length (on + off)
  generalize range.length / (on + off) = cycles at whole
  generalize range.length % (on + off) = left at whole inCycle rest
  constructor
  · omega
  · omega
  · omega
  · intro pixel from_ upTo
    have dark := (follows.dark_iff cycles (pixel - range.first - (on + off) * cycles)
      (by omega) (by omega)).mpr (by omega)
    rwa [show range.first + ((on + off) * cycles + (pixel - range.first - (on + off) * cycles)) =
      pixel by omega] at dark
  · intro _
    have lit := (follows.dark_iff cycles (on - 1) (by omega) (by omega)).not.mpr (by omega)
    rwa [show range.first + ((on + off) * cycles + on) - 1 =
      range.first + ((on + off) * cycles + (on - 1)) by omega]
  · omega

/-- In a range that follows a cycle, every gap has the length of its dark part exactly where what
remains after the full cycles is at most its lit part. -/
theorem FollowsCycle.forall_gap_eq_iff (follows : FollowsCycle canvas range on off)
    (positive : 0 < on) :
    (∀ first count, canvas.IsGap range first count → count = off) ↔
      range.length % (on + off) ≤ on := by
  constructor
  · intro whole
    by_contra rest
    have cut := whole _ _ (follows.isGap_rest positive (Nat.lt_of_not_le rest))
    have inCycle := Nat.mod_lt range.length (show 0 < on + off by omega)
    omega
  · intro fits first count gap
    exact follows.gap_eq positive fits gap

/-- A range that is painted with a cycle that starts lit, and with nothing else, follows it. -/
theorem exists_paint_followsCycle {α : Type} [Number.Scalar α] {on : Nat} (positive : 0 < on)
    (off : Nat) (range : PixelRange) {coloring : Coloring} (noFill : coloring.fill = none)
    (roofline : Option Roofline) :
    ∃ painted, (Spacing.pattern on off true).paint α Canvas.blank range coloring roofline =
        .ok painted ∧ FollowsCycle painted range on off := by
  obtain ⟨painted, paints, lights⟩ :=
    exists_paint_pattern (α := α) positive off true Canvas.blank range coloring roofline
  refine ⟨painted, paints, ?_⟩
  intro offset inside
  have contained : range.Contains (range.first + offset) := by
    have := range.ordered
    unfold PixelRange.length at inside
    unfold PixelRange.Contains
    omega
  rw [lights, if_pos contained, noFill, Nat.add_sub_cancel_left]
  simp [isLitAt]

end Spacing

end Eaves
