import Eaves.Proofs.Number.Grid
import Eaves.Proofs.Pixels.EvenCount
import Mathlib.Data.List.Range

/-!
# Whether spread lights stand evenly

Painting spreads a count of lights from the first light of a range to the last, so the
gaps between them share out one light less than the range has.  They are all the same
exactly where the gaps divide that number.

The check of an even spacing divides all the lights by the gaps and asks whether the
ratio is nearly whole.  It computes with rounded numbers, but a ratio that is off the
tolerance is further off than all roundings together, so what it asks is whether the
lights are within a hundredth of the gaps of a multiple of them.  The two numbers that
are divided follow each other, and only a single gap divides both.
-/

namespace Eaves

open Number (Binary64)

/-! ## Nearly whole ratios -/

namespace Check

open Outcome

/-- How far a number is from the nearest multiple of another. -/
def fromMultiple (n d : Nat) : Nat :=
  min (n % d) (d - n % d)

/-- No multiple is nearer. -/
theorem fromMultiple_le {n d : Nat} (some : 0 < d) (m : Int) :
    (fromMultiple n d : Int) ≤ |(n : Int) - m * d| := by
  have split := Nat.mod_add_div n d
  have rest := Nat.mod_lt n some
  unfold fromMultiple
  generalize n % d = left at *
  generalize n / d = whole at *
  have shape : (n : Int) - m * d = left + (whole - m) * d := by
    rw [← split]
    push_cast
    ring
  rw [shape]
  rcases le_or_gt 0 ((whole : Int) - m) with above | below
  · have := mul_nonneg above (show (0 : Int) ≤ d by omega)
    rw [abs_of_nonneg (by omega)]
    omega
  · have := mul_le_mul_of_nonneg_right (show (whole : Int) - m ≤ -1 by omega)
      (show (0 : Int) ≤ d by omega)
    rw [abs_of_nonpos (by omega)]
    omega

/-- Some multiple is that near. -/
theorem exists_fromMultiple {n d : Nat} (some : 0 < d) :
    ∃ m : Int, (fromMultiple n d : Int) = |(n : Int) - m * d| := by
  have split := Nat.mod_add_div n d
  have rest := Nat.mod_lt n some
  unfold fromMultiple
  generalize n % d = left at *
  generalize n / d = whole at *
  have shape : (n : Int) = left + whole * d := by
    rw [← split]
    push_cast
    ring
  rcases le_total left (d - left) with low | high
  · refine ⟨whole, ?_⟩
    rw [min_eq_left low, shape, add_sub_cancel_right, abs_of_nonneg (by omega)]
  · refine ⟨whole + 1, ?_⟩
    have beyond : (n : Int) - (whole + 1) * d = left - d := by
      rw [shape]
      ring
    rw [min_eq_right high, beyond, abs_of_nonpos (by omega)]
    omega

theorem fromMultiple_eq_zero_iff {n d : Nat} (some : 0 < d) : fromMultiple n d = 0 ↔ d ∣ n := by
  have rest := Nat.mod_lt n some
  rw [Nat.dvd_iff_mod_eq_zero, fromMultiple]
  omega

/-- A number is nearly whole where its difference from the nearest integer, rounded into the format,
is below the tolerance. -/
theorem nearInteger_eq {step tolerance : Rat} {whole : Nat} (rounds : Number.roundEven step = whole)
    (some : 0 < whole) (small : whole < 2 ^ 53) :
    nearInteger (.finite step) (.finite tolerance) =
      .ok (decide (|Binary64.nearest (step - whole)| < tolerance)) := by
  have near := Number.roundEven_near step
  rw [rounds, Int.cast_natCast, abs_sub_comm] at near
  have wholeRat : (whole : Rat) < 2 ^ 53 := by exact_mod_cast small
  have nonzero : (whole : Rat) ≠ 0 := by exact_mod_cast some.ne'
  have isRounded : (Binary64.finite step).round = .ok whole := by
    rw [← rounds]
    rfl
  have isRead : Binary64.ofInt whole = .ok (.finite whole) := by
    rw [Binary64.ofInt_eq, Int.cast_natCast, Binary64.nearest_natCast small]
    rw [abs_of_nonneg (by omega)]
    omega
  rw [nearInteger, isRounded, ok_bind, isRead, ok_bind,
    Binary64.sub_eq nonzero (near.trans (by norm_num)), Binary64.abs_finite]
  rfl


/-- Numbers near two that lie further apart compare as those do. -/
theorem lt_iff_of_apart {x y a b : Rat} (apart : |x - a| + |y - b| < |a - b|) : x < y ↔ a < b := by
  rcases lt_or_ge a b with below | above
  · rw [abs_of_neg (sub_neg.mpr below)] at apart
    have := le_abs_self (x - a)
    have := neg_abs_le (y - b)
    exact iff_of_true (by linarith) below
  · rw [abs_of_nonneg (sub_nonneg.mpr above)] at apart
    have := neg_abs_le (x - a)
    have := le_abs_self (y - b)
    exact iff_of_false (by linarith) (by linarith)

/-- A number is about as far from the nearest integer as a ratio that it is near to. -/
theorem abs_roundEven_sub_ratio_near {n d : Nat} (some : 0 < d) (step : Rat) :
    |(|step - Number.roundEven step| - (fromMultiple n d : Rat) / d)| ≤ |step - (n : Rat) / d| := by
  have positive : (0 : Rat) < d := by exact_mod_cast some
  have scale : ∀ m : Int, |(m : Rat) - (n : Rat) / d| * d = (|(n : Int) - m * d| : Int) := by
    intro m
    push_cast
    rw [abs_sub_comm, ← abs_of_pos positive, ← abs_mul, abs_of_pos positive, sub_mul,
      div_mul_cancel₀ _ positive.ne']
  have least : ∀ m : Int, (fromMultiple n d : Rat) / d ≤ |(m : Rat) - (n : Rat) / d| := by
    intro m
    rw [div_le_iff₀ positive, scale]
    exact_mod_cast fromMultiple_le some m
  obtain ⟨m, isDistance⟩ := exists_fromMultiple (n := n) some
  have attained : |(m : Rat) - (n : Rat) / d| = (fromMultiple n d : Rat) / d := by
    rw [eq_div_iff positive.ne', scale, ← isDistance, Int.cast_natCast]
  have nearest := Number.abs_roundEven_sub_le step m
  have atLeast := least (Number.roundEven step)
  have byRounded := abs_sub_le (Number.roundEven step : Rat) step ((n : Rat) / d)
  have byWhole := abs_sub_le (m : Rat) ((n : Rat) / d) step
  rw [abs_sub_comm ((n : Rat) / d) step] at byWhole
  rw [abs_sub_comm step, abs_le]
  constructor <;> linarith


/-- Lights divided by gaps are nearly whole where the ratio, rounded into the format, differs from
the nearest integer by less than the tolerance, each number rounded. -/
theorem dividesNearly_iff_of_small {n d : Nat} (some : 0 < d) (fewer : d ≤ n) (small : n < 2 ^ 50) :
    ∃ whole : Nat, Number.roundEven (Binary64.nearest ((n : Rat) / d)) = whole ∧
      (DividesNearly n d {} ↔
        |Binary64.nearest (Binary64.nearest ((n : Rat) / d) - whole)| <
          Binary64.nearest (1 / 100)) := by
  have positive : (0 : Rat) < d := by exact_mod_cast some
  have atLeastOne : (1 : Rat) ≤ (n : Rat) / d := by
    rw [le_div_iff₀ positive, one_mul]
    exact_mod_cast fewer
  have smallRat : (n : Rat) < 2 ^ 50 := by exact_mod_cast small
  have atMost : (n : Rat) / d ≤ n := div_le_self (by positivity) (by exact_mod_cast some)
  have isRatio : ratio n d = .ok (.finite (Binary64.nearest ((n : Rat) / d))) := by
    have quotient := Binary64.quotient_eq (n := n) (d := d) (by omega)
      (by rw [Int.cast_natCast, Int.cast_natCast, abs_of_nonneg (by linarith)]; linarith)
    rw [ratio, quotient]
    rfl
  have isTolerance : ({} : CheckSettings).spacingTolerance =
      .finite (Binary64.nearest (1 / 100)) := by
    have isHundredth : (Number.tenTo 2 : Nat) = 100 := rfl
    rw [← Binary64.ofRat_eq (by norm_num)]
    show Binary64.ofRat (mkRat 1 (Number.tenTo 2)) = _
    rw [isHundredth, Rat.mkRat_eq_div]
    norm_num
  have stepNear := Binary64.abs_nearest_sub_le ((n : Rat) / d)
  rw [abs_of_nonneg (show 0 ≤ (n : Rat) / d by linarith)] at stepNear
  generalize (n : Rat) / d = exact at *
  generalize Binary64.nearest exact = step at *
  have stepRange := abs_le.mp stepNear
  have roundRange := abs_le.mp (Number.roundEven_near step)
  have above : 0 < Number.roundEven step := by
    have : (0 : Rat) < Number.roundEven step := by linarith
    exact_mod_cast this
  have below : Number.roundEven step < 2 ^ 53 := by
    have : (Number.roundEven step : Rat) < 2 ^ 53 := by linarith
    exact_mod_cast this
  obtain ⟨whole, isWhole⟩ := Int.eq_ofNat_of_zero_le above.le
  refine ⟨whole, isWhole, ?_⟩
  have decides : nearInteger (.finite step) (.finite (Binary64.nearest (1 / 100))) =
      .ok (decide (|Binary64.nearest (step - whole)| < Binary64.nearest (1 / 100))) :=
    nearInteger_eq isWhole (by omega) (by omega)
  unfold DividesNearly
  rw [isRatio, isTolerance]
  constructor
  · rintro ⟨same, isSame, isNear⟩
    cases isSame
    rw [decides] at isNear
    exact of_decide_eq_true (Except.ok.inj isNear)
  · intro isNear
    exact ⟨_, rfl, by rw [decides, decide_eq_true isNear]⟩

/-- Gaps that divide the lights do so nearly: the ratio is a whole number, and nothing is rounded
but the tolerance. -/
theorem dividesNearly_of_dvd {n d : Nat} (some : 0 < d) (fewer : d ≤ n) (small : n < 2 ^ 50)
    (multiple : d ∣ n) : DividesNearly n d {} := by
  obtain ⟨whole, isWhole, divides⟩ := dividesNearly_iff_of_small some fewer small
  rw [divides]
  obtain ⟨quotient, rfl⟩ := multiple
  have exact : ((d * quotient : Nat) : Rat) / d = quotient := by
    rw [Nat.cast_mul, mul_div_cancel_left₀ _ (Nat.cast_ne_zero.mpr some.ne')]
  have below : quotient ≤ d * quotient := Nat.le_mul_of_pos_left _ some
  rw [exact, Binary64.nearest_natCast (by omega)] at isWhole ⊢
  have near := Number.roundEven_near quotient
  rw [isWhole, Int.cast_natCast] at near
  have same : whole = quotient := by
    have := Binary64.eq_of_abs_sub_lt (m := whole) (n := quotient) (near.trans_lt (by norm_num))
    exact_mod_cast this
  have hundredth := Binary64.abs_nearest_sub_le (1 / 100)
  rw [abs_of_nonneg (by norm_num : (0 : Rat) ≤ 1 / 100)] at hundredth
  have tolerated := (abs_le.mp hundredth).1
  rw [same, sub_self, Binary64.nearest_zero, abs_zero]
  linarith

/-- A ratio that is not whole and not at the tolerance is further from it than three roundings of
the ratio can take it. -/
theorem lt_abs_fromMultiple_sub {n d : Nat} (some : 0 < d) (off : 0 < fromMultiple n d)
    (clear : 100 * fromMultiple n d ≠ d) (precise : (d + 1) * n < 2 ^ 48) :
    3 * ((n : Rat) / d) / 2 ^ 53 < |(fromMultiple n d : Rat) / d - 1 / 100| := by
  have positive : (0 : Rat) < d := by exact_mod_cast some
  have scaled : 300 * (n : Int) < |100 * (fromMultiple n d : Int) - d| * 2 ^ 53 := by
    by_cases short : d ≤ 50
    · have := le_abs_self (100 * (fromMultiple n d : Int) - d)
      have := Nat.mul_le_mul_right n (show 2 ≤ d + 1 by omega)
      omega
    · have := Int.one_le_abs (show 100 * (fromMultiple n d : Int) - d ≠ 0 by omega)
      have := Nat.mul_le_mul_right n (show 52 ≤ d + 1 by omega)
      omega
  have scaledRat : 300 * (n : Rat) < |100 * (fromMultiple n d : Rat) - d| * 2 ^ 53 := by
    exact_mod_cast scaled
  have apart : (fromMultiple n d : Rat) / d - 1 / 100 =
      (100 * (fromMultiple n d : Rat) - d) / (100 * d) := by
    field_simp
  rw [apart, abs_div, abs_of_pos (show (0 : Rat) < 100 * d by linarith), mul_div_assoc',
    div_div, div_lt_div_iff₀ (by positivity) (by positivity)]
  have := mul_lt_mul_of_pos_right scaledRat positive
  linarith

/-- Gaps divide the lights nearly where these are within a hundredth of the gaps of a multiple of
them.  At exactly a hundredth it is rounding that decides. -/
theorem dividesNearly_iff {n d : Nat} (some : 0 < d) (fewer : d ≤ n)
    (precise : (d + 1) * n < 2 ^ 48) (clear : 100 * fromMultiple n d ≠ d) :
    DividesNearly n d {} ↔ 100 * fromMultiple n d < d := by
  have positive : (0 : Rat) < d := by exact_mod_cast some
  have small : n < 2 ^ 50 := by
    have := Nat.mul_le_mul_right n (show 1 ≤ d + 1 by omega)
    omega
  by_cases multiple : d ∣ n
  · rw [(fromMultiple_eq_zero_iff some).mpr multiple]
    exact iff_of_true (dividesNearly_of_dvd some fewer small multiple) (by omega)
  have off : 0 < fromMultiple n d :=
    Nat.pos_of_ne_zero fun zero => multiple ((fromMultiple_eq_zero_iff some).mp zero)
  have margin := lt_abs_fromMultiple_sub some off clear precise
  obtain ⟨whole, isWhole, divides⟩ := dividesNearly_iff_of_small some fewer small
  have distance := abs_roundEven_sub_ratio_near (n := n) some (Binary64.nearest ((n : Rat) / d))
  have rounded := Number.roundEven_near (Binary64.nearest ((n : Rat) / d))
  rw [isWhole, Int.cast_natCast] at distance rounded
  rw [abs_sub_comm] at rounded
  have wholeRatio : (1 : Rat) ≤ (n : Rat) / d := by
    rw [le_div_iff₀ positive, one_mul]
    exact_mod_cast fewer
  have stepNear := Binary64.abs_nearest_sub_le ((n : Rat) / d)
  rw [abs_of_nonneg (show 0 ≤ (n : Rat) / d by linarith)] at stepNear
  have restNear := Binary64.abs_nearest_sub_le (Binary64.nearest ((n : Rat) / d) - whole)
  have hundredth := Binary64.abs_nearest_sub_le (1 / 100)
  rw [abs_of_nonneg (by norm_num : (0 : Rat) ≤ 1 / 100)] at hundredth
  have compared : |Binary64.nearest (Binary64.nearest ((n : Rat) / d) - whole)| <
      Binary64.nearest (1 / 100) ↔ (fromMultiple n d : Rat) / d < 1 / 100 := by
    apply lt_iff_of_apart
    apply lt_of_le_of_lt _ margin
    generalize (n : Rat) / d = exact at *
    generalize Binary64.nearest exact = step at *
    have magnitudes := abs_abs_sub_abs_le (Binary64.nearest (step - whole)) (step - whole)
    have apart := abs_sub_le |Binary64.nearest (step - whole)| |step - whole|
      ((fromMultiple n d : Rat) / d)
    linarith
  rw [divides, compared, div_lt_div_iff₀ positive (by norm_num)]
  norm_cast
  omega

end Check

/-! ## Places with the same gap -/

/-- Lights stand evenly when the gap between one and the next is the same everywhere. -/
def StandEvenly (lights : List Nat) : Prop :=
  ∃ gap, lights.IsChain fun light next => next = light + gap

namespace Spacing

section Even

variable {length count : Nat} {place : Nat → Int}
  (near : ∀ index < count, IsNearest length count index (place index))

include near

/-- Places nearest to those of lights that are spread over a span are the multiples of one gap
where the gaps divide the span. -/
theorem place_eq_of_dvd (several : 2 ≤ count) (lit : 0 < length) {gap : Nat}
    (span : length - 1 = (count - 1) * gap) {index : Nat} (early : index < count) :
    place index = index * gap := by
  obtain ⟨low, high⟩ := isNearest_iff.mp (near index early)
  obtain ⟨steps, rfl⟩ : ∃ steps, count = steps + 1 := ⟨count - 1, by omega⟩
  have spanInt : (length : Int) - 1 = steps * gap := by
    rw [Nat.add_sub_cancel] at span
    have : ((length - 1 : Nat) : Int) = (steps * gap : Nat) := by rw [span]
    push_cast at this
    omega
  have some : (0 : Int) < steps := by omega
  rw [spanInt, Nat.cast_succ, add_sub_cancel_right] at low high
  -- a place further on or before would be off by a whole step
  have apart : (index * (steps * gap) : Int) = (index * gap) * steps := by ring
  rw [apart] at low high
  generalize (index * gap : Int) = ideal at *
  have above : ideal ≤ place index := by
    by_contra before
    have := mul_le_mul_of_nonneg_right (show place index + 1 ≤ ideal by omega) some.le
    rw [add_mul, one_mul] at this
    omega
  have below : place index ≤ ideal := by
    by_contra behind
    have := mul_le_mul_of_nonneg_right (show ideal + 1 ≤ place index by omega) some.le
    rw [add_mul, one_mul] at this
    omega
  omega

/-- Lights at places nearest to those that are spread stand evenly exactly where the gaps divide
the span from the first light to the last. -/
theorem standEvenly_map_iff (several : 2 ≤ count) (lit : 0 < length) (first : Nat) :
    StandEvenly ((List.range count).map fun index => first + (place index).toNat) ↔
      count - 1 ∣ length - 1 := by
  have inside : ∀ index < count, 0 ≤ place index := fun index early =>
    ((near index early).bounds several lit early).1
  unfold StandEvenly
  simp only [List.isChain_map, List.isChain_range]
  constructor
  · rintro ⟨gap, chain⟩
    have multiples : ∀ index < count, place index = index * gap := by
      intro index early
      induction index with
      | zero =>
          rw [Int.natCast_zero, zero_mul]
          exact place_zero near several lit
      | succ index ih =>
          have before := ih (by omega)
          have next := chain index (by omega)
          have := inside (index + 1) early
          have := inside index (by omega)
          rw [Nat.succ_eq_add_one] at next
          push_cast
          rw [add_mul, one_mul]
          omega
    have last := place_last near several lit
    rw [multiples (count - 1) (by omega)] at last
    refine ⟨gap, ?_⟩
    have : (((count - 1) * gap : Nat) : Int) = (length : Int) - 1 := by
      rw [← last, Int.natCast_mul]
    omega
  · rintro ⟨gap, span⟩
    refine ⟨gap, ?_⟩
    intro index early
    have here : place index = index * gap := place_eq_of_dvd near several lit span (by omega)
    have next : place (index + 1) = (index + 1 : Nat) * gap :=
      place_eq_of_dvd near several lit span (by omega)
    push_cast at next
    rw [add_mul, one_mul] at next
    have := inside index (by omega)
    rw [Nat.succ_eq_add_one]
    omega

end Even

/-- Painting a count of lights over a range where nothing is lit shows them at the places nearest to
those of lights that are spread exactly, in order. -/
theorem exists_paint_places {count : Nat} (several : 2 ≤ count) {range : PixelRange}
    (enough : count ≤ range.length) (precise : count * range.length < 2 ^ 48)
    {coloring : Coloring} (otherFill : coloring.fill ≠ some coloring.lit)
    (roofline : Option Roofline) :
    ∃ painted, (Spacing.equallySpaced count).paint Binary64 .blank range coloring roofline =
        .ok painted ∧
      painted.showing coloring.lit = (List.range count).map fun index =>
        range.first + (roundedPlace range.length count index).toNat := by
  have lit : 0 < range.length := Nat.succ_pos _
  have short : range.length < 2 ^ 48 :=
    lt_of_le_of_lt (Nat.le_mul_of_pos_left _ (by omega)) precise
  have near := fun index (early : index < count) =>
    isNearest_roundedPlace several lit early precise
  have computed := evenOffsets_eq several (show range.length < 2 ^ 120 by omega)
    (show count < 2 ^ 120 by omega)
  have spread : spreadLights count range = (List.range count).map fun index =>
      range.first + (roundedPlace range.length count index).toNat := by
    unfold spreadLights
    rw [computed]
    dsimp only
    rw [lightsAt_of_enough near several enough, List.map_map]
    rfl
  obtain ⟨painted, paints, decides⟩ := exists_paint_equallySpaced
    (show (0 : Int) < count by omega) (by exact_mod_cast precise) otherFill roofline .blank
  rw [Int.toNat_natCast] at decides
  refine ⟨painted, paints, ?_⟩
  rw [← spread]
  apply (Canvas.pairwise_showing painted coloring.lit).eq_of_mem_iff
    (pairwise_spreadLights count range)
  intro pixel
  rw [Canvas.mem_showing_iff]
  by_cases contained : range.Contains pixel
  · exact decides.inside pixel contained (Canvas.getElem?_blank pixel)
  · rw [decides.outside pixel contained, Canvas.getElem?_blank]
    exact iff_of_false (by simp)
      fun mem => contained ((spreadLights_spec (by omega) precise).2.1 pixel mem)

/-- The verdict on a count of lights, two at least, and the lights that are lit for it both come to
a division by the gaps, but not of the same number.  The lights stand evenly where the gaps divide
the lights there are less one.  The check is satisfied where all the lights are within a hundredth
of the gaps of a multiple of them.  So up to a hundred lights, the check says whether they stand
evenly where there is a single gap and where the gaps divide neither number, and nowhere else. -/
theorem even_spacing_checked_iff {count : Nat} (several : 2 ≤ count) {range : PixelRange}
    (enough : count ≤ range.length) (precise : count * range.length < 2 ^ 48)
    {coloring : Coloring} (otherFill : coloring.fill ≠ some coloring.lit)
    (roofline : Option Roofline) (layerId : Option String) :
    ∃ verdict painted,
      Check.spacing range.length (.equallySpaced count) {} layerId = .ok verdict ∧
      (Spacing.equallySpaced count).paint Binary64 .blank range coloring roofline = .ok painted ∧
      (StandEvenly (painted.showing coloring.lit) ↔ count - 1 ∣ range.length - 1) ∧
      (100 * Check.fromMultiple range.length (count - 1) ≠ count - 1 →
        (verdict.satisfied = true ↔
          100 * Check.fromMultiple range.length (count - 1) < count - 1)) ∧
      (count ≤ 100 →
        ((verdict.satisfied = true ↔ StandEvenly (painted.showing coloring.lit)) ↔
          count = 2 ∨ ¬count - 1 ∣ range.length ∧ ¬count - 1 ∣ range.length - 1)) := by
  have lit : 0 < range.length := Nat.succ_pos _
  have short : range.length < 2 ^ 48 :=
    lt_of_le_of_lt (Nat.le_mul_of_pos_left _ (by omega)) precise
  obtain ⟨verdict, isVerdict, -⟩ := Check.spacing_succeeds (.equallySpaced count) {} layerId
    (show (0 : Int) ≤ range.length by omega) (by omega)
  obtain ⟨painted, paints, shown⟩ := exists_paint_places several enough precise otherFill roofline
  have stands : StandEvenly (painted.showing coloring.lit) ↔ count - 1 ∣ range.length - 1 := by
    rw [shown]
    exact standEvenly_map_iff (fun index early => isNearest_roundedPlace several lit early precise)
      several lit range.first
  have fits : Check.Fits range.length (.equallySpaced count) {} layerId ↔
      verdict.satisfied = true := by
    constructor
    · rintro ⟨same, isSame, satisfied⟩
      cases isVerdict.symm.trans isSame
      exact satisfied
    · intro satisfied
      exact ⟨verdict, isVerdict, satisfied⟩
  have checked : 100 * Check.fromMultiple range.length (count - 1) ≠ count - 1 →
      (verdict.satisfied = true ↔
        100 * Check.fromMultiple range.length (count - 1) < count - 1) := by
    intro clear
    have gaps : (count : Int) - 1 = (count - 1 : Nat) := by omega
    have steps : (count - 1 + 1) * range.length < 2 ^ 48 := by
      rwa [Nat.sub_add_cancel (by omega)]
    rw [← fits, Check.fits_equallySpaced_iff (by omega) (by omega), gaps,
      Check.dividesNearly_iff (by omega) (by omega) steps clear, or_iff_right (by omega)]
  refine ⟨verdict, painted, isVerdict, paints, stands, checked, ?_⟩
  intro few
  have multiple := Check.fromMultiple_eq_zero_iff (n := range.length) (d := count - 1) (by omega)
  have both : count - 1 ∣ range.length → count - 1 ∣ range.length - 1 → count = 2 := by
    intro all others
    have one := Nat.dvd_sub all others
    rw [Nat.sub_sub_self (by omega), Nat.dvd_one] at one
    omega
  have single : count = 2 → count - 1 ∣ range.length ∧ count - 1 ∣ range.length - 1 := by
    rintro rfl
    exact ⟨one_dvd _, one_dvd _⟩
  have satisfied : verdict.satisfied = true ↔ count - 1 ∣ range.length := by
    rw [checked (by omega), ← multiple]
    omega
  rw [satisfied, stands]
  constructor
  · intro agree
    by_cases all : count - 1 ∣ range.length
    · exact .inl (both all (agree.mp all))
    · exact .inr ⟨all, fun others => all (agree.mpr others)⟩
  · rintro (one | ⟨notAll, notOthers⟩)
    · exact iff_of_true (single one).1 (single one).2
    · exact iff_of_false notAll notOthers

/-- Three lights over the first four satisfy the check, but the first and the last two are lit. -/
theorem even_spacing_checked_iff_fourLights :
    ∃ verdict painted,
      Check.spacing 4 (.equallySpaced 3) {} none = .ok verdict ∧
      (Spacing.equallySpaced 3).paint Binary64 .blank ⟨0, 3, by decide⟩ {} none = .ok painted ∧
      verdict.satisfied = true ∧ ¬StandEvenly (painted.showing .pureWhite) := by
  obtain ⟨verdict, painted, isVerdict, paints, stands, checked, -⟩ :=
    @even_spacing_checked_iff 3 (by decide) ⟨0, 3, by decide⟩ (by decide) (by decide) {}
      (by decide) none none
  exact ⟨verdict, painted, isVerdict, paints, (checked (by decide)).mpr (by decide),
    fun even => absurd (stands.mp even) (by decide)⟩

/-- Three lights over the first five are reported as uneven, but every other light is lit. -/
theorem even_lights_reported_uneven :
    ∃ verdict painted,
      Check.spacing 5 (.equallySpaced 3) {} none = .ok verdict ∧
      verdict.satisfied = false ∧
      verdict.reason = some "3 lights over 5 pixels gives uneven spacing of 2.50" ∧
      (Spacing.equallySpaced 3).paint Binary64 .blank ⟨0, 4, by decide⟩ {} none = .ok painted ∧
      painted.showing .pureWhite = [0, 2, 4] ∧ StandEvenly (painted.showing .pureWhite) := by
  have view : ((Check.spacing 5 (.equallySpaced 3) {} none).map
      fun verdict => (verdict.satisfied, verdict.reason)).toOption =
        some (false, some "3 lights over 5 pixels gives uneven spacing of 2.50") := by
    decide +kernel
  have lights : (((Spacing.equallySpaced 3).paint Binary64 .blank ⟨0, 4, by decide⟩ {} none).map
      fun canvas => canvas.showing .pureWhite).toOption = some [0, 2, 4] := by
    decide +kernel
  obtain ⟨verdict, isVerdict, viewed⟩ := Outcome.exists_ok_of_toOption view
  obtain ⟨painted, paints, shown⟩ := Outcome.exists_ok_of_toOption lights
  obtain ⟨unsatisfied, reason⟩ := Prod.mk.injEq .. ▸ viewed
  refine ⟨verdict, painted, isVerdict, unsatisfied, reason, paints, shown, ?_⟩
  rw [shown]
  exact ⟨2, by decide⟩

end Spacing

end Eaves
