import Eaves.Number.Scalar
import Mathlib.Data.Rat.Floor
import Mathlib.Tactic.FieldSimp
import Mathlib.Tactic.Linarith
import Mathlib.Tactic.Positivity
import Mathlib.Tactic.Ring

/-!
# Arithmetic that stays finite

Rounding into the format moves a number by at most one part in `2 ^ 53`, or by next
to nothing where the number is next to zero.  So what is computed from numbers far
below the greatest finite one is finite, no operation on them fails, and each gives
its exact result, rounded once.

A confidence is kept between zero and one by comparing it with both, and comparing
does so whatever comes in: a value that is not a number loses every comparison.
Rounding keeps signs, so what is added to a confidence leaves it above zero, also
where a sum is beyond every finite number.
-/

namespace Eaves.Number

/-- A rounded ratio is at most a half away from the ratio. -/
theorem roundRatio_near (n : Int) {d : Nat} (pos : 0 < d) :
    |(roundRatio n d : Rat) - n / d| ≤ 1 / 2 := by
  have denPos : (0 : Rat) < d := by exact_mod_cast pos
  have divided := Int.mul_ediv_add_emod n d
  have restLow := Int.emod_nonneg n (by omega : (d : Int) ≠ 0)
  have restHigh := Int.emod_lt_of_pos n (by omega : 0 < (d : Int))
  rw [Int.mul_comm] at divided
  have near : |2 * (roundRatio n d * d - n)| ≤ d := by
    rw [abs_le, roundRatio]
    generalize n / (d : Int) = low at divided ⊢
    have next : (low + 1) * (d : Int) = low * d + d := by ring
    split
    · constructor <;> omega
    · split
      · constructor <;> omega
      · split
        · constructor <;> omega
        · constructor <;> omega
  have nearRat : |2 * ((roundRatio n d : Rat) * d - n)| ≤ d := by exact_mod_cast near
  have apart : (roundRatio n d : Rat) - n / d = ((roundRatio n d : Rat) * d - n) / d := by
    field_simp
  rw [apart, abs_div, abs_of_pos denPos, div_le_iff₀ denPos]
  rw [abs_mul, abs_two] at nearRat
  linarith

/-- The nearest integer to a rational is at most a half away from it. -/
theorem roundEven_near (x : Rat) : |(roundEven x : Rat) - x| ≤ 1 / 2 := by
  have near := roundRatio_near x.num x.den_pos
  rwa [Rat.num_div_den] at near

/-- A number between two integers is rounded to an integer between them. -/
theorem roundEven_between {low high : Int} {x : Rat} (atLeast : (low : Rat) ≤ x)
    (atMost : x ≤ high) : low ≤ roundEven x ∧ roundEven x ≤ high := by
  obtain ⟨notFarBelow, notFarAbove⟩ := abs_le.mp (roundEven_near x)
  have above : ((low - 1 : Int) : Rat) < roundEven x := by
    push_cast
    linarith
  have below : (roundEven x : Rat) < ((high + 1 : Int) : Rat) := by
    push_cast
    linarith
  have above : low - 1 < roundEven x := by exact_mod_cast above
  have below : roundEven x < high + 1 := by exact_mod_cast below
  omega

/-- An integer is rounded to itself. -/
@[simp]
theorem roundEven_intCast (n : Int) : roundEven n = n := by
  have between := roundEven_between (le_refl (n : Rat)) (le_refl (n : Rat))
  omega

namespace Binary64

/-! ## Rounding -/

theorem cast_twoTo (k : Nat) : ((twoTo k : Nat) : Rat) = 2 ^ k := by
  simp [twoTo]

/-- A positive ratio is at least two to its exponent. -/
theorem two_zpow_binaryExponent_le {n d : Nat} (num : n ≠ 0) (den : d ≠ 0) :
    (2 : Rat) ^ binaryExponent n d ≤ n / d := by
  have denPos : (0 : Rat) < d := by exact_mod_cast Nat.pos_of_ne_zero den
  have numLow : (2 : Rat) ^ n.log2 ≤ n := by exact_mod_cast Nat.log2_self_le num
  have denHigh : (d : Rat) ≤ 2 ^ (d.log2 + 1) := by
    exact_mod_cast (Nat.lt_log2_self (n := d)).le
  -- the exponents of numerator and denominator alone fix the ratio's up to one
  have atLeast : (2 : Rat) ^ ((n.log2 : Int) - d.log2 - 1) ≤ n / d := by
    have shape : (2 : Rat) ^ ((n.log2 : Int) - d.log2 - 1) = 2 ^ n.log2 / 2 ^ (d.log2 + 1) := by
      rw [sub_sub, zpow_sub₀ two_ne_zero, zpow_natCast]
      exact_mod_cast rfl
    rw [shape]
    gcongr
  unfold binaryExponent
  generalize (n.log2 : Int) - d.log2 = guess at atLeast ⊢
  by_cases nonneg : 0 ≤ guess
  · obtain ⟨gap, rfl⟩ := Int.eq_ofNat_of_zero_le nonneg
    simp only [nonneg, if_true, Int.toNat_natCast, decide_eq_true_eq]
    split
    · exact atLeast
    · rename_i reached
      have reachedRat : (d : Rat) * 2 ^ gap ≤ n := by
        rw [← cast_twoTo]
        exact_mod_cast Nat.le_of_not_lt reached
      rw [le_div_iff₀ denPos, zpow_natCast, mul_comm]
      exact reachedRat
  · obtain ⟨gap, rfl⟩ : ∃ gap : Nat, guess = -gap := ⟨(-guess).toNat, by omega⟩
    simp only [nonneg, if_false, neg_neg, Int.toNat_natCast, decide_eq_true_eq]
    split
    · exact atLeast
    · rename_i reached
      have reachedRat : (d : Rat) ≤ n * 2 ^ gap := by
        rw [← cast_twoTo]
        exact_mod_cast Nat.le_of_not_lt reached
      rw [le_div_iff₀ denPos, zpow_neg, zpow_natCast, inv_mul_le_iff₀ (by positivity), mul_comm]
      exact reachedRat

theorem ofSteps_eq (m e : Int) : ofSteps m e = m * (2 : Rat) ^ e := by
  unfold ofSteps
  split
  · obtain ⟨k, rfl⟩ : ∃ k : Nat, e = -k := ⟨(-e).toNat, by omega⟩
    rw [Rat.mkRat_eq_div, neg_neg, Int.toNat_natCast, cast_twoTo, zpow_neg, zpow_natCast,
      div_eq_mul_inv]
  · obtain ⟨k, rfl⟩ := Int.eq_ofNat_of_zero_le (show 0 ≤ e by omega)
    rw [Int.toNat_natCast, Int.cast_mul, Int.cast_natCast, cast_twoTo, zpow_natCast]

theorem gridSteps_near (x : Rat) (e : Int) : |(gridSteps x e : Rat) - x / 2 ^ e| ≤ 1 / 2 := by
  unfold gridSteps
  split
  · obtain ⟨k, rfl⟩ : ∃ k : Nat, e = -k := ⟨(-e).toNat, by omega⟩
    have near := roundRatio_near (x.num * (twoTo k : Nat)) x.den_pos
    rw [neg_neg, Int.toNat_natCast]
    rw [Int.cast_mul, Int.cast_natCast, cast_twoTo, mul_div_right_comm, Rat.num_div_den] at near
    rwa [zpow_neg, zpow_natCast, div_inv_eq_mul]
  · obtain ⟨k, rfl⟩ := Int.eq_ofNat_of_zero_le (show 0 ≤ e by omega)
    have near := roundRatio_near x.num (Nat.mul_pos x.den_pos (Nat.two_pow_pos k))
    rw [Nat.cast_mul, ← div_div, Rat.num_div_den] at near
    rw [Int.toNat_natCast, zpow_natCast, ← cast_twoTo]
    exact near

/-- Rounding moves a number by at most half a step of the grid. -/
theorem ofSteps_near (x : Rat) (e : Int) : |ofSteps (gridSteps x e) e - x| ≤ 2 ^ e / 2 := by
  have step : (0 : Rat) < 2 ^ e := zpow_pos two_pos e
  have near := gridSteps_near x e
  have apart : ofSteps (gridSteps x e) e - x = (gridSteps x e - x / 2 ^ e) * 2 ^ e := by
    rw [ofSteps_eq, sub_mul, div_mul_cancel₀ _ step.ne']
  rw [apart, abs_mul, abs_of_pos step]
  calc |(gridSteps x e : Rat) - x / 2 ^ e| * 2 ^ e ≤ 1 / 2 * 2 ^ e :=
        mul_le_mul_of_nonneg_right near step.le
    _ = 2 ^ e / 2 := by ring

/-- Rounding moves a number by at most one part in `2 ^ 53`, and next to zero, where steps do not
shrink further, by next to nothing. -/
theorem abs_nearest_sub_le (x : Rat) : |nearest x - x| ≤ |x| / 2 ^ 53 + 1 / 2 ^ 250 := by
  by_cases zero : x.num = 0
  · rw [nearest, if_pos zero, Rat.zero_of_num_zero zero]
    norm_num
  have denPos : (0 : Rat) < x.den := by exact_mod_cast x.den_pos
  have magnitude : |x| = (x.num.natAbs : Rat) / x.den := by
    conv_lhs => rw [← Rat.num_div_den x, abs_div, abs_of_pos denPos]
    rw [Nat.cast_natAbs, Int.cast_abs]
  have large : (2 : Rat) ^ binaryExponent x.num.natAbs x.den ≤ |x| := by
    rw [magnitude]
    exact two_zpow_binaryExponent_le (Int.natAbs_ne_zero.mpr zero) x.den_nz
  rw [nearest, if_neg zero]
  apply (ofSteps_near x (gridExponent x)).trans
  rcases max_choice (binaryExponent x.num.natAbs x.den - 52) (-1074) with relative | absolute
  · have half : (2 : Rat) ^ gridExponent x / 2 =
        2 ^ binaryExponent x.num.natAbs x.den / 2 ^ 53 := by
      rw [gridExponent, relative, zpow_sub₀ two_ne_zero]
      norm_num
      ring
    rw [half]
    have scaled : (2 : Rat) ^ binaryExponent x.num.natAbs x.den / 2 ^ 53 ≤ |x| / 2 ^ 53 := by
      gcongr
    linarith
  · have tiny : (2 : Rat) ^ gridExponent x ≤ 2 ^ (-250 : Int) := by
      rw [gridExponent, absolute]
      exact zpow_le_zpow_right₀ one_le_two (by decide)
    rw [zpow_neg, zpow_ofNat, ← one_div] at tiny
    have : 0 ≤ |x| / 2 ^ 53 := by positivity
    linarith

/-- Rounding moves a number by at most its magnitude and one. -/
theorem abs_nearest_le (x : Rat) : |nearest x| ≤ 2 * |x| + 1 := by
  have moved := abs_sub_abs_le_abs_sub (nearest x) x
  have near := abs_nearest_sub_le x
  have relative : |x| / 2 ^ 53 ≤ |x| := div_le_self (abs_nonneg x) (by norm_num)
  linarith

/-- A rational below the greatest finite number by a few powers of two is rounded to a finite
one. -/
theorem ofRat_eq_of_le {x : Rat} {bits : Nat} (room : bits ≤ 1020) (small : |x| ≤ 2 ^ bits) :
    ofRat x = .finite (nearest x) := by
  have bound : |nearest x| < 2 ^ (bits + 2) := by
    have := abs_nearest_le x
    have atLeast : (1 : Rat) ≤ 2 ^ bits := one_le_pow₀ one_le_two
    rw [pow_add]
    linarith
  rw [ofRat]
  apply if_neg
  rintro ⟨whole, beyond⟩
  have magnitude : |nearest x| = ((nearest x).num.natAbs : Rat) := by
    conv_lhs => rw [← Rat.num_div_den (nearest x), whole]
    rw [Nat.cast_one, div_one, Nat.cast_natAbs, Int.cast_abs]
  have reached : ((limit : Int) : Rat) ≤ |nearest x| := by
    rw [magnitude, ← Int.cast_natCast]
    exact Int.cast_le.mpr beyond
  have tooSmall : ∀ k, bits + 2 ≤ k → (2 : Rat) ^ (bits + 2) ≤ (((twoTo k : Nat) : Int) : Rat) := by
    intro k enough
    rw [Int.cast_natCast, cast_twoTo]
    exact pow_le_pow_right₀ one_le_two enough
  have beyondBound := tooSmall 1024 (by omega)
  rw [limit] at reached
  linarith

/-- A rational far below the greatest finite number is rounded to a finite one. -/
theorem ofRat_eq {x : Rat} (small : |x| ≤ 2 ^ 250) : ofRat x = .finite (nearest x) :=
  ofRat_eq_of_le (by decide) small

/-! ## Operations -/

/-- A ratio of integers that is not too large is the exact one, rounded. -/
theorem quotient_eq_of_le {n d : Int} {bits : Nat} (room : bits ≤ 1020) (nonzero : d ≠ 0)
    (small : |(n : Rat) / d| ≤ 2 ^ bits) : quotient n d = .ok (.finite (nearest (n / d))) := by
  rw [quotient, if_neg nonzero, ofRat_eq_of_le room small]

/-- A ratio of integers that is far below the greatest finite number is the exact one, rounded. -/
theorem quotient_eq {n d : Int} (nonzero : d ≠ 0) (small : |(n : Rat) / d| ≤ 2 ^ 250) :
    quotient n d = .ok (.finite (nearest (n / d))) :=
  quotient_eq_of_le (by decide) nonzero small

/-- A ratio of integers that is computed is a finite number. -/
theorem exists_finite_of_quotient {n d : Int} {x : Binary64} (computed : quotient n d = .ok x) :
    ∃ value, x = .finite value := by
  unfold quotient at computed
  split at computed
  · cases computed
  · have rounds : (∃ negative, ofRat ((n : Rat) / d) = .infinite negative) ∨
        ofRat ((n : Rat) / d) = .finite (nearest (n / d)) := by
      unfold ofRat
      dsimp only
      split
      · exact .inl ⟨_, rfl⟩
      · exact .inr rfl
    rcases rounds with ⟨negative, isInfinite⟩ | isFinite
    · rw [isInfinite] at computed
      cases computed
    · rw [isFinite] at computed
      cases computed
      exact ⟨_, rfl⟩

/-- A ratio of integers is no greater than its numerator. -/
theorem abs_ratio_le {n d : Int} (nonzero : d ≠ 0) : |(n : Rat) / d| ≤ |(n : Rat)| := by
  have denominator : (1 : Rat) ≤ |(d : Rat)| := by
    exact_mod_cast Int.one_le_abs nonzero
  rw [abs_div]
  exact div_le_self (abs_nonneg _) denominator

theorem ofInt_eq_of_le {n : Int} {bits : Nat} (room : bits ≤ 1020) (small : |n| ≤ 2 ^ bits) :
    ofInt n = .ok (.finite (nearest n)) := by
  rw [ofInt, ofRat_eq_of_le room (by exact_mod_cast small)]

theorem ofInt_eq {n : Int} (small : |n| ≤ 2 ^ 250) : ofInt n = .ok (.finite (nearest n)) :=
  ofInt_eq_of_le (by decide) small

theorem mul_eq {x y : Rat} (small : |x * y| ≤ 2 ^ 250) :
    (finite x).mul (finite y) = .finite (nearest (x * y)) :=
  ofRat_eq small

theorem add_eq {x y : Rat} (small : |x + y| ≤ 2 ^ 250) :
    (finite x).add (finite y) = .finite (nearest (x + y)) :=
  ofRat_eq small

theorem sub_eq {x y : Rat} (nonzero : y ≠ 0) (small : |x - y| ≤ 2 ^ 250) :
    (finite x).sub (finite y) = .finite (nearest (x - y)) := by
  rw [sub, neg, if_neg nonzero, sub_eq_add_neg]
  exact add_eq (by rwa [← sub_eq_add_neg])

theorem abs_finite (x : Rat) : (finite x).abs = .finite |x| := by
  rw [abs]
  congr 1
  rcases le_total 0 x with nonneg | nonpos
  · rw [Rat.abs_of_nonneg nonneg, abs_of_nonneg nonneg]
  · rw [Rat.abs_of_nonpos nonpos, abs_of_nonpos nonpos]

end Binary64

end Eaves.Number

/-! ## Numbers between zero and one -/

namespace Eaves.Number.Binary64

/-- A number between zero and one, as a confidence or the place of a gradient's stop is. -/
structure IsUnit (x : Binary64) : Prop where
  atMostOne : x.le (.finite 1) = true
  notNegative : (finite 0).le x = true

theorem isUnit_zero : (finite 0).IsUnit :=
  ⟨by decide, by decide⟩

/-- Rounding to the grid keeps a number that is not negative so. -/
theorem nearest_nonneg {x : Rat} (nonneg : 0 ≤ x) : 0 ≤ nearest x := by
  unfold nearest
  split
  · exact le_refl 0
  · generalize gridExponent x = e
    have step : (0 : Rat) < 2 ^ e := zpow_pos two_pos e
    have near := (abs_le.mp (gridSteps_near x e)).1
    have scaled : 0 ≤ x / 2 ^ e := div_nonneg nonneg step.le
    have steps : 0 ≤ gridSteps x e := by
      have above : (-1 : Rat) < gridSteps x e := by linarith
      have whole : -1 < gridSteps x e := by exact_mod_cast above
      omega
    rw [ofSteps_eq]
    exact mul_nonneg (by exact_mod_cast steps) step.le

theorem notNegative_finite {x : Rat} (nonneg : 0 ≤ x) : (finite 0).le (.finite x) = true := by
  rcases nonneg.lt_or_eq with positive | zero
  · simp [le, lt, toRat, positive]
  · simp [le, eq, toRat, zero]

/-- A number that is not negative is the value of a rational that is not, or infinite. -/
theorem notNegative_iff {x : Binary64} :
    (finite 0).le x = true ↔ x.isFinite = true ∧ 0 ≤ x.toRat ∨ x = .infinite false := by
  cases x with
  | finite value =>
      have compared : (finite 0).le (finite value) = (decide (0 < value) || decide (0 = value)) :=
        rfl
      rw [compared, Bool.or_eq_true, decide_eq_true_iff, decide_eq_true_iff, ← le_iff_lt_or_eq]
      simp [toRat, isFinite]
  | negativeZero => simp [le, lt, eq, toRat, isFinite]
  | infinite negative => cases negative <;> simp [le, lt, eq, toRat, isFinite]
  | nan => simp [le, lt, eq, isFinite]

/-- Rounding into the format keeps a number that is not negative so. -/
theorem notNegative_ofRat {x : Rat} (nonneg : 0 ≤ x) : (finite 0).le (ofRat x) = true := by
  have rounded := nearest_nonneg nonneg
  unfold ofRat
  dsimp only
  split
  · have plus : ¬ (nearest x).num < 0 := not_lt.mpr (Rat.num_nonneg.mpr rounded)
    rw [decide_eq_false plus]
    rfl
  · exact notNegative_finite rounded

/-- The sum of finite numbers is the exact one, rounded once. -/
theorem add_of_isFinite {x y : Binary64} (xFinite : x.isFinite = true)
    (yFinite : y.isFinite = true) : x.add y = ofRat (x.toRat + y.toRat) := by
  cases x <;> cases y <;>
    first | rfl | exact Bool.noConfusion xFinite | exact Bool.noConfusion yFinite

/-- The product of finite numbers is the exact one, rounded once. -/
theorem mul_of_isFinite {x y : Binary64} (xFinite : x.isFinite = true)
    (yFinite : y.isFinite = true) : x.mul y = ofRat (x.toRat * y.toRat) := by
  cases x <;> cases y <;>
    first | rfl | exact Bool.noConfusion xFinite | exact Bool.noConfusion yFinite

/-- The sum of a finite number and another one, neither of them negative, is not negative. -/
theorem notNegative_add {x y : Binary64} (isFinite : x.isFinite = true)
    (xNotNegative : (finite 0).le x = true) (yNotNegative : (finite 0).le y = true) :
    (finite 0).le (x.add y) = true := by
  have first : 0 ≤ x.toRat := by
    rcases notNegative_iff.mp xNotNegative with ⟨-, nonneg⟩ | rfl
    · exact nonneg
    · cases isFinite
  rcases notNegative_iff.mp yNotNegative with ⟨finiteToo, second⟩ | rfl
  · rw [add_of_isFinite isFinite finiteToo]
    exact notNegative_ofRat (add_nonneg first second)
  · cases x <;> first | rfl | exact Bool.noConfusion isFinite

/-- The product of two finite numbers, neither of them negative, is not negative. -/
theorem notNegative_mul {x y : Binary64} (xFinite : x.isFinite = true)
    (yFinite : y.isFinite = true) (xNotNegative : (finite 0).le x = true)
    (yNotNegative : (finite 0).le y = true) : (finite 0).le (x.mul y) = true := by
  rcases notNegative_iff.mp xNotNegative with ⟨-, first⟩ | rfl
  · rcases notNegative_iff.mp yNotNegative with ⟨-, second⟩ | rfl
    · rw [mul_of_isFinite xFinite yFinite]
      exact notNegative_ofRat (mul_nonneg first second)
    · cases yFinite
  · cases xFinite

/-- What is not above one is finite. -/
theorem IsUnit.isFinite {x : Binary64} (isUnit : x.IsUnit) : x.isFinite = true := by
  rcases notNegative_iff.mp isUnit.notNegative with ⟨isFinite, -⟩ | rfl
  · exact isFinite
  · exact absurd isUnit.atMostOne (by decide)

/-- Finite numbers are in the order of the rationals that they are. -/
theorem le_iff_of_isFinite {x y : Binary64} (xFinite : x.isFinite = true)
    (yFinite : y.isFinite = true) : x.le y = true ↔ x.toRat ≤ y.toRat := by
  rw [le_iff_lt_or_eq, ← decide_eq_true_iff (p := x.toRat < y.toRat),
    ← decide_eq_true_iff (p := x.toRat = y.toRat), ← Bool.or_eq_true]
  cases x <;> cases y <;>
    first | rfl | exact Bool.noConfusion xFinite | exact Bool.noConfusion yFinite

theorem lt_iff_of_isFinite {x y : Binary64} (xFinite : x.isFinite = true)
    (yFinite : y.isFinite = true) : x.lt y = true ↔ x.toRat < y.toRat := by
  rw [← decide_eq_true_iff (p := x.toRat < y.toRat)]
  cases x <;> cases y <;>
    first | rfl | exact Bool.noConfusion xFinite | exact Bool.noConfusion yFinite

/-- A number between zero and one is the value of a rational that is. -/
theorem isUnit_iff {x : Binary64} :
    x.IsUnit ↔ x.isFinite = true ∧ 0 ≤ x.toRat ∧ x.toRat ≤ 1 := by
  constructor
  · intro isUnit
    have isFinite := isUnit.isFinite
    exact ⟨isFinite, (le_iff_of_isFinite rfl isFinite).mp isUnit.notNegative,
      (le_iff_of_isFinite isFinite rfl).mp isUnit.atMostOne⟩
  · rintro ⟨isFinite, nonneg, atMostOne⟩
    exact ⟨(le_iff_of_isFinite isFinite rfl).mpr atMostOne,
      (le_iff_of_isFinite rfl isFinite).mpr nonneg⟩

/-- Of one and another number, the least is at most one. -/
theorem atMostOne_least (x : Binary64) : ((finite 1).least x).le (.finite 1) = true := by
  unfold least
  split
  · rename_i below
    rw [le, below, Bool.true_or]
  · decide

/-- Of one and a number that is not negative, the least is between zero and one. -/
theorem isUnit_least {x : Binary64} (notNegative : (finite 0).le x = true) :
    ((finite 1).least x).IsUnit := by
  refine ⟨atMostOne_least x, ?_⟩
  unfold least
  split
  · exact notNegative
  · decide

/-- Cutting any number to what lies between zero and one does so. -/
theorem isUnit_greatest (x : Binary64) :
    ((finite 0).greatest ((finite 1).least x)).IsUnit := by
  have atMostOne := atMostOne_least x
  generalize (finite 1).least x = cut at atMostOne
  unfold greatest
  split
  · rename_i above
    exact ⟨atMostOne, by rw [le, above, Bool.true_or]⟩
  · exact isUnit_zero

end Eaves.Number.Binary64
