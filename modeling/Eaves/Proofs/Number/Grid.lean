import Eaves.Proofs.Number.Finite

/-!
# Points of the grid

The numbers of the format are the points of a grid whose steps grow with the numbers.
Rounding leaves a point where it is, and takes whatever is near a point to it: a number
that differs from a point by less than one part in `2 ^ 54` is less than half a step
away, also where the steps on one side of the point are half as long.
-/

namespace Eaves.Number

/-- Rounding a ratio does not look at its sign. -/
theorem roundRatio_neg (n : Int) {d : Nat} (pos : 0 < d) : roundRatio (-n) d = -roundRatio n d := by
  have divided := Int.mul_ediv_add_emod n d
  have restLow := Int.emod_nonneg n (by omega : (d : Int) ≠ 0)
  have restHigh := Int.emod_lt_of_pos n (by omega : 0 < (d : Int))
  have parts : -n / (d : Int) = (if n % d = 0 then -(n / d) else -(n / d) - 1) ∧
      -n % (d : Int) = (if n % d = 0 then 0 else d - n % d) := by
    rw [Int.ediv_emod_unique (by omega)]
    split
    · refine ⟨?_, le_rfl, by omega⟩
      rw [mul_neg]
      omega
    · refine ⟨?_, by omega, by omega⟩
      rw [mul_sub, mul_neg]
      omega
  unfold roundRatio
  rw [parts.1, parts.2]
  dsimp only
  generalize n / (d : Int) = low at divided ⊢
  generalize n % (d : Int) = rest at *
  by_cases whole : rest = 0
  · simp only [whole, if_true]
    split <;> omega
  · simp only [whole, if_false]
    split_ifs <;> omega

namespace Binary64

variable {x y : Rat}

/-! ## The size of a number -/

/-- A positive ratio is less than two to the exponent after its own. -/
theorem lt_two_zpow_binaryExponent {n d : Nat} (den : d ≠ 0) :
    (n : Rat) / d < 2 ^ (binaryExponent n d + 1) := by
  have denPos : (0 : Rat) < d := by exact_mod_cast Nat.pos_of_ne_zero den
  have numHigh : (n : Rat) < 2 ^ (n.log2 + 1) := by exact_mod_cast Nat.lt_log2_self (n := n)
  have denLow : (2 : Rat) ^ d.log2 ≤ d := by exact_mod_cast Nat.log2_self_le den
  -- the exponents of numerator and denominator alone fix the ratio's up to one
  have below : (n : Rat) / d < 2 ^ ((n.log2 : Int) - d.log2 + 1) := by
    have shape : (2 : Rat) ^ ((n.log2 : Int) - d.log2 + 1) = 2 ^ (n.log2 + 1) / 2 ^ d.log2 := by
      rw [sub_add_eq_add_sub, zpow_sub₀ two_ne_zero, zpow_natCast]
      exact_mod_cast rfl
    rw [shape]
    gcongr
  unfold binaryExponent
  generalize (n.log2 : Int) - d.log2 = guess at below ⊢
  by_cases nonneg : 0 ≤ guess
  · obtain ⟨gap, rfl⟩ := Int.eq_ofNat_of_zero_le nonneg
    simp only [nonneg, if_true, Int.toNat_natCast, decide_eq_true_eq]
    split
    · rename_i isBelow
      have isBelowRat : (n : Rat) < d * 2 ^ gap := by
        rw [← cast_twoTo]
        exact_mod_cast isBelow
      rw [sub_add_cancel, div_lt_iff₀ denPos, zpow_natCast, mul_comm]
      exact isBelowRat
    · exact below
  · obtain ⟨gap, rfl⟩ : ∃ gap : Nat, guess = -gap := ⟨(-guess).toNat, by omega⟩
    simp only [nonneg, if_false, neg_neg, Int.toNat_natCast, decide_eq_true_eq]
    split
    · rename_i isBelow
      have isBelowRat : (n : Rat) * 2 ^ gap < d := by
        rw [← cast_twoTo]
        exact_mod_cast isBelow
      rw [sub_add_cancel, div_lt_iff₀ denPos, zpow_neg, zpow_natCast, inv_mul_eq_div,
        lt_div_iff₀ (by positivity)]
      exact isBelowRat
    · exact below

/-- The place of a number's first bit. -/
def leadingBit (x : Rat) : Int :=
  binaryExponent x.num.natAbs x.den

theorem eq_natAbs_div (pos : 0 < x) : x = (x.num.natAbs : Rat) / x.den := by
  have numPos : 0 < x.num := Rat.num_pos.mpr pos
  have same : ((x.num.natAbs : Int) : Rat) = x.num := by rw [Int.natAbs_of_nonneg numPos.le]
  conv_lhs => rw [← Rat.num_div_den x, ← same, Int.cast_natCast]

theorem two_zpow_leadingBit_le (pos : 0 < x) : (2 : Rat) ^ leadingBit x ≤ x := by
  have num : x.num.natAbs ≠ 0 := Int.natAbs_ne_zero.mpr (Rat.num_pos.mpr pos).ne'
  have bound := two_zpow_binaryExponent_le num x.den_nz
  rwa [← eq_natAbs_div pos] at bound

theorem lt_two_zpow_leadingBit (pos : 0 < x) : x < (2 : Rat) ^ (leadingBit x + 1) := by
  have bound := lt_two_zpow_binaryExponent (n := x.num.natAbs) x.den_nz
  rwa [← eq_natAbs_div pos] at bound

theorem leadingBit_le {e : Int} (pos : 0 < x) (bound : x < (2 : Rat) ^ (e + 1)) :
    leadingBit x ≤ e := by
  have between := (two_zpow_leadingBit_le pos).trans_lt bound
  have := (zpow_lt_zpow_iff_right₀ (one_lt_two (α := Rat))).mp between
  omega

/-! ## Points -/

theorem nearest_eq (pos : 0 < x) :
    nearest x = gridSteps x (gridExponent x) * (2 : Rat) ^ gridExponent x := by
  rw [← ofSteps_eq, nearest, if_neg (Rat.num_pos.mpr pos).ne']

/-- A number that rounding leaves as it is, is a count of the steps of its own grid. -/
theorem eq_steps_of_nearest_eq (isPoint : nearest x = x) (pos : 0 < x) :
    ∃ k : Int, x = k * (2 : Rat) ^ gridExponent x := by
  refine ⟨gridSteps x (gridExponent x), ?_⟩
  rw [← nearest_eq pos, isPoint]

theorem leadingBit_le_gridExponent (x : Rat) : leadingBit x - 52 ≤ gridExponent x :=
  le_max_left _ _

/-- A count of steps that is below a power of two is below it by a step. -/
theorem add_step_le {k e top : Int} (order : e ≤ top)
    (below : (k : Rat) * 2 ^ e < 2 ^ top) : (k : Rat) * 2 ^ e + 2 ^ e ≤ 2 ^ top := by
  have step : (0 : Rat) < 2 ^ e := zpow_pos two_pos e
  obtain ⟨gap, rfl⟩ : ∃ gap : Nat, top = e + gap := ⟨(top - e).toNat, by omega⟩
  have shape : (2 : Rat) ^ (e + gap) = ((2 ^ gap : Nat) : Int) * 2 ^ e := by
    rw [zpow_add₀ two_ne_zero, zpow_natCast, mul_comm]
    norm_num
  rw [shape] at below ⊢
  have counts : k < ((2 ^ gap : Nat) : Int) := by
    exact_mod_cast lt_of_mul_lt_mul_right below step.le
  have countsNext : ((k + 1 : Int) : Rat) ≤ ((2 ^ gap : Nat) : Int) := by exact_mod_cast counts
  calc (k : Rat) * 2 ^ e + 2 ^ e = ((k + 1 : Int) : Rat) * 2 ^ e := by push_cast; ring
    _ ≤ ((2 ^ gap : Nat) : Int) * 2 ^ e := mul_le_mul_of_nonneg_right countsNext step.le

/-- A positive point is at least a step. -/
theorem step_le_of_nearest_eq (isPoint : nearest x = x) (pos : 0 < x) :
    (2 : Rat) ^ gridExponent x ≤ x := by
  rcases eq_steps_of_nearest_eq isPoint pos with ⟨k, xEq⟩
  have step : (0 : Rat) < 2 ^ gridExponent x := zpow_pos two_pos _
  have atLeastOne : (1 : Rat) ≤ k := by
    rw [xEq] at pos
    have : 0 < k := by exact_mod_cast pos_of_mul_pos_left pos step.le
    exact_mod_cast this
  conv_rhs => rw [xEq]
  exact le_mul_of_one_le_left step.le atLeastOne

/-- What is near a point has no longer steps, for between the point and the next power of two is
one step at least. -/
theorem gridExponent_le_of_near (isPoint : nearest x = x) (pos : 0 < x) (yPos : 0 < y)
    (near : |y - x| < x / 2 ^ 54) : gridExponent y ≤ gridExponent x := by
  rcases eq_steps_of_nearest_eq isPoint pos with ⟨k, xEq⟩
  have xTop := lt_two_zpow_leadingBit pos
  have order : gridExponent x ≤ leadingBit x + 1 :=
    ((zpow_lt_zpow_iff_right₀ (one_lt_two (α := Rat))).mp
      ((step_le_of_nearest_eq isPoint pos).trans_lt xTop)).le
  have smallerStep : (2 : Rat) ^ (leadingBit x + 1) / 2 ^ 54 < 2 ^ gridExponent x := by
    have shape : (2 : Rat) ^ (leadingBit x + 1) / 2 ^ 54 = 2 ^ (leadingBit x - 53) := by
      rw [show leadingBit x - 53 = leadingBit x + 1 - 54 by ring, zpow_sub₀ two_ne_zero]
      norm_num
    rw [shape]
    apply (zpow_lt_zpow_iff_right₀ (one_lt_two (α := Rat))).mpr
    have := leadingBit_le_gridExponent x
    omega
  have smaller : leadingBit y ≤ leadingBit x := by
    apply leadingBit_le yPos
    have room := add_step_le (k := k) order (by rwa [← xEq])
    rw [← xEq] at room
    have relative : x / 2 ^ 54 < 2 ^ (leadingBit x + 1) / 2 ^ 54 := by gcongr
    have := (abs_lt.mp near).2
    linarith
  exact max_le_max (Int.sub_le_sub_right smaller 52) le_rfl

/-- Counts of steps that differ by less than a step are the same. -/
theorem eq_of_abs_sub_lt {m n : Int} (near : |(m : Rat) - n| < 1) : m = n := by
  have nearInt : |m - n| < 1 := by exact_mod_cast near
  have := abs_lt.mp nearInt
  omega

/-- A count of steps is a count of finer ones. -/
theorem exists_finer_steps (k : Int) {e top : Int} (order : e ≤ top) :
    ∃ m : Int, (k : Rat) * 2 ^ top = m * 2 ^ e := by
  obtain ⟨gap, rfl⟩ : ∃ gap : Nat, top = e + gap := ⟨(top - e).toNat, by omega⟩
  refine ⟨k * 2 ^ gap, ?_⟩
  rw [zpow_add₀ two_ne_zero, zpow_natCast]
  push_cast
  ring

/-- A number has no more steps than a significand can count. -/
theorem lt_steps (pos : 0 < x) : x < 2 ^ 53 * (2 : Rat) ^ gridExponent x := by
  apply (lt_two_zpow_leadingBit pos).trans_le
  rw [← zpow_natCast, ← zpow_add₀ two_ne_zero]
  apply zpow_le_zpow_right₀ one_le_two
  have := leadingBit_le_gridExponent x
  push_cast
  omega

/-- What is near a point is rounded to it. -/
theorem nearest_eq_of_near (isPoint : nearest x = x) (pos : 0 < x)
    (near : |y - x| < x / 2 ^ 54) : nearest y = x := by
  have yPos : 0 < y := by
    have := (abs_lt.mp near).1
    have : x / 2 ^ 54 < x := div_lt_self pos (by norm_num)
    linarith
  rcases eq_steps_of_nearest_eq isPoint pos with ⟨k, xEq⟩
  have finer := gridExponent_le_of_near isPoint pos yPos near
  -- so `x` is a count of the steps of `y` as well
  obtain ⟨m, xEqFiner⟩ := exists_finer_steps k finer
  rw [← xEq] at xEqFiner
  have step : (0 : Rat) < 2 ^ gridExponent y := zpow_pos two_pos _
  have stepsNear := gridSteps_near y (gridExponent y)
  have yTop := lt_steps yPos
  have steps := nearest_eq yPos
  generalize gridExponent y = e at *
  have apart : |(m : Rat) - y / 2 ^ e| < m / 2 ^ 54 := by
    have shape : (m : Rat) - y / 2 ^ e = (x - y) / 2 ^ e := by
      rw [sub_div, xEqFiner, mul_div_cancel_right₀ _ step.ne']
    rw [shape, abs_div, abs_of_pos step, div_lt_iff₀ step, abs_sub_comm, div_mul_eq_mul_div,
      ← xEqFiner]
    exact near
  have fewSteps : y / 2 ^ e < 2 ^ 53 := by rwa [div_lt_iff₀ step]
  -- `x` has no more steps than a significand can count
  have mHigh : m ≤ 2 ^ 53 := by
    by_contra beyond
    have beyondRat : (2 : Rat) ^ 53 + 1 ≤ m := by
      have := not_le.mp beyond
      exact_mod_cast this
    have := (abs_lt.mp apart).2
    linarith
  have mHighRat : (m : Rat) ≤ 2 ^ 53 := by exact_mod_cast mHigh
  have same : gridSteps y e = m := by
    apply eq_of_abs_sub_lt
    have split : |(gridSteps y e : Rat) - m| ≤
        |(gridSteps y e : Rat) - y / 2 ^ e| + |(m : Rat) - y / 2 ^ e| := by
      rw [abs_sub_comm (m : Rat)]
      exact abs_sub_le _ _ _
    linarith
  rw [steps, same, ← xEqFiner]

/-! ## Numbers of the format -/

/-- A number that rounding into the format leaves as it is; only such numbers are held in 64
bits. -/
def IsRounded : Binary64 → Prop
  | .finite x => ofRat x = .finite x
  | _ => True

theorem nearest_eq_of_ofRat (rounds : ofRat y = .finite x) : nearest y = x := by
  unfold ofRat at rounds
  dsimp only at rounds
  split at rounds
  · cases rounds
  · exact Binary64.finite.inj rounds

/-- Numbers with the same nearest point are rounded alike. -/
theorem ofRat_congr (same : nearest y = nearest x) : ofRat y = ofRat x := by
  unfold ofRat
  rw [same]

/-- What is near a number of the format is rounded to it. -/
theorem ofRat_eq_of_near (rounds : ofRat x = .finite x) (pos : 0 < x)
    (near : |y - x| < x / 2 ^ 54) : ofRat y = .finite x := by
  have isPoint := nearest_eq_of_ofRat rounds
  rw [← rounds]
  apply ofRat_congr
  rw [isPoint, nearest_eq_of_near isPoint pos near]

/-- Points are no smaller than the least step. -/
theorem two_zpow_le_of_nearest_eq (isPoint : nearest x = x) (pos : 0 < x) :
    (2 : Rat) ^ (-1074 : Int) ≤ x := by
  have least : (2 : Rat) ^ (-1074 : Int) ≤ 2 ^ gridExponent x :=
    zpow_le_zpow_right₀ one_le_two (le_max_right _ _)
  exact least.trans (step_le_of_nearest_eq isPoint pos)

/-- The numbers of the format are below two to 1024. -/
theorem lt_two_pow_of_ofRat (rounds : ofRat x = .finite x) (pos : 0 < x) :
    x < (2 : Rat) ^ (1024 : Int) := by
  have isPoint := nearest_eq_of_ofRat rounds
  by_contra below
  have beyond : (2 : Rat) ^ (1024 : Int) ≤ x := not_lt.mp below
  have large := (zpow_lt_zpow_iff_right₀ (one_lt_two (α := Rat))).mp
    (beyond.trans_lt (lt_two_zpow_leadingBit pos))
  have exponent : 0 ≤ gridExponent x := by
    have := leadingBit_le_gridExponent x
    omega
  -- numbers as large as this are whole
  rcases eq_steps_of_nearest_eq isPoint pos with ⟨k, xEq⟩
  obtain ⟨gap, isGap⟩ := Int.eq_ofNat_of_zero_le exponent
  have whole : x = ((k * 2 ^ gap : Int) : Rat) := by
    conv_lhs => rw [xEq, isGap, zpow_natCast]
    push_cast
    rfl
  have num : x.num = k * 2 ^ gap := by rw [whole, Rat.num_intCast]
  have den : x.den = 1 := by rw [whole, Rat.den_intCast]
  have reached : limit ≤ x.num.natAbs := by
    have positive : 0 ≤ x.num := (Rat.num_pos.mpr pos).le
    rw [Int.natAbs_of_nonneg positive, num]
    rw [whole, zpow_ofNat] at beyond
    have twos : ((twoTo 1024 : Nat) : Rat) ≤ ((k * 2 ^ gap : Int) : Rat) := by
      rw [cast_twoTo]
      exact beyond
    have twosInt : ((twoTo 1024 : Nat) : Int) ≤ k * 2 ^ gap := by exact_mod_cast twos
    exact twosInt
  rw [ofRat, isPoint] at rounds
  rw [if_pos ⟨den, reached⟩] at rounds
  cases rounds

/-- What is rounded to a number is not much greater. -/
theorem le_of_ofRat (rounds : ofRat y = .finite x) (nonneg : 0 ≤ y) (pos : 0 < x) :
    y ≤ 2 * x + 1 := by
  have near := abs_nearest_sub_le y
  rw [nearest_eq_of_ofRat rounds, abs_of_nonneg nonneg] at near
  have := (abs_le.mp near).1
  have : y / 2 ^ 53 ≤ y / 4 := by gcongr; norm_num
  have : (1 : Rat) / 2 ^ 250 ≤ 1 / 4 := by norm_num
  linarith

/-! ## Signs -/

theorem nearest_neg (x : Rat) : nearest (-x) = -nearest x := by
  have steps : gridSteps (-x) (gridExponent x) = -gridSteps x (gridExponent x) := by
    unfold gridSteps
    rw [Rat.neg_num, Rat.neg_den, neg_mul]
    split
    · exact roundRatio_neg _ x.den_pos
    · exact roundRatio_neg _ (Nat.mul_pos x.den_pos (Nat.two_pow_pos _))
  have exponent : gridExponent (-x) = gridExponent x := by
    rw [gridExponent, Rat.neg_num, Rat.neg_den, Int.natAbs_neg]
    rfl
  unfold nearest
  rw [Rat.neg_num, exponent, steps]
  by_cases zero : x.num = 0
  · rw [if_pos zero, if_pos (neg_eq_zero.mpr zero), neg_zero]
  · rw [if_neg zero, if_neg (neg_ne_zero.mpr zero), ofSteps_eq, ofSteps_eq, Int.cast_neg, neg_mul]

/-- Rounding does not look at the sign. -/
theorem ofRat_neg (rounds : ofRat y = .finite x) : ofRat (-y) = .finite (-x) := by
  have isNearest := nearest_eq_of_ofRat rounds
  rw [ofRat, isNearest] at rounds
  rw [ofRat, nearest_neg, isNearest]
  split at rounds
  · cases rounds
  · rename_i within
    rw [if_neg]
    rwa [Rat.neg_den, Rat.neg_num, Int.natAbs_neg]

/-! ## Rounding twice -/

/-- A count of the steps of its own grid is a point. -/
theorem nearest_eq_self (pos : 0 < x) {k : Int} (steps : (k : Rat) * 2 ^ gridExponent x = x) :
    nearest x = x := by
  have step : (0 : Rat) < 2 ^ gridExponent x := zpow_pos two_pos _
  have near := gridSteps_near x (gridExponent x)
  have counts : x / 2 ^ gridExponent x = k := by rw [div_eq_iff step.ne', steps]
  rw [counts] at near
  have same := eq_of_abs_sub_lt (near.trans_lt (by norm_num))
  rw [nearest, if_neg (Rat.num_pos.mpr pos).ne', same, ofSteps_eq, steps]

@[simp]
theorem nearest_zero : nearest 0 = 0 :=
  rfl

/-- A whole number of at most 53 bits is a point. -/
theorem nearest_natCast {n : Nat} (small : n < 2 ^ 53) : nearest n = n := by
  rcases Nat.eq_zero_or_pos n with rfl | pos
  · exact nearest_zero
  have posRat : (0 : Rat) < n := by exact_mod_cast pos
  have bound : (n : Rat) < 2 ^ ((52 : Int) + 1) := by
    rw [show (52 : Int) + 1 = (53 : Nat) from rfl, zpow_natCast]
    exact_mod_cast small
  have order : gridExponent (n : Rat) ≤ 0 := by
    have := leadingBit_le posRat bound
    unfold leadingBit at this
    unfold gridExponent
    omega
  obtain ⟨m, steps⟩ := exists_finer_steps n order
  apply nearest_eq_self posRat (k := m)
  rw [← steps, zpow_zero, mul_one, Int.cast_natCast]

/-- What a positive number is rounded to is a point: it has at most as many steps as a significand
can count, and where it has that many, it has half as many of the next longer ones. -/
theorem nearest_nearest_of_pos (pos : 0 < y) : nearest (nearest y) = nearest y := by
  have shape := nearest_eq pos
  have near := abs_le.mp (gridSteps_near y (gridExponent y))
  have top := lt_steps pos
  have least : -1074 ≤ gridExponent y := le_max_right _ _
  generalize gridSteps y (gridExponent y) = m at shape near
  generalize gridExponent y = e at shape near top least
  have step : (0 : Rat) < 2 ^ e := zpow_pos two_pos e
  have scaled : y / 2 ^ e < 2 ^ 53 := by rwa [div_lt_iff₀ step]
  have positive : 0 < y / 2 ^ e := div_pos pos step
  have low : 0 ≤ m := by
    have above : (-1 : Rat) < m := by linarith
    have whole : -1 < m := by exact_mod_cast above
    omega
  have high : m ≤ 2 ^ 53 := by
    have below : (m : Rat) < 2 ^ 53 + 1 := by linarith
    have whole : m < 2 ^ 53 + 1 := by exact_mod_cast below
    omega
  rcases low.eq_or_lt with zero | some
  · rw [shape, ← zero, Int.cast_zero, zero_mul]
    rfl
  have isPos : 0 < nearest y := by
    rw [shape]
    exact mul_pos (by exact_mod_cast some) step
  -- it is enough to count it in steps at least as long as its own
  suffices coarse : ∃ k other : Int, nearest y = k * (2 : Rat) ^ other ∧
      leadingBit (nearest y) - 52 ≤ other ∧ -1074 ≤ other by
    obtain ⟨k, other, counted, ofBits, notLeast⟩ := coarse
    obtain ⟨n, finer⟩ := exists_finer_steps k (max_le ofBits notLeast)
    exact nearest_eq_self isPos (finer.symm.trans counted.symm)
  rcases high.eq_or_lt with full | fewer
  · refine ⟨2 ^ 52, e + 1, ?_, ?_, by omega⟩
    · rw [shape, full, zpow_add₀ two_ne_zero, zpow_one]
      push_cast
      ring
    · have bits : leadingBit (nearest y) ≤ e + 53 := by
        apply leadingBit_le isPos
        have twice : (2 : Rat) ^ (e + 53 + 1) = 2 ^ 54 * 2 ^ e := by
          rw [add_assoc, zpow_add₀ two_ne_zero, mul_comm]
          norm_num
        rw [shape, full, twice]
        exact mul_lt_mul_of_pos_right (by norm_num) step
      omega
  · refine ⟨m, e, shape, ?_, least⟩
    have bits : leadingBit (nearest y) ≤ e + 52 := by
      apply leadingBit_le isPos
      have whole : (2 : Rat) ^ (e + 52 + 1) = 2 ^ 53 * 2 ^ e := by
        rw [add_assoc, zpow_add₀ two_ne_zero, mul_comm]
        norm_num
      rw [shape, whole]
      exact mul_lt_mul_of_pos_right (by exact_mod_cast fewer) step
    omega

/-- What a number is rounded to is a point. -/
theorem nearest_nearest (y : Rat) : nearest (nearest y) = nearest y := by
  rcases lt_trichotomy y 0 with negative | rfl | positive
  · have opposite := nearest_nearest_of_pos (neg_pos.mpr negative)
    rwa [nearest_neg, nearest_neg, neg_inj] at opposite
  · rfl
  · exact nearest_nearest_of_pos positive

/-- What a number is rounded to in the format is a number of the format. -/
theorem isRounded_ofRat (y : Rat) : (ofRat y).IsRounded := by
  cases rounds : ofRat y with
  | finite x =>
      have isNearest := nearest_eq_of_ofRat rounds
      change ofRat x = .finite x
      rw [← rounds, ← isNearest]
      exact ofRat_congr (nearest_nearest y)
  | negativeZero => trivial
  | infinite negative => trivial
  | nan => trivial

/-! ## Order -/

/-- Counts of steps on either side of a number bound the one that is nearest to it. -/
theorem gridSteps_le {e m : Int} (below : x ≤ m * (2 : Rat) ^ e) : gridSteps x e ≤ m := by
  have step : (0 : Rat) < 2 ^ e := zpow_pos two_pos e
  have near := (abs_le.mp (gridSteps_near x e)).2
  have scaled : x / 2 ^ e ≤ m := by rwa [div_le_iff₀ step]
  have close : (gridSteps x e : Rat) < m + 1 := by linarith
  have whole : gridSteps x e < m + 1 := by exact_mod_cast close
  omega

theorem le_gridSteps {e m : Int} (above : m * (2 : Rat) ^ e ≤ x) : m ≤ gridSteps x e := by
  have step : (0 : Rat) < 2 ^ e := zpow_pos two_pos e
  have near := (abs_le.mp (gridSteps_near x e)).1
  have scaled : (m : Rat) ≤ x / 2 ^ e := by rwa [le_div_iff₀ step]
  have close : (m : Rat) < gridSteps x e + 1 := by linarith
  have whole : m < gridSteps x e + 1 := by exact_mod_cast close
  omega

theorem leadingBit_mono (pos : 0 < x) (order : x ≤ y) : leadingBit x ≤ leadingBit y :=
  leadingBit_le pos (order.trans_lt (lt_two_zpow_leadingBit (pos.trans_le order)))

/-- A power of two is a count of finer steps. -/
theorem exists_steps_of_two_zpow {e top : Int} (order : e ≤ top) :
    ∃ m : Int, (m : Rat) * 2 ^ e = 2 ^ top := by
  obtain ⟨m, steps⟩ := exists_finer_steps 1 order
  exact ⟨m, by rw [← steps, Int.cast_one, one_mul]⟩

/-- Rounding keeps the order of positive numbers. -/
theorem nearest_mono_of_pos (pos : 0 < x) (order : x ≤ y) : nearest x ≤ nearest y := by
  rcases order.eq_or_lt with rfl | less
  · exact le_rfl
  have yPos := pos.trans less
  rw [nearest_eq pos, nearest_eq yPos]
  have steps : (0 : Rat) < 2 ^ gridExponent x := zpow_pos two_pos _
  have bits := leadingBit_mono pos order
  have grids : gridExponent x ≤ gridExponent y := max_le_max (Int.sub_le_sub_right bits 52) le_rfl
  rcases grids.eq_or_lt with same | finer
  · -- on one grid, numbers that differ by less than a step have neighbours in order
    rw [← same]
    apply mul_le_mul_of_nonneg_right _ steps.le
    have nearX := (abs_le.mp (gridSteps_near x (gridExponent x))).2
    have nearY := (abs_le.mp (gridSteps_near y (gridExponent x))).1
    have scaled : x / 2 ^ gridExponent x < y / 2 ^ gridExponent x :=
      div_lt_div_of_pos_right less steps
    have close : (gridSteps x (gridExponent x) : Rat) < gridSteps y (gridExponent x) + 1 := by
      linarith
    have whole : gridSteps x (gridExponent x) < gridSteps y (gridExponent x) + 1 := by
      exact_mod_cast close
    exact_mod_cast Int.lt_add_one_iff.mp whole
  · -- the first power of two from which on steps are longer is a point of both grids
    have isBit : gridExponent y = leadingBit y - 52 := by
      have least : -1074 ≤ gridExponent x := le_max_right _ _
      have := max_choice (leadingBit y - 52) (-1074)
      have shape : gridExponent y = max (leadingBit y - 52) (-1074) := rfl
      omega
    have lower : leadingBit x + 1 ≤ leadingBit y := by
      have := leadingBit_le_gridExponent x
      omega
    have between : x ≤ 2 ^ leadingBit y :=
      (lt_two_zpow_leadingBit pos).le.trans (zpow_le_zpow_right₀ one_le_two lower)
    obtain ⟨m, isFirst⟩ := exists_steps_of_two_zpow (by omega : gridExponent x ≤ leadingBit y)
    obtain ⟨n, isSecond⟩ := exists_steps_of_two_zpow (by omega : gridExponent y ≤ leadingBit y)
    have below : gridSteps x (gridExponent x) ≤ m := gridSteps_le (by rwa [isFirst])
    have above : n ≤ gridSteps y (gridExponent y) :=
      le_gridSteps (by rw [isSecond]; exact two_zpow_leadingBit_le yPos)
    calc (gridSteps x (gridExponent x) : Rat) * 2 ^ gridExponent x
        ≤ m * 2 ^ gridExponent x := mul_le_mul_of_nonneg_right (by exact_mod_cast below) steps.le
      _ = n * 2 ^ gridExponent y := isFirst.trans isSecond.symm
      _ ≤ gridSteps y (gridExponent y) * 2 ^ gridExponent y :=
        mul_le_mul_of_nonneg_right (by exact_mod_cast above) (zpow_pos two_pos _).le

/-- Rounding keeps the order of numbers. -/
theorem nearest_mono (order : x ≤ y) : nearest x ≤ nearest y := by
  rcases lt_or_ge 0 x with xPos | xNonpos
  · exact nearest_mono_of_pos xPos order
  · rcases lt_or_ge y 0 with yNeg | yNonneg
    · have opposite := nearest_mono_of_pos (neg_pos.mpr yNeg) (neg_le_neg order)
      rwa [nearest_neg, nearest_neg, neg_le_neg_iff] at opposite
    · have low : nearest x ≤ 0 := by
        have opposite := nearest_nonneg (neg_nonneg.mpr xNonpos)
        rwa [nearest_neg, neg_nonneg] at opposite
      exact low.trans (nearest_nonneg yNonneg)

/-- The double of a point is a point. -/
theorem nearest_two_mul (isPoint : nearest x = x) (pos : 0 < x) : nearest (2 * x) = 2 * x := by
  have doubled : 0 < 2 * x := by linarith
  rcases eq_steps_of_nearest_eq isPoint pos with ⟨k, xEq⟩
  have bits : leadingBit (2 * x) ≤ leadingBit x + 1 := by
    apply leadingBit_le doubled
    rw [zpow_add_one₀ two_ne_zero, mul_comm]
    exact mul_lt_mul_of_pos_right (lt_two_zpow_leadingBit pos) two_pos
  have coarser : gridExponent (2 * x) ≤ gridExponent x + 1 := by
    have shape (z : Rat) : gridExponent z = max (leadingBit z - 52) (-1074) := rfl
    rw [shape, shape]
    omega
  obtain ⟨m, steps⟩ := exists_finer_steps k coarser
  apply nearest_eq_self doubled (k := m)
  rw [← steps, zpow_add_one₀ two_ne_zero, ← mul_assoc, ← xEq, mul_comm]

/-- A number of smaller magnitude is rounded to one. -/
theorem abs_nearest_le_nearest (order : |x| ≤ y) : |nearest x| ≤ nearest y := by
  obtain ⟨low, high⟩ := abs_le.mp order
  refine abs_le.mpr ⟨?_, nearest_mono high⟩
  rw [← nearest_neg]
  exact nearest_mono low

/-- What is no greater in magnitude than a number in range is in range. -/
theorem ofRat_eq_of_abs_le {c : Rat} (order : |x| ≤ y) (rounds : ofRat y = .finite c) :
    ofRat x = .finite (nearest x) := by
  rw [ofRat]
  apply if_neg
  rintro ⟨whole, beyond⟩
  have magnitude : (2 : Rat) ^ (1024 : Int) ≤ |nearest x| := by
    have inInt : ((twoTo 1024 : Nat) : Int) ≤ ((nearest x).num.natAbs : Int) := beyond
    have inRat : ((twoTo 1024 : Nat) : Rat) ≤ ((nearest x).num.natAbs : Nat) := by
      exact_mod_cast inInt
    have isWhole : nearest x = (nearest x).num := by
      conv_lhs => rw [← Rat.num_div_den (nearest x), whole, Nat.cast_one, div_one]
    rw [isWhole, ← Int.cast_abs, Int.abs_eq_natAbs, Int.cast_natCast, zpow_ofNat, ← cast_twoTo]
    exact inRat
  have isPoint := nearest_eq_of_ofRat rounds
  have atLeast : (2 : Rat) ^ (1024 : Int) ≤ c :=
    magnitude.trans (isPoint ▸ abs_nearest_le_nearest order)
  have inFormat : ofRat c = .finite c := by
    have rounded := isRounded_ofRat y
    rwa [rounds] at rounded
  exact absurd (lt_two_pow_of_ofRat inFormat ((zpow_pos two_pos _).trans_le atLeast)) atLeast.not_gt

/-! ## Results of arithmetic -/

theorem isRounded_zero : (finite 0).IsRounded :=
  ofRat_eq (by norm_num)

theorem isRounded_one : (finite 1).IsRounded := by
  change ofRat 1 = .finite 1
  decide +kernel

/-- Sums are numbers of the format, whatever is added. -/
theorem isRounded_add (x y : Binary64) : (x.add y).IsRounded := by
  unfold add
  split
  case h_3 => split <;> trivial
  all_goals first | trivial | exact isRounded_ofRat _

theorem isRounded_least {x y : Binary64} (first : x.IsRounded) (second : y.IsRounded) :
    (x.least y).IsRounded := by
  unfold least
  split
  · exact second
  · exact first

theorem isRounded_greatest {x y : Binary64} (first : x.IsRounded) (second : y.IsRounded) :
    (x.greatest y).IsRounded := by
  unfold greatest
  split
  · exact second
  · exact first

section Arithmetic

variable {x y : Binary64}

/-- A number that is not negative is rounded to one, or beyond all of them. -/
theorem ofRat_of_nonneg {q : Rat} (nonneg : 0 ≤ q) :
    (∃ c, 0 ≤ c ∧ ofRat q = .finite c) ∨ ofRat q = .infinite false := by
  have rounded := nearest_nonneg nonneg
  unfold ofRat
  dsimp only
  split
  · rw [decide_eq_false (not_lt.mpr (Rat.num_nonneg.mpr rounded))]
    exact .inr rfl
  · exact .inl ⟨_, rounded, rfl⟩

theorem isRounded_mul (x y : Binary64) : (x.mul y).IsRounded := by
  unfold mul
  split
  case h_3 => split <;> trivial
  case h_4 => split <;> trivial
  all_goals first | trivial | exact isRounded_ofRat _

theorem le_infinite (notNegative : (finite 0).le x = true) : x.le (.infinite false) = true := by
  rcases notNegative_iff.mp notNegative with ⟨isFinite, -⟩ | rfl
  · cases x <;> first | rfl | exact Bool.noConfusion isFinite
  · rfl

theorem isFinite_of_le (notNegative : (finite 0).le x = true) (order : x.le y = true)
    (isFinite : y.isFinite = true) : x.isFinite = true := by
  rcases notNegative_iff.mp notNegative with ⟨xFinite, -⟩ | rfl
  · exact xFinite
  · cases y <;> first | cases order | cases isFinite

theorem isFinite_neg (isFinite : x.isFinite = true) : x.neg.isFinite = true := by
  cases x with
  | finite value =>
      rw [neg]
      split <;> rfl
  | negativeZero => rfl
  | infinite sign => cases isFinite
  | nan => cases isFinite

theorem toRat_neg (isFinite : x.isFinite = true) : x.neg.toRat = -x.toRat := by
  cases x with
  | finite value =>
      rw [neg]
      split
      · rename_i isZero
        rw [toRat, toRat, isZero, neg_zero]
      · rfl
  | negativeZero => rw [neg, toRat, toRat, neg_zero]
  | infinite sign => cases isFinite
  | nan => cases isFinite

/-- A finite number of the format is a point of the grid. -/
theorem nearest_toRat (isFinite : x.isFinite = true) (rounded : x.IsRounded) :
    nearest x.toRat = x.toRat := by
  cases x with
  | finite value => exact nearest_eq_of_ofRat rounded
  | negativeZero => rfl
  | infinite sign => cases isFinite
  | nan => cases isFinite

theorem ofRat_toRat (isFinite : x.isFinite = true) (rounded : x.IsRounded) :
    ofRat x.toRat = .finite x.toRat := by
  cases x with
  | finite value => exact rounded
  | negativeZero => exact isRounded_zero
  | infinite sign => cases isFinite
  | nan => cases isFinite

/-- The greatest of zero and another number is not negative. -/
theorem notNegative_greatest (x : Binary64) : (finite 0).le ((finite 0).greatest x) = true := by
  unfold greatest
  split
  · rename_i above
    rw [le, above, Bool.true_or]
  · decide

/-- A finite number above zero carries no minus sign. -/
theorem isNegative_eq_false (isFinite : x.isFinite = true) (positive : 0 < x.toRat) :
    x.isNegative = false := by
  cases x with
  | finite value => exact decide_eq_false positive.not_gt
  | negativeZero => exact absurd positive (lt_irrefl 0)
  | infinite sign => cases isFinite
  | nan => cases isFinite

/-- An infinity times a finite number above zero is the infinity. -/
theorem infinite_mul (isFinite : x.isFinite = true) (positive : 0 < x.toRat) (sign : Bool) :
    (infinite sign).mul x = .infinite sign ∧ x.mul (.infinite sign) = .infinite sign := by
  have plus := isNegative_eq_false isFinite positive
  cases x with
  | finite value =>
      have nonzero : ¬value = 0 := positive.ne'
      simp [mul, plus, toRat, nonzero]
  | negativeZero => exact absurd positive (lt_irrefl 0)
  | infinite sign => cases isFinite
  | nan => cases isFinite

/-- The product of numbers that are not negative is not, where it is a number. -/
theorem notNegative_or_nan_mul (xNotNegative : (finite 0).le x = true)
    (yNotNegative : (finite 0).le y = true) :
    (finite 0).le (x.mul y) = true ∨ x.mul y = .nan := by
  have withInfinite (z : Binary64) (isFinite : z.isFinite = true) (nonneg : 0 ≤ z.toRat) :
      ((finite 0).le ((infinite false).mul z) = true ∨ (infinite false).mul z = .nan) ∧
      ((finite 0).le (z.mul (infinite false)) = true ∨ z.mul (infinite false) = .nan) := by
    rcases nonneg.eq_or_lt with zero | positive
    · cases z with
      | finite value =>
          obtain rfl : 0 = value := zero
          exact ⟨.inr rfl, .inr rfl⟩
      | negativeZero => exact ⟨.inr rfl, .inr rfl⟩
      | infinite sign => cases isFinite
      | nan => cases isFinite
    · obtain ⟨left, right⟩ := infinite_mul isFinite positive false
      rw [left, right]
      exact ⟨.inl rfl, .inl rfl⟩
  rcases notNegative_iff.mp xNotNegative with ⟨xFinite, xNonneg⟩ | rfl
  · rcases notNegative_iff.mp yNotNegative with ⟨yFinite, -⟩ | rfl
    · exact .inl (notNegative_mul xFinite yFinite xNotNegative yNotNegative)
    · exact (withInfinite x xFinite xNonneg).2
  · rcases notNegative_iff.mp yNotNegative with ⟨yFinite, yNonneg⟩ | rfl
    · exact (withInfinite y yFinite yNonneg).1
    · exact .inl rfl

theorem le_self_of_notNegative (notNegative : (finite 0).le x = true) :
    x.le x = true := by
  rcases notNegative_iff.mp notNegative with ⟨isFinite, -⟩ | rfl
  · exact (le_iff_of_isFinite isFinite isFinite).mpr le_rfl
  · rfl

end Arithmetic

end Binary64

/-- No integer is nearer to a number than the one it is rounded to. -/
theorem abs_roundEven_sub_le (x : Rat) (m : Int) : |(roundEven x : Rat) - x| ≤ |m - x| := by
  have near := roundEven_near x
  by_cases close : |(m : Rat) - x| < 1 / 2
  · have same : roundEven x = m := by
      apply Binary64.eq_of_abs_sub_lt
      have apart := abs_sub_le (roundEven x : Rat) x m
      rw [abs_sub_comm x] at apart
      linarith
    rw [same]
  · linarith

end Eaves.Number
