import Eaves.Number.Decimal
import Eaves.Proofs.Number.Grid

/-!
# The digits of the shortest text

The digits of a number are looked for with one digit, then with two, and so on up to
seventeen.  Of two neighbours the nearer one is tried first, and with seventeen digits it
is so near to the number that it is rounded to it: so digits are found for every number,
and what is found is always read back as the number.
-/

namespace Eaves.Number

open Binary64

/-! ## Powers of ten -/

theorem cast_tenTo (k : Nat) : ((tenTo k : Nat) : Rat) = 10 ^ k := by
  simp [tenTo]

theorem ten_pow_le_tenTo {k n : Nat} (order : k ≤ n) : 10 ^ k ≤ tenTo n :=
  Nat.pow_le_pow_right (by decide) order

namespace Decimal

/-- The magnitude of a decimal is its digits scaled by its power of ten. -/
theorem toRat_eq (d : Decimal) :
    d.toRat = if d.negative then -(d.digits * (10 : Rat) ^ d.exponent)
      else d.digits * (10 : Rat) ^ d.exponent := by
  have magnitude : (if d.exponent < 0 then mkRat d.digits (tenTo (-d.exponent).toNat)
      else ((d.digits * tenTo d.exponent.toNat : Nat) : Int)) =
        d.digits * (10 : Rat) ^ d.exponent := by
    split
    · obtain ⟨k, isExponent⟩ : ∃ k : Nat, d.exponent = -k := ⟨(-d.exponent).toNat, by omega⟩
      rw [isExponent, Rat.mkRat_eq_div, neg_neg, Int.toNat_natCast, cast_tenTo, zpow_neg,
        zpow_natCast, div_eq_mul_inv, Int.cast_natCast]
    · obtain ⟨k, isExponent⟩ := Int.eq_ofNat_of_zero_le (show 0 ≤ d.exponent by omega)
      rw [isExponent, Int.toNat_natCast, Int.cast_natCast, Nat.cast_mul, cast_tenTo, zpow_natCast]
  unfold toRat
  dsimp only
  rw [magnitude]

/-- A decimal that is not far outside the range of the format is rounded into it. -/
theorem toBinary64_eq {d : Decimal} (notZero : d.digits ≠ 0) (high : d.exponent ≤ 400)
    (low : -400 ≤ d.exponent + d.digitCount) : d.toBinary64 = ofRat d.toRat := by
  rw [toBinary64, if_neg notZero, if_neg (by omega), if_neg (by omega)]

/-- A decimal that is read as a positive number is rounded to it. -/
theorem ofRat_of_toBinary64 {m : Nat} {e : Int} {x : Rat} (pos : 0 < x)
    (reads : toBinary64 ⟨false, m, 0, e⟩ = .finite x) :
    m ≠ 0 ∧ -400 ≤ e ∧ ofRat (m * (10 : Rat) ^ e) = .finite x := by
  have notZero : Binary64.finite 0 ≠ .finite x := by
    intro same
    exact pos.ne (Binary64.finite.inj same)
  unfold toBinary64 at reads
  dsimp only at reads
  split at reads
  · exact absurd reads notZero
  · rename_i digits
    split at reads
    · cases reads
    · split at reads
      · exact absurd reads notZero
      · rw [toRat_eq] at reads
        exact ⟨digits, by omega, reads⟩

end Decimal

namespace Binary64

/-! ## The place of the first digit -/

theorem power_eq (e : Int) :
    (if e < 0 then mkRat 1 (tenTo (-e).toNat) else ((tenTo e.toNat : Nat) : Int)) =
      (10 : Rat) ^ e := by
  have power := Decimal.toRat_eq ⟨false, 1, 0, e⟩
  simpa [Decimal.toRat] using power

/-- The estimate of a decimal exponent from a binary one is too great by one at most. -/
theorem ten_zpow_guess_le {b : Int} (low : -1074 ≤ b) (high : b ≤ 1023) :
    (10 : Rat) ^ (b * 30103 / 100000 - 1) ≤ 2 ^ b := by
  rcases le_or_gt 0 b with nonneg | negative
  · obtain ⟨n, rfl⟩ := Int.eq_ofNat_of_zero_le nonneg
    have table : ∀ n < 1024, 10 ^ (n * 30103 / 100000) ≤ 2 ^ n * 10 := by decide +kernel
    have entry : (10 : Rat) ^ (n * 30103 / 100000) ≤ 2 ^ n * 10 := by
      exact_mod_cast table n (by omega)
    have guess : (n : Int) * 30103 / 100000 = ((n * 30103 / 100000 : Nat) : Int) := by
      push_cast
      rfl
    rw [guess, zpow_sub₀ (by norm_num), zpow_natCast, zpow_natCast, zpow_one,
      div_le_iff₀ (by norm_num)]
    exact entry
  · obtain ⟨n, rfl⟩ : ∃ n : Nat, b = -n := ⟨(-b).toNat, by omega⟩
    have table : ∀ n < 1075, 2 ^ n ≤ 10 ^ (n * 30103 / 100000 + 1) := by decide +kernel
    have entry : (2 : Rat) ^ n ≤ 10 ^ (n * 30103 / 100000 + 1) := by
      exact_mod_cast table n (by omega)
    have guess : -(n : Int) * 30103 / 100000 - 1 ≤ -((n * 30103 / 100000 + 1 : Nat) : Int) := by
      push_cast
      omega
    calc (10 : Rat) ^ (-(n : Int) * 30103 / 100000 - 1)
        ≤ 10 ^ (-((n * 30103 / 100000 + 1 : Nat) : Int)) :=
          zpow_le_zpow_right₀ (by norm_num) guess
      _ = (10 ^ (n * 30103 / 100000 + 1))⁻¹ := by rw [zpow_neg, zpow_natCast]
      _ ≤ (2 ^ n)⁻¹ := inv_anti₀ (by positivity) entry
      _ = 2 ^ (-(n : Int)) := by rw [zpow_neg, zpow_natCast]

/-- The first digit of a number of the format is not placed too high, and no place is out of
range. -/
theorem decimalExponent_spec {x : Rat} (rounds : ofRat x = .finite x) (pos : 0 < x) :
    (10 : Rat) ^ decimalExponent x ≤ x ∧ -330 ≤ decimalExponent x ∧ decimalExponent x ≤ 330 := by
  have low : -1074 ≤ leadingBit x := by
    have least := two_zpow_le_of_nearest_eq (nearest_eq_of_ofRat rounds) pos
    have := (zpow_lt_zpow_iff_right₀ (one_lt_two (α := Rat))).mp
      (least.trans_lt (lt_two_zpow_leadingBit pos))
    omega
  have high : leadingBit x ≤ 1023 := leadingBit_le pos (lt_two_pow_of_ofRat rounds pos)
  have estimate := (ten_zpow_guess_le low high).trans (two_zpow_leadingBit_le pos)
  unfold decimalExponent
  simp only [power_eq]
  unfold leadingBit at low high estimate
  generalize binaryExponent x.num.natAbs x.den = b at *
  split
  · rename_i reached
    exact ⟨reached, by omega, by omega⟩
  · split
    · rename_i reached
      exact ⟨reached, by omega, by omega⟩
    · exact ⟨estimate, by omega, by omega⟩

/-! ## Neighbours -/

/-- The neighbour that is tried first is at most half a step away. -/
theorem gridNeighbours_spec {x : Rat} (nonneg : 0 ≤ x) (e : Int) :
    ∃ m other, gridNeighbours x e = [m, other] ∧ |(m : Rat) * 10 ^ e - x| ≤ 10 ^ e / 2 := by
  have step : (0 : Rat) < 10 ^ e := zpow_pos (by norm_num) e
  obtain ⟨scaled, isScaled⟩ : ∃ scaled : Rat, scaled = x / 10 ^ e := ⟨_, rfl⟩
  have near : |(roundEven scaled : Rat) * 10 ^ e - x| ≤ 10 ^ e / 2 := by
    have apart : (roundEven scaled : Rat) * 10 ^ e - x = (roundEven scaled - scaled) * 10 ^ e := by
      rw [sub_mul, isScaled, div_mul_cancel₀ _ step.ne']
    rw [apart, abs_mul, abs_of_pos step]
    calc |(roundEven scaled : Rat) - scaled| * 10 ^ e ≤ 1 / 2 * 10 ^ e :=
          mul_le_mul_of_nonneg_right (roundEven_near scaled) step.le
      _ = 10 ^ e / 2 := by ring
  have shape : gridNeighbours x e =
      if (roundEven scaled).toNat = scaled.floor.toNat
        then [scaled.floor.toNat, scaled.floor.toNat + 1]
        else [scaled.floor.toNat + 1, scaled.floor.toNat] := by
    have same : (if e < 0 then x * ((tenTo (-e).toNat : Nat) : Int)
        else x / ((tenTo e.toNat : Nat) : Int)) = scaled := by
      rw [isScaled]
      split
      · obtain ⟨k, rfl⟩ : ∃ k : Nat, e = -k := ⟨(-e).toNat, by omega⟩
        rw [neg_neg, Int.toNat_natCast, Int.cast_natCast, cast_tenTo, zpow_neg, zpow_natCast,
          div_inv_eq_mul]
      · obtain ⟨k, rfl⟩ := Int.eq_ofNat_of_zero_le (show 0 ≤ e by omega)
        rw [Int.toNat_natCast, Int.cast_natCast, cast_tenTo, zpow_natCast]
    unfold gridNeighbours
    simp only [same]
  have floorNonneg : 0 ≤ scaled.floor := by
    rw [Rat.floor_def]
    apply Int.ediv_nonneg (Rat.num_nonneg.mpr _) (Int.natCast_nonneg _)
    rw [isScaled]
    exact div_nonneg nonneg step.le
  have either : roundEven scaled = scaled.floor ∨ roundEven scaled = scaled.floor + 1 := by
    rw [Rat.floor_def]
    exact roundRatio_eq_or _ _
  have cast : (((roundEven scaled).toNat : Nat) : Rat) = roundEven scaled := by
    have : (((roundEven scaled).toNat : Nat) : Int) = roundEven scaled := by omega
    exact_mod_cast congrArg (Int.cast : Int → Rat) this
  rw [← cast] at near
  rw [shape]
  split
  · rename_i same
    exact ⟨_, _, rfl, same ▸ near⟩
  · have next : (roundEven scaled).toNat = scaled.floor.toNat + 1 := by omega
    exact ⟨_, _, rfl, next ▸ near⟩

/-- With seventeen digits the neighbour that is tried first is read back as the number. -/
theorem toBinary64_seventeen {x : Rat} (rounds : ofRat x = .finite x) (pos : 0 < x) :
    ∃ m other, gridNeighbours x (decimalExponent x - (17 : Nat) + 1) = [m, other] ∧
      Decimal.toBinary64 ⟨false, m, 0, decimalExponent x - (17 : Nat) + 1⟩ = .finite x := by
  rcases decimalExponent_spec rounds pos with ⟨first, low, high⟩
  obtain ⟨e, isPlace⟩ : ∃ e, e = decimalExponent x - (17 : Nat) + 1 := ⟨_, rfl⟩
  rcases gridNeighbours_spec pos.le e with ⟨m, other, areNeighbours, near⟩
  rw [← isPlace]
  refine ⟨m, other, areNeighbours, ?_⟩
  have step : (10 : Rat) ^ e * 10 ^ 16 ≤ x := by
    rw [isPlace, ← zpow_natCast, ← zpow_add₀ (by norm_num)]
    convert first using 2
    push_cast
    ring
  have close : |(m : Rat) * 10 ^ e - x| < x / 2 ^ 54 := by
    apply near.trans_lt
    rw [lt_div_iff₀ (by norm_num)]
    have stepPos : (0 : Rat) < 10 ^ e := zpow_pos (by norm_num) e
    linarith
  have notZero : m ≠ 0 := by
    rintro rfl
    rw [Nat.cast_zero, zero_mul, zero_sub, abs_neg, abs_of_pos pos] at close
    have : x / 2 ^ 54 < x := div_lt_self pos (by norm_num)
    linarith
  rw [Decimal.toBinary64_eq notZero (show e ≤ 400 by omega)
    (show -400 ≤ e + (0 : Nat) by omega), Decimal.toRat_eq]
  exact ofRat_eq_of_near rounds pos close

/-! ## The digits that are found -/

/-- What is found is read back as the number, where some count of digits within reach has a first
neighbour that is. -/
theorem toBinary64_shortestFrom {x : Rat} {leading : Int} {k m other : Nat}
    (areNeighbours : gridNeighbours x (leading - k + 1) = [m, other])
    (reads : Decimal.toBinary64 ⟨false, m, 0, leading - k + 1⟩ = .finite x) (fuel count : Nat)
    (atMost : count ≤ k) (within : k < count + fuel) :
    Decimal.toBinary64 ⟨false, (shortestFrom x leading count fuel).1, 0,
      (shortestFrom x leading count fuel).2⟩ = .finite x := by
  induction fuel generalizing count with
  | zero => omega
  | succ fuel ih =>
      rw [shortestFrom]
      cases search : (gridNeighbours x (leading - count + 1)).find? fun m =>
          decide (Decimal.toBinary64 ⟨false, m, 0, leading - count + 1⟩ = .finite x) with
      | some found =>
          have isHit := List.find?_some search
          simpa using isHit
      | none =>
          rcases atMost.lt_or_eq with later | rfl
          · exact ih (count + 1) later (by omega)
          · rw [areNeighbours, List.find?_cons_of_pos (by simpa using reads)] at search
            cases search

/-- Dropping zeros at the end leaves what digits denote. -/
theorem dropZeros_spec (fuel m : Nat) (e : Int) :
    ((dropZeros fuel m e).1 : Rat) * 10 ^ (dropZeros fuel m e).2 = m * 10 ^ e ∧
      e ≤ (dropZeros fuel m e).2 := by
  induction fuel generalizing m e with
  | zero => exact ⟨rfl, le_rfl⟩
  | succ fuel ih =>
      rw [dropZeros]
      split
      · rename_i zero
        rcases ih (m / 10) (e + 1) with ⟨same, later⟩
        refine ⟨?_, by omega⟩
        obtain ⟨front, isFront⟩ : ∃ front, m = front * 10 := ⟨m / 10, by omega⟩
        rw [same, zpow_add₀ (by norm_num), zpow_one, isFront, Nat.mul_div_cancel _ (by decide)]
        push_cast
        ring
      · exact ⟨rfl, le_rfl⟩

/-- Digits and a power of ten as a text, positional where the first digit is near the point. -/
def layOut (m : Nat) (e : Int) : List Char :=
  let digits := Nat.toDigits 10 m
  let leading : Int := e + digits.length - 1
  if -4 ≤ leading ∧ leading < 16 then
    if 0 ≤ e then digits ++ List.replicate e.toNat '0' ++ ['.', '0']
    else
      let padded := paddedDigits ((-e).toNat + 1) m
      padded.take (padded.length - (-e).toNat) ++ '.' :: padded.drop (padded.length - (-e).toNat)
  else
    let fraction := digits.drop 1
    digits.take 1 ++ (if fraction.isEmpty then [] else '.' :: fraction) ++
      (if leading < 0 then ['e', '-'] else ['e', '+']) ++ paddedDigits 2 leading.natAbs

theorem shortestDigits_eq (x : Rat) :
    shortestDigits x =
      layOut (dropZeros 20 (shortestFrom x (decimalExponent x) 1 17).1
          (shortestFrom x (decimalExponent x) 1 17).2).1
        (dropZeros 20 (shortestFrom x (decimalExponent x) 1 17).1
          (shortestFrom x (decimalExponent x) 1 17).2).2 := by
  unfold shortestDigits
  generalize shortestFrom x (decimalExponent x) 1 17 = found
  dsimp only
  generalize dropZeros 20 found.1 found.2 = kept
  rfl

/-- Powers of ten beyond the 342nd are not near any number of the format. -/
theorem lt_of_ten_zpow_lt {e : Int} {x : Rat} (top : x < (2 : Rat) ^ (1024 : Int))
    (bound : (10 : Rat) ^ e ≤ 2 * x + 1) : e < 342 := by
  have one : (1 : Rat) ≤ 2 ^ (1024 : Int) := one_le_zpow₀ one_le_two (by decide)
  have tens : (2 : Rat) ^ (1024 : Int) * 4 ≤ 10 ^ (342 : Int) :=
    calc (2 : Rat) ^ (1024 : Int) * 4 = 2 ^ (1024 + 2 : Int) := by
          rw [zpow_add₀ two_ne_zero, zpow_ofNat 2 2]
          norm_num only
      _ = (2 ^ (3 : Int)) ^ (342 : Int) := by
          rw [← zpow_mul, show (1024 + 2 : Int) = 3 * 342 by decide]
      _ ≤ 10 ^ (342 : Int) := zpow_le_zpow_left₀ (by decide) (by norm_num) (by norm_num)
  apply (zpow_lt_zpow_iff_right₀ (by norm_num : (1 : Rat) < 10)).mp
  apply lt_of_lt_of_le _ tens
  generalize (2 : Rat) ^ (1024 : Int) = twos at *
  linarith

/-- A number of the format is written with digits that are rounded to it. -/
theorem exists_layOut {x : Rat} (rounds : ofRat x = .finite x) (pos : 0 < x) :
    ∃ m e, shortestDigits x = layOut m e ∧ m ≠ 0 ∧ -400 ≤ e ∧ e ≤ 400 ∧
      ofRat (m * (10 : Rat) ^ e) = .finite x := by
  rcases toBinary64_seventeen rounds pos with ⟨near, other, areNeighbours, reads⟩
  have hit := toBinary64_shortestFrom areNeighbours reads 17 1 (by decide) (by decide)
  rw [shortestDigits_eq]
  generalize shortestFrom x (decimalExponent x) 1 17 = found at *
  rcases Decimal.ofRat_of_toBinary64 pos hit with ⟨-, low, isRounded⟩
  rcases dropZeros_spec 20 found.1 found.2 with ⟨same, later⟩
  generalize dropZeros 20 found.1 found.2 = kept at *
  rcases kept with ⟨m, e⟩
  dsimp only at same later ⊢
  rw [← same] at isRounded
  have power : (0 : Rat) < 10 ^ e := zpow_pos (by norm_num) e
  have notZero : m ≠ 0 := by
    rintro rfl
    rw [Nat.cast_zero, zero_mul] at isRounded
    have zero : ofRat 0 = .finite 0 := ofRat_eq (by norm_num)
    rw [zero] at isRounded
    exact pos.ne (Binary64.finite.inj isRounded)
  have atLeastOne : (1 : Rat) ≤ m := by exact_mod_cast Nat.one_le_iff_ne_zero.mpr notZero
  have bound := le_of_ofRat isRounded (by positivity) pos
  have high := lt_of_ten_zpow_lt (lt_two_pow_of_ofRat rounds pos)
    ((le_mul_of_one_le_left power.le atLeastOne).trans bound)
  exact ⟨m, e, rfl, notZero, by omega, by omega, isRounded⟩

end Binary64

end Eaves.Number
