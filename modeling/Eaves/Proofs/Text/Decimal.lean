import Eaves.Number.Scientific
import Eaves.Proofs.Number.Shortest
import Eaves.Proofs.Text.Numeral

/-!
# Decimals that were written

The shortest text of a number has one of three layouts, and all of them are a whole part,
a fraction and a power of ten, of which the last two may be absent.  Reading such a text
gives the digits of both parts in a row and the power of ten of the last of them, and so
what the layout was made from.
-/

namespace Eaves.Text

open Number

/-! ## Runs of digits -/

/-- A text whose first character, if it has any, is no part of a run of digits. -/
def EndsDigits (rest : List Char) : Prop :=
  ∀ c, rest.head? = some c → inDigitRun c = false

theorem inDigitRun_of_isDigit {c : Char} (latin : c.isDigit) : inDigitRun c = true := by
  rw [inDigitRun, isDecimal_of_isDigit latin, Bool.true_or]

/-- A run of digits is cut off where it ends. -/
theorem cut_digits {p : Char → Bool} {digits rest : List Char} (run : ∀ c ∈ digits, p c = true)
    (ends : ∀ c, rest.head? = some c → p c = false) :
    (digits ++ rest).takeWhile p = digits ∧ (digits ++ rest).dropWhile p = rest := by
  rw [List.takeWhile_append_of_pos run, List.dropWhile_append_of_pos run]
  cases rest with
  | nil => simp
  | cons c rest =>
      have ended := ends c rfl
      simp [ended]

theorem digitRun?_of_isDigit {digits : List Char} (latin : ∀ c ∈ digits, c.isDigit) :
    digitRun? digits = some (Nat.ofDigitChars 10 digits 0, digits.length) := by
  unfold digitRun?
  split
  · rename_i nothing
    rw [List.isEmpty_iff.mp nothing]
    rfl
  · rename_i something
    have decimal : ∀ c ∈ digits, isDecimal c := fun c mem => isDecimal_of_isDigit (latin c mem)
    rw [spelled?_of_isDecimal decimal (by simpa using something), valueOfDigits_of_isDigit latin,
      List.filter_eq_self.mpr decimal]
    rfl

/-! ## Powers of ten -/

theorem isDigit_of_mem_paddedDigits {width n : Nat} {c : Char}
    (mem : c ∈ Binary64.paddedDigits width n) : c.isDigit := by
  rcases List.mem_append.mp mem with padding | digit
  · rw [List.eq_of_mem_replicate padding]
    rfl
  · exact Nat.isDigit_of_mem_toDigits (by decide) (by decide) digit

theorem ofDigitChars_paddedDigits (width n : Nat) :
    Nat.ofDigitChars 10 (Binary64.paddedDigits width n) 0 = n := by
  unfold Binary64.paddedDigits
  dsimp only
  rw [Nat.ofDigitChars_append, Nat.ofDigitChars_replicate_zero, Nat.mul_zero,
    Nat.ofDigitChars_ten_toDigits]

theorem paddedDigits_ne_nil (width n : Nat) : Binary64.paddedDigits width n ≠ [] := by
  unfold Binary64.paddedDigits
  simp [Nat.toDigits_ne_nil]

/-- A power of ten that is written is read. -/
theorem exponent?_powerText (n : Int) : exponent? (Binary64.powerText n) = some n := by
  have latin : ∀ c ∈ Binary64.paddedDigits 2 n.natAbs, c.isDigit :=
    fun c mem => isDigit_of_mem_paddedDigits mem
  have run : (Binary64.paddedDigits 2 n.natAbs).all inDigitRun = true :=
    List.all_eq_true.mpr fun c mem => inDigitRun_of_isDigit (latin c mem)
  have spelled : spelled? 10 (Binary64.paddedDigits 2 n.natAbs) = some n.natAbs := by
    rw [spelled?_of_isDecimal (fun c mem => isDecimal_of_isDigit (latin c mem))
      (paddedDigits_ne_nil _ _), valueOfDigits_of_isDigit latin, ofDigitChars_paddedDigits]
  unfold Binary64.powerText exponent?
  by_cases negative : n < 0
  · have isPower : -(n.natAbs : Int) = n := by omega
    simp only [if_pos negative, splitSign, run, spelled, true_or, if_true]
    exact congrArg some isPower
  · have isPower : (n.natAbs : Int) = n := by omega
    simp only [if_neg negative, splitSign, run, spelled, true_or, if_true]
    exact congrArg some isPower

/-! ## Parts of a decimal -/

section Parts

variable (negative : Bool) {cs rest : List Char} {whole wholeCount fraction fractionCount : Nat}
  {exponent : Int}

/-- Behind a point there is a fraction, and then the power of ten. -/
theorem unsignedDecimal?_of_point (point : cs.dropWhile inDigitRun = '.' :: rest)
    (wholeRead : digitRun? (cs.takeWhile inDigitRun) = some (whole, wholeCount))
    (fractionRead : digitRun? (rest.takeWhile inDigitRun) = some (fraction, fractionCount))
    (powerRead : exponent? (rest.dropWhile inDigitRun) = some exponent)
    (count : wholeCount + fractionCount ≠ 0) :
    unsignedDecimal? negative cs = some ⟨negative, whole * tenTo fractionCount + fraction,
      wholeCount + fractionCount, exponent - fractionCount⟩ := by
  simp only [unsignedDecimal?, point, wholeRead, fractionRead, powerRead]
  exact if_neg count

/-- Without a point the power of ten follows the whole digits. -/
theorem unsignedDecimal?_of_noPoint (noPoint : cs.dropWhile inDigitRun = rest)
    (isElse : rest.head? ≠ some '.')
    (wholeRead : digitRun? (cs.takeWhile inDigitRun) = some (whole, wholeCount))
    (powerRead : exponent? rest = some exponent) (count : wholeCount ≠ 0) :
    unsignedDecimal? negative cs = some ⟨negative, whole, wholeCount, exponent⟩ := by
  have nothing : digitRun? [] = some (0, 0) := rfl
  have parts : ∀ more, rest ≠ '.' :: more := by
    rintro more rfl
    exact isElse rfl
  simp only [unsignedDecimal?, noPoint, wholeRead, nothing, powerRead, Nat.add_zero]
  rw [if_neg count]
  simp [tenTo]

end Parts

/-! ## Spellings -/

/-- A number as it is spelled: the digits before the point, those after it, and a power of ten. -/
structure Spelling where
  whole : List Char
  fraction : List Char
  power : Option Int

namespace Spelling

/-- The power of ten as it is written; none is not. -/
def tail (spelling : Spelling) : List Char :=
  match spelling.power with
  | some n => Binary64.powerText n
  | none => []

/-- A spelling as a text. -/
def text (spelling : Spelling) : List Char :=
  spelling.whole ++
    ((if spelling.fraction.isEmpty then [] else '.' :: spelling.fraction) ++ spelling.tail)

/-- The decimal that is spelled. -/
def decimal (negative : Bool) (spelling : Spelling) : Decimal :=
  ⟨negative, Nat.ofDigitChars 10 (spelling.whole ++ spelling.fraction) 0,
    spelling.whole.length + spelling.fraction.length,
    spelling.power.getD 0 - spelling.fraction.length⟩

/-- A spelling in Latin digits, with at least one before the point. -/
structure IsLatin (spelling : Spelling) : Prop where
  whole : ∀ c ∈ spelling.whole, c.isDigit
  fraction : ∀ c ∈ spelling.fraction, c.isDigit
  notNil : spelling.whole ≠ []

variable {spelling : Spelling}

theorem endsDigits_tail (spelling : Spelling) : EndsDigits spelling.tail := by
  intro c isHead
  unfold tail at isHead
  split at isHead
  · cases isHead
    rfl
  · cases isHead

theorem exponent?_tail (spelling : Spelling) :
    exponent? spelling.tail = some (spelling.power.getD 0) := by
  unfold tail
  cases spelling.power with
  | some n => exact exponent?_powerText n
  | none => rfl

theorem head?_tail_ne (spelling : Spelling) : spelling.tail.head? ≠ some '.' := by
  unfold tail
  cases spelling.power with
  | some n => exact (by decide : some 'e' ≠ some '.')
  | none => exact (Option.some_ne_none _).symm

/-- A spelling is written with Latin digits and four marks. -/
theorem of_mem_text (isLatin : spelling.IsLatin) {c : Char} (mem : c ∈ spelling.text) :
    c.isDigit ∨ c ∈ ['.', 'e', '+', '-'] := by
  rcases List.mem_append.mp mem with whole | rest
  · exact .inl (isLatin.whole c whole)
  rcases List.mem_append.mp rest with fraction | power
  · split at fraction
    · cases fraction
    · rcases List.mem_cons.mp fraction with rfl | digit
      · exact .inr (by decide)
      · exact .inl (isLatin.fraction c digit)
  · unfold tail at power
    split at power
    · rcases List.mem_cons.mp power with rfl | signed
      · exact .inr (by decide)
      · rcases List.mem_cons.mp signed with sign | digit
        · split at sign <;> exact .inr (by rw [sign]; decide)
        · exact .inl (isDigit_of_mem_paddedDigits digit)
    · cases power

/-- What is spelled is read as the decimal it spells. -/
theorem unsignedDecimal?_text (isLatin : spelling.IsLatin) (negative : Bool) :
    unsignedDecimal? negative spelling.text = some (spelling.decimal negative) := by
  have wholeRun := fun c mem => inDigitRun_of_isDigit (isLatin.whole c mem)
  have fractionRun := fun c mem => inDigitRun_of_isDigit (isLatin.fraction c mem)
  have shifted : Nat.ofDigitChars 10 spelling.fraction (Nat.ofDigitChars 10 spelling.whole 0) =
      10 ^ spelling.fraction.length * Nat.ofDigitChars 10 spelling.whole 0 +
        Nat.ofDigitChars 10 spelling.fraction 0 := Nat.ofDigitChars_eq_ofDigitChars_zero
  have value : Nat.ofDigitChars 10 spelling.whole 0 * tenTo spelling.fraction.length +
      Nat.ofDigitChars 10 spelling.fraction 0 =
        Nat.ofDigitChars 10 (spelling.whole ++ spelling.fraction) 0 := by
    rw [Nat.ofDigitChars_append, shifted, Nat.mul_comm]
    rfl
  have count : spelling.whole.length + spelling.fraction.length ≠ 0 := by
    have := List.length_pos_iff.mpr isLatin.notNil
    omega
  have wholeEnds : EndsDigits
      ((if spelling.fraction.isEmpty then [] else '.' :: spelling.fraction) ++ spelling.tail) := by
    intro c isHead
    split at isHead
    · exact spelling.endsDigits_tail c isHead
    · cases isHead
      rfl
  rcases cut_digits wholeRun wholeEnds with ⟨takeWhole, dropWhole⟩
  rcases cut_digits fractionRun spelling.endsDigits_tail with ⟨takeFraction, dropFraction⟩
  have wholeRead : digitRun? (spelling.text.takeWhile inDigitRun) =
      some (Nat.ofDigitChars 10 spelling.whole 0, spelling.whole.length) := by
    rw [text, takeWhole, digitRun?_of_isDigit isLatin.whole]
  cases nothing : spelling.fraction.isEmpty with
  | false =>
      have point : spelling.text.dropWhile inDigitRun =
          '.' :: (spelling.fraction ++ spelling.tail) := by
        rw [text, dropWhole, nothing, if_neg Bool.false_ne_true, List.cons_append]
      have fractionRead : digitRun? ((spelling.fraction ++ spelling.tail).takeWhile inDigitRun) =
          some (Nat.ofDigitChars 10 spelling.fraction 0, spelling.fraction.length) := by
        rw [takeFraction, digitRun?_of_isDigit isLatin.fraction]
      have powerRead : exponent? ((spelling.fraction ++ spelling.tail).dropWhile inDigitRun) =
          some (spelling.power.getD 0) := by
        rw [dropFraction, exponent?_tail]
      rw [unsignedDecimal?_of_point negative point wholeRead fractionRead powerRead count, value]
      rfl
  | true =>
      have noFraction := List.isEmpty_iff.mp nothing
      have noPoint : spelling.text.dropWhile inDigitRun = spelling.tail := by
        rw [text, dropWhole, nothing, if_pos rfl, List.nil_append]
      have someWhole : spelling.whole.length ≠ 0 := (List.length_pos_iff.mpr isLatin.notNil).ne'
      rw [unsignedDecimal?_of_noPoint negative noPoint spelling.head?_tail_ne wholeRead
        spelling.exponent?_tail someWhole, decimal, noFraction]
      simp

end Spelling

/-! ## Layouts -/

/-- The digits of a number that is not zero do not start with a zero. -/
theorem exists_toDigits_eq_cons {m : Nat} (notZero : m ≠ 0) :
    ∃ c rest, Nat.toDigits 10 m = c :: rest ∧ c ≠ '0' := by
  induction m using Nat.strongRecOn with
  | _ m ih =>
      rw [Nat.toDigits_eq_if (by decide)]
      split
      · rename_i oneDigit
        have table : ∀ digit < 10, digit ≠ 0 → Nat.digitChar digit ≠ '0' := by decide
        exact ⟨_, [], rfl, table m oneDigit notZero⟩
      · rename_i moreDigits
        rcases ih (m / 10) (by omega) (by omega) with ⟨c, rest, shape, notNought⟩
        rw [shape]
        exact ⟨c, _, rfl, notNought⟩

theorem isDigit_of_mem_toDigits {m : Nat} {c : Char} (mem : c ∈ Nat.toDigits 10 m) : c.isDigit :=
  Nat.isDigit_of_mem_toDigits (by decide) (by decide) mem

/-- A spelling whose whole part has no zero in front of another digit, and which is not that of a
whole number. -/
structure Spelling.IsReal (spelling : Spelling) : Prop extends spelling.IsLatin where
  noZeroInFront : spelling.whole = ['0'] ∨ spelling.whole.head? ≠ some '0'
  notWhole : spelling.fraction ≠ [] ∨ spelling.power ≠ none

/-- A spelling of digits and a power of ten; the place of its last digit is not much above one,
nor that of its first digit much below, unless the power is. -/
structure Spelling.Spells (spelling : Spelling) (m : Nat) (e : Int) : Prop extends
    spelling.IsReal where
  high : spelling.power.getD 0 - spelling.fraction.length ≤ max e 0
  low : min e 0 ≤ spelling.power.getD 0 - spelling.fraction.length +
    (spelling.whole.length + spelling.fraction.length : Nat)
  value : Nat.ofDigitChars 10 (spelling.whole ++ spelling.fraction) 0 *
    (10 : Rat) ^ (spelling.power.getD 0 - spelling.fraction.length) = m * (10 : Rat) ^ e

/-- A whole number with its zeros and a fraction of zero. -/
theorem spells_whole {m : Nat} (notZero : m ≠ 0) (zeros : Nat) :
    Spelling.Spells ⟨Nat.toDigits 10 m ++ List.replicate zeros '0', ['0'], none⟩ m zeros := by
  rcases exists_toDigits_eq_cons notZero with ⟨first, others, shape, notNought⟩
  refine ⟨⟨⟨?_, by simp, by simp [shape]⟩, ?_, by simp⟩, ?_, ?_, ?_⟩
  · intro c mem
    rcases List.mem_append.mp mem with digit | zero
    · exact isDigit_of_mem_toDigits digit
    · rw [List.eq_of_mem_replicate zero]
      rfl
  · rw [shape]
    exact .inr fun same => notNought (Option.some.inj same)
  · dsimp only [Option.getD_none, List.length_singleton]
    omega
  · dsimp only [Option.getD_none, List.length_singleton]
    omega
  · have digits : Nat.ofDigitChars 10 ((Nat.toDigits 10 m ++ List.replicate zeros '0') ++ ['0']) 0 =
        10 * (10 ^ zeros * m) := by
      rw [Nat.ofDigitChars_append, Nat.ofDigitChars_append, Nat.ofDigitChars_replicate_zero,
        Nat.ofDigitChars_ten_toDigits]
      rfl
    rw [digits]
    simp only [Option.getD_none, List.length_singleton, Nat.cast_one, zero_sub, zpow_natCast,
      Nat.cast_mul, Nat.cast_pow, Nat.cast_ofNat]
    rw [zpow_neg_one]
    ring

/-- A number with its point inside the digits, or in front of them behind a zero. -/
theorem spells_positional {m : Nat} (notZero : m ≠ 0) {places : Nat} (positive : 0 < places) :
    Spelling.Spells
      ⟨(Binary64.paddedDigits (places + 1) m).take
          ((Binary64.paddedDigits (places + 1) m).length - places),
        (Binary64.paddedDigits (places + 1) m).drop
          ((Binary64.paddedDigits (places + 1) m).length - places), none⟩ m (-places) := by
  rcases exists_toDigits_eq_cons notZero with ⟨first, others, shape, notNought⟩
  have latin : ∀ c ∈ Binary64.paddedDigits (places + 1) m, c.isDigit := fun _ mem =>
    isDigit_of_mem_paddedDigits mem
  have value := ofDigitChars_paddedDigits (places + 1) m
  have width : (Binary64.paddedDigits (places + 1) m).length =
      (places + 1 - (Nat.toDigits 10 m).length) + (Nat.toDigits 10 m).length := by
    simp [Binary64.paddedDigits]
  have front : ((Binary64.paddedDigits (places + 1) m).take
      ((Binary64.paddedDigits (places + 1) m).length - places)) = ['0'] ∨
      (Binary64.paddedDigits (places + 1) m).head? ≠ some '0' := by
    unfold Binary64.paddedDigits at width ⊢
    dsimp only at width ⊢
    rw [width]
    by_cases longer : (Nat.toDigits 10 m).length ≤ places
    · left
      obtain ⟨zeros, isZeros⟩ : ∃ zeros, places + 1 - (Nat.toDigits 10 m).length = zeros + 1 :=
        ⟨places - (Nat.toDigits 10 m).length, by omega⟩
      have one : zeros + 1 + (Nat.toDigits 10 m).length - places = 1 := by omega
      rw [isZeros, one]
      rfl
    · right
      have none : places + 1 - (Nat.toDigits 10 m).length = 0 := by omega
      rw [none, shape]
      exact fun same => notNought (Option.some.inj same)
  have someDigit : 0 < (Nat.toDigits 10 m).length := Nat.length_toDigits_pos
  generalize Binary64.paddedDigits (places + 1) m = padded at *
  have behind : (padded.drop (padded.length - places)).length = places := by
    rw [List.length_drop]
    omega
  refine ⟨⟨⟨fun c mem => latin c (List.mem_of_mem_take mem),
    fun c mem => latin c (List.mem_of_mem_drop mem), ?_⟩, ?_, .inl ?_⟩, ?_, ?_, ?_⟩
  · apply List.ne_nil_of_length_pos
    dsimp only
    rw [List.length_take]
    omega
  · dsimp only
    rw [List.head?_take, if_neg (by omega)]
    exact front
  · apply List.ne_nil_of_length_pos
    rwa [behind]
  · dsimp only [Option.getD_none]
    omega
  · dsimp only [Option.getD_none]
    omega
  · dsimp only
    rw [List.take_append_drop, value, behind, Option.getD_none, zero_sub]

/-- A number with one digit in front of the point, if there is one, and a power of ten. -/
theorem spells_scientific {m : Nat} (notZero : m ≠ 0) (e : Int) :
    Spelling.Spells ⟨(Nat.toDigits 10 m).take 1, (Nat.toDigits 10 m).drop 1,
      some (e + (Nat.toDigits 10 m).length - 1)⟩ m e := by
  rcases exists_toDigits_eq_cons notZero with ⟨first, others, shape, notNought⟩
  have power : e + (Nat.toDigits 10 m).length - 1 - ((Nat.toDigits 10 m).drop 1).length = e := by
    rw [shape, List.length_cons, List.drop_one, List.tail_cons]
    omega
  refine ⟨⟨⟨fun c mem => isDigit_of_mem_toDigits (List.mem_of_mem_take mem),
    fun c mem => isDigit_of_mem_toDigits (List.mem_of_mem_drop mem), ?_⟩, ?_, .inr nofun⟩,
    ?_, ?_, ?_⟩
  · simp [shape]
  · rw [shape]
    exact .inr fun same => notNought (Option.some.inj same)
  · dsimp only [Option.getD_some]
    omega
  · dsimp only [Option.getD_some]
    omega
  · dsimp only
    rw [List.take_append_drop, Nat.ofDigitChars_ten_toDigits, Option.getD_some, power]

/-- Every layout is a spelling of what it is made from. -/
theorem exists_spelling {m : Nat} (notZero : m ≠ 0) (e : Int) :
    ∃ spelling : Spelling, Binary64.layOut m e = spelling.text ∧ spelling.Spells m e := by
  unfold Binary64.layOut
  dsimp only
  split
  · split
    · rename_i nonneg
      obtain ⟨zeros, rfl⟩ := Int.eq_ofNat_of_zero_le nonneg
      refine ⟨_, ?_, spells_whole notZero zeros⟩
      simp [Spelling.text, Spelling.tail]
    · obtain ⟨places, rfl⟩ : ∃ places : Nat, e = -places := ⟨(-e).toNat, by omega⟩
      have positive : 0 < places := by omega
      have spells := spells_positional notZero positive
      refine ⟨_, ?_, spells⟩
      rw [neg_neg, Int.toNat_natCast]
      have some : ((Binary64.paddedDigits (places + 1) m).drop
          ((Binary64.paddedDigits (places + 1) m).length - places)).isEmpty = false := by
        have notNil := spells.notWhole.resolve_right (not_not_intro rfl)
        simpa using notNil
      simp [Spelling.text, Spelling.tail, some]
  · refine ⟨_, ?_, spells_scientific notZero e⟩
    have power : Binary64.powerText (e + (Nat.toDigits 10 m).length - 1) =
        (if e + (Nat.toDigits 10 m).length - 1 < 0 then ['e', '-'] else ['e', '+']) ++
          Binary64.paddedDigits 2 (e + (Nat.toDigits 10 m).length - 1).natAbs := by
      unfold Binary64.powerText
      split <;> rfl
    simp [Spelling.text, Spelling.tail, power]

end Eaves.Text
