import Eaves.Text.Numeral
import Mathlib.Algebra.Group.Nat.Defs

/-!
# Numerals that were written

Ids are numbered by writing a number behind a word.  Reading such a numeral gives
the number back, and only that one; the count of its digits is all that reading can
refuse.
-/

namespace Eaves.Text

/-! ## Latin digits -/

theorem toNat_of_isDigit {c : Char} (latin : c.isDigit) : 48 ≤ c.toNat ∧ c.toNat ≤ 57 :=
  Char.isDigit_iff_toNat.mp latin

/-- A Latin digit has the value of its distance from the digit zero. -/
theorem digitValue?_of_isDigit {c : Char} (latin : c.isDigit) :
    digitValue? c = some (c.toNat - 48) := by
  have bounds := toNat_of_isDigit latin
  have ascii : c.toNat < 128 := by omega
  rw [digitValue?, if_pos ascii, if_pos latin]

theorem isDecimal_of_isDigit {c : Char} (latin : c.isDigit) : isDecimal c := by
  rw [isDecimal, digitValue?_of_isDigit latin]
  rfl

theorem isDigitLike_of_isDigit {c : Char} (latin : c.isDigit) : isDigitLike c := by
  rw [isDigitLike, isDecimal_of_isDigit latin, Bool.true_or]

/-- A digit of any script has its value in base ten. -/
theorem digitIn?_of_isDecimal {c : Char} (decimal : isDecimal c) :
    digitIn? 10 c = some ((digitValue? c).getD 0) := by
  rcases Option.isSome_iff_exists.mp decimal with ⟨digit, isValue⟩
  have below : digit < 10 := by
    unfold digitValue? at isValue
    split at isValue
    · split at isValue
      · rename_i latin
        have bounds := toNat_of_isDigit latin
        cases isValue
        omega
      · cases isValue
    · rcases Option.map_eq_some_iff.mp isValue with ⟨nought, isFound, rfl⟩
      have near := List.find?_some isFound
      simp only [decide_eq_true_eq] at near
      omega
  simp only [digitIn?, isValue, Option.getD_some]
  exact if_pos below

/-- What has a value in base ten is a decimal digit: letters stand for more than nine. -/
theorem isDecimal_of_digitIn? {c : Char} {digit : Nat} (isDigit : digitIn? 10 c = some digit) :
    isDecimal c := by
  unfold digitIn? at isDigit
  unfold isDecimal
  cases isValue : digitValue? c with
  | some value => rfl
  | none =>
      have noDigit : ∀ value : Nat, ¬(if value + 10 < 10 then some (value + 10) else none) =
          some digit := by
        intro value
        rw [if_neg (by omega)]
        exact nofun
      rw [isValue] at isDigit
      dsimp only at isDigit
      split at isDigit
      · exact absurd isDigit (noDigit _)
      · split at isDigit
        · exact absurd isDigit (noDigit _)
        · exact absurd isDigit (noDigit 0)

theorem ne_underscore_of_isDecimal {c : Char} (decimal : isDecimal c) : c ≠ '_' := by
  rintro rfl
  cases decimal

/-! ## Reading digits -/

/-- What digits of any script come to from the left, after the value read so far. -/
def valueOfDigits (digits : List Char) (value : Nat) : Nat :=
  digits.foldl (fun value c => value * 10 + (digitValue? c).getD 0) value

/-- Latin digits come to what they spell. -/
theorem valueOfDigits_of_isDigit {digits : List Char} (latin : ∀ c ∈ digits, c.isDigit)
    (value : Nat) : valueOfDigits digits value = Nat.ofDigitChars 10 digits value := by
  induction digits generalizing value with
  | nil => simp [valueOfDigits]
  | cons c rest ih =>
      have step : valueOfDigits (c :: rest) value =
          valueOfDigits rest (value * 10 + (digitValue? c).getD 0) := rfl
      rw [step, ih (fun other mem => latin other (List.mem_cons_of_mem _ mem)),
        Nat.ofDigitChars_cons, digitValue?_of_isDigit (latin c List.mem_cons_self),
        Option.getD_some, Nat.mul_comm value 10]
      rfl

/-- Digits spell what they come to. -/
theorem spelledFrom_of_isDecimal {digits : List Char} (decimal : ∀ c ∈ digits, isDecimal c)
    (value : Nat) : spelledFrom 10 value true digits = some (valueOfDigits digits value) := by
  induction digits generalizing value with
  | nil => rfl
  | cons c rest ih =>
      have digit := decimal c List.mem_cons_self
      rw [spelledFrom, if_neg (ne_underscore_of_isDecimal digit), digitIn?_of_isDecimal digit]
      exact ih (fun other mem => decimal other (List.mem_cons_of_mem _ mem)) _

/-- At least one digit spells a number. -/
theorem spelled?_of_isDecimal {digits : List Char} (decimal : ∀ c ∈ digits, isDecimal c)
    (nonempty : digits ≠ []) : spelled? 10 digits = some (valueOfDigits digits 0) := by
  cases digits with
  | nil => exact absurd rfl nonempty
  | cons c rest =>
      have digit := decimal c List.mem_cons_self
      rw [spelled?, spelledFrom, if_neg (ne_underscore_of_isDecimal digit),
        digitIn?_of_isDecimal digit]
      exact spelledFrom_of_isDecimal (fun other mem => decimal other (List.mem_cons_of_mem _ mem)) _

/-- Digits are read as a number, where they are no more than are read. -/
theorem decimalNumeral_of_isDecimal {digits : List Char} (decimal : ∀ c ∈ digits, isDecimal c)
    (nonempty : digits ≠ []) (short : digits.length ≤ digitLimit) :
    decimalNumeral digits = .ok (valueOfDigits digits 0) := by
  rw [decimalNumeral, spelled?_of_isDecimal decimal nonempty]
  dsimp only
  rw [if_neg (Nat.not_lt.mpr short)]

/-! ## Digits that are read -/

/-- Digits that are read as a number: each has a value in base ten, and they are no more than are
read. -/
structure IsReadable (digits : List Char) : Prop where
  decimal : ∀ c ∈ digits, isDecimal c
  short : digits.length ≤ digitLimit

/-- What spells a number from the left is made of decimal digits and underscores. -/
theorem isDecimal_of_spelledFrom {cs : List Char} {value n : Nat} {afterDigit : Bool}
    (spells : spelledFrom 10 value afterDigit cs = some n) :
    ∀ c ∈ cs, c = '_' ∨ isDecimal c := by
  induction cs generalizing value afterDigit with
  | nil => simp
  | cons c rest ih =>
      rw [spelledFrom] at spells
      rw [List.forall_mem_cons]
      split at spells
      · rename_i underscore
        split at spells
        · exact ⟨.inl underscore, ih spells⟩
        · cases spells
      · split at spells
        · rename_i digit isDigit
          exact ⟨.inr (isDecimal_of_digitIn? isDigit), ih spells⟩
        · cases spells

/-- Digits, in the wider sense too, are read exactly where they are readable. -/
theorem decimalNumeral_succeeds_iff {digits : List Char} (nonempty : digits ≠ [])
    (digitLike : ∀ c ∈ digits, isDigitLike c) :
    (∃ n, decimalNumeral digits = .ok n) ↔ IsReadable digits := by
  constructor
  · rintro ⟨n, read⟩
    unfold decimalNumeral at read
    split at read
    · cases read
    · rename_i spells
      split at read
      · cases read
      · rename_i notLong
        refine ⟨?_, Nat.not_lt.mp notLong⟩
        intro c mem
        rcases isDecimal_of_spelledFrom spells c mem with rfl | decimal
        · exact absurd (digitLike '_' mem) (by decide)
        · exact decimal
  · intro readable
    exact ⟨_, decimalNumeral_of_isDecimal readable.decimal nonempty readable.short⟩

/-! ## Numerals of numbers -/

theorem toList_toString (n : Nat) : (toString n).toList = Nat.toDigits 10 n := by
  rw [Nat.toString_eq_repr, Nat.toList_repr]

theorem isDigit_of_mem_toString {n : Nat} {c : Char} (mem : c ∈ (toString n).toList) :
    c.isDigit := by
  rw [toList_toString] at mem
  exact Nat.isDigit_of_mem_toDigits (by decide) (by decide) mem

theorem toString_ne_nil (n : Nat) : (toString n).toList ≠ [] := by
  rw [toList_toString]
  exact Nat.toDigits_ne_nil

theorem underscore_notMem_toString (n : Nat) : '_' ∉ (toString n).toList := by
  intro mem
  have digit := isDigit_of_mem_toString mem
  simp at digit

/-- The numeral of a number spells it. -/
theorem spelled?_toString (n : Nat) : spelled? 10 (toString n).toList = some n := by
  rw [spelled?_of_isDecimal (fun _ mem => isDecimal_of_isDigit (isDigit_of_mem_toString mem))
      (toString_ne_nil n),
    valueOfDigits_of_isDigit fun _ mem => isDigit_of_mem_toString mem, toList_toString,
    Nat.ofDigitChars_ten_toDigits]

/-- Two numbers with the same numeral are the same. -/
theorem toString_injective {m n : Nat} (same : (toString m).toList = (toString n).toList) :
    m = n := by
  have spelled := spelled?_toString m
  rw [same, spelled?_toString n] at spelled
  exact (Option.some.inj spelled).symm

/-- A numeral that is read gives its number. -/
theorem eq_of_decimalNumeral_toString {n read : Nat}
    (numeral : decimalNumeral (toString n).toList = .ok read) : read = n := by
  rw [decimalNumeral, spelled?_toString] at numeral
  dsimp only at numeral
  split at numeral
  · cases numeral
  · exact (Except.ok.inj numeral).symm

/-- The numeral of a number that has no more digits than are read is readable. -/
theorem isReadable_toString {n : Nat} (short : n < 10 ^ digitLimit) :
    IsReadable (toString n).toList := by
  refine ⟨fun c mem => isDecimal_of_isDigit (isDigit_of_mem_toString mem), ?_⟩
  rw [toList_toString]
  exact (Nat.length_toDigits_le_iff (by decide) (by decide)).mpr short

/-- The numeral of a number that has no more digits than are read is read. -/
theorem decimalNumeral_toString {n : Nat} (short : n < 10 ^ digitLimit) :
    decimalNumeral (toString n).toList = .ok n := by
  rw [decimalNumeral, spelled?_toString]
  dsimp only
  rw [if_neg (Nat.not_lt.mpr (isReadable_toString short).short)]

end Eaves.Text
