import Eaves.Text.Lowercase
import Mathlib.Data.List.Infix

/-!
# Lower case brings text into small letters

A character is small where lower case leaves it as it is.  The rows of capital letters
are shifted to numbers that stand in no row, which is checked row against row: either
the shifted row and the other do not meet, or both step by two and one starts at an odd
distance from the other.  So what lower case delivers is small, and lower case leaves it
as it is.
-/

namespace Eaves.Text

/-- A character that lower case leaves as it is, wherever it stands. -/
def IsSmall (c : Char) : Prop :=
  c ≠ 'Σ' ∧ c ≠ 'İ' ∧ lowerChar c = c

instance : DecidablePred IsSmall :=
  fun c => inferInstanceAs (Decidable (c ≠ 'Σ' ∧ c ≠ 'İ' ∧ lowerChar c = c))

namespace CapitalRow

/-- The number of the small letter of the first capital. -/
def firstSmall (row : CapitalRow) : Nat :=
  ((row.first : Int) + row.shift).toNat

/-- The number of the small letter of the last capital. -/
def lastSmall (row : CapitalRow) : Nat :=
  ((row.last : Int) + row.shift).toNat

/-- A number is that of a capital letter of a row. -/
def Holds (row : CapitalRow) (n : Nat) : Prop :=
  row.first ≤ n ∧ n ≤ row.last ∧ (n - row.first) % row.step = 0

instance (row : CapitalRow) : DecidablePred row.Holds :=
  fun n => inferInstanceAs
    (Decidable (row.first ≤ n ∧ n ≤ row.last ∧ (n - row.first) % row.step = 0))

/-- The small letters of a row are characters, and the capital I with a dot is none of them. -/
def isProper (row : CapitalRow) : Bool :=
  (Nat.blt row.lastSmall 304 || Nat.blt 304 row.firstSmall) &&
    (Nat.blt row.lastSmall 0xD800 ||
      Nat.blt 0xDFFF row.firstSmall && Nat.blt row.lastSmall 0x110000)

/-- No small letter of one row is a capital letter of another. -/
def misses (row other : CapitalRow) : Bool :=
  Nat.blt row.lastSmall other.first || Nat.blt other.last row.firstSmall ||
    (other.step == 2 && (row.step == 2 || row.first == row.last) &&
      (row.firstSmall - other.first) % 2 == 1)

variable {row other : CapitalRow} {n : Nat}

/-- The number of the small letter of a capital of the row. -/
theorem toNat_small (proper : row.isProper) (holds : row.Holds n) :
    (Char.ofNat ((n : Int) + row.shift).toNat).toNat = ((n : Int) + row.shift).toNat ∧
      ((n : Int) + row.shift).toNat ≠ 304 := by
  simp only [isProper, firstSmall, lastSmall, Nat.blt_eq, Bool.or_eq_true,
    Bool.and_eq_true] at proper
  obtain ⟨first, last, -⟩ := holds
  refine ⟨?_, by omega⟩
  have valid : ((n : Int) + row.shift).toNat.isValidChar := by
    unfold Nat.isValidChar
    omega
  rw [Char.ofNat, dif_pos valid]
  rfl

theorem not_holds_of_misses (misses : row.misses other) (holds : row.Holds n) :
    ¬other.Holds ((n : Int) + row.shift).toNat := by
  simp only [CapitalRow.misses, firstSmall, lastSmall, Nat.blt_eq, Bool.or_eq_true,
    Bool.and_eq_true, beq_iff_eq] at misses
  obtain ⟨first, last, steps⟩ := holds
  rintro ⟨firstOther, lastOther, stepsOther⟩
  rcases misses with (before | behind) | ⟨⟨byTwo, alike⟩, odd⟩
  · omega
  · omega
  · rw [byTwo] at stepsOther
    rcases alike with alike | one
    · rw [alike] at steps
      omega
    · omega

end CapitalRow

theorem isProper_of_mem : ∀ row ∈ capitalRows, row.isProper := by
  decide +kernel

theorem all_misses : (capitalRows.all fun row => capitalRows.all row.misses) = true := by
  decide +kernel

theorem misses_of_mem {row other : CapitalRow} (mem : row ∈ capitalRows)
    (memOther : other ∈ capitalRows) : row.misses other :=
  List.all_eq_true.mp (List.all_eq_true.mp all_misses row mem) other memOther

/-! ## Characters -/

theorem isSmall_lowerChar_of_basic : ∀ n < 128, IsSmall (lowerChar (Char.ofNat n)) := by
  decide +kernel

theorem lowerChar_eq_or_holds : ∀ n < 128,
    lowerChar (Char.ofNat n) = Char.ofNat n ∨ ∃ row ∈ capitalRows, row.Holds n := by
  decide +kernel

/-- A character in no row of capital letters is small. -/
theorem isSmall_of_not_holds {c : Char} (none : ∀ row ∈ capitalRows, ¬row.Holds c.toNat)
    (other : c ≠ 'İ') : IsSmall c := by
  refine ⟨?_, other, ?_⟩
  · rintro rfl
    obtain ⟨row, mem, holds⟩ : ∃ row ∈ capitalRows, row.Holds 'Σ'.toNat := by decide +kernel
    exact none row mem holds
  · by_cases basic : c.toNat < 128
    · rcases lowerChar_eq_or_holds _ basic with stays | ⟨row, mem, holds⟩
      · rwa [Char.ofNat_toNat] at stays
      · exact absurd holds (none row mem)
    · have notFound : capitalRows.find? (fun row =>
          decide (row.first ≤ c.toNat ∧ c.toNat ≤ row.last) &&
            (c.toNat - row.first) % row.step == 0) = .none := by
        rw [List.find?_eq_none]
        intro row mem found
        simp only [Bool.and_eq_true, decide_eq_true_eq, beq_iff_eq] at found
        exact none row mem ⟨found.1.1, found.1.2, found.2⟩
      rw [lowerChar, if_neg basic, notFound]

theorem isSmall_lowerChar {c : Char} (other : c ≠ 'İ') : IsSmall (lowerChar c) := by
  by_cases basic : c.toNat < 128
  · have small := isSmall_lowerChar_of_basic _ basic
    rwa [Char.ofNat_toNat] at small
  · rw [lowerChar, if_neg basic]
    split
    · rename_i row found
      have mem := List.mem_of_find?_eq_some found
      have inRow := List.find?_some found
      simp only [Bool.and_eq_true, decide_eq_true_eq, beq_iff_eq] at inRow
      have holds : row.Holds c.toNat := ⟨inRow.1.1, inRow.1.2, inRow.2⟩
      obtain ⟨number, notDotted⟩ := CapitalRow.toNat_small (isProper_of_mem row mem) holds
      apply isSmall_of_not_holds
      · intro other memOther
        rw [number]
        exact CapitalRow.not_holds_of_misses (misses_of_mem mem memOther) holds
      · intro isDotted
        rw [isDotted] at number
        exact notDotted number.symm
    · rename_i notFound
      apply isSmall_of_not_holds _ other
      rintro row mem ⟨first, last, steps⟩
      have missed := List.find?_eq_none.mp notFound row mem
      simp [first, last, steps] at missed

/-! ## Texts -/

theorem isSmall_of_mem_lowerAfter {c : Char} {passed text : List Char}
    (mem : c ∈ lowerAfter passed text) : IsSmall c := by
  induction text generalizing passed with
  | nil => cases mem
  | cons d rest ih =>
      rw [lowerAfter, List.mem_append] at mem
      rcases mem with first | later
      · split at first
        · split at first <;> exact List.mem_singleton.mp first ▸ by decide +kernel
        · rename_i notSigma
          split at first
          · simp only [List.mem_cons, List.not_mem_nil, or_false] at first
            rcases first with rfl | rfl <;> decide +kernel
          · rename_i notDotted
            exact List.mem_singleton.mp first ▸ isSmall_lowerChar notDotted
      · exact ih later

/-- Lower case delivers small characters. -/
theorem isSmall_of_mem_lower {c : Char} {text : List Char} (mem : c ∈ lower text) : IsSmall c :=
  isSmall_of_mem_lowerAfter mem

theorem lowerAfter_eq_self {text : List Char} (small : ∀ c ∈ text, IsSmall c)
    (passed : List Char) : lowerAfter passed text = text := by
  induction text generalizing passed with
  | nil => rfl
  | cons c rest ih =>
      obtain ⟨⟨notSigma, notDotted, stays⟩, others⟩ := List.forall_mem_cons.mp small
      rw [lowerAfter, ih others, if_neg notSigma, if_neg notDotted, stays]
      rfl

/-- Lower case leaves small characters as they are. -/
theorem lower_eq_self {text : List Char} (small : ∀ c ∈ text, IsSmall c) : lower text = text :=
  lowerAfter_eq_self small []

end Eaves.Text
