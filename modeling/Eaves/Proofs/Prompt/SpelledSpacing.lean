import Eaves.Proofs.Prompt.Count
import Eaves.Proofs.Text.Numeral
import Mathlib.Data.List.Find

/-!
# Spacing rules spelled with numbers

A spacing rule may be spelled with numbers: so many lights on and so many off, every so
many lights, so many lights equally spaced.  The numbers come back as they were written,
unless a fixed phrase gets in first.  Three fixed phrases are written with digits, and
a fixed phrase is found anywhere in a clause, also from the last digit of a longer number
on.  So where that digit and the count of dark lights make such a phrase, the digits in
front of it are lost; else only numbers of more digits than are read are not given back.
-/

namespace Eaves.Prompt

open Outcome
open Text

/-! ## Phrases -/

/-- So many lights on, so many off. -/
def onOffPhrase (on off : Nat) : String :=
  toString on ++ " on " ++ toString off ++ " off"

/-- Every so many lights. -/
def everyPhrase (interval : Nat) : String :=
  "every " ++ toString interval

/-- So many lights equally spaced. -/
def equallyPhrase (count : Nat) : String :=
  toString count ++ " equally spaced"

/-- The lit and dark counts that a fixed phrase spells with digits. -/
def namedPairs : List (Nat × Nat) :=
  [(1, 1), (1, 2), (2, 1)]

/-- A number has more digits than are read. -/
def tooLong (n : Nat) : Failure :=
  .numeral (.tooManyDigits (toString n).length)

/-- A text is written with digits and some letters. -/
def writtenWith (letters : String) (cs : List Char) : Bool :=
  cs.all fun c => c.isDigit || letters.toList.contains c

/-- A named pair has counts of one digit. -/
theorem single : ∀ pair ∈ namedPairs, pair.1 < 10 ∧ pair.2 < 10 := by
  decide

variable {clause : List Char} {n m : Nat}

/-! ## Numerals -/

theorem isBlank_of_isDigit {c : Char} (digit : c.isDigit) : isBlank c = false := by
  have bounds := toNat_of_isDigit digit
  simp [isBlank]
  omega

/-- The numeral of a number ends with its last digit. -/
theorem exists_toString_eq (n : Nat) :
    ∃ before, (toString n).toList = before ++ (toString (n % 10)).toList := by
  simp only [toList_toString]
  rcases Nat.lt_or_ge n 10 with single | longer
  · exact ⟨[], by rw [Nat.mod_eq_of_lt single]; rfl⟩
  · refine ⟨Nat.toDigits 10 (n / 10), ?_⟩
    rw [Nat.toDigits_of_base_le (by decide) longer,
      Nat.toDigits_of_lt_base (Nat.mod_lt n (by decide))]

/-- A numeral holds no letters. -/
theorem notMem_toString {c : Char} (letter : ¬c.isDigit) (n : Nat) : c ∉ (toString n).toList :=
  fun mem => letter (isDigit_of_mem_toString mem)

theorem writtenWith_iff {letters : String} {cs : List Char} :
    writtenWith letters cs = true ↔ ∀ c ∈ cs, c.isDigit = true ∨ c ∈ letters.toList := by
  simp [writtenWith]

@[simp]
theorem writtenWith_append (letters : String) (before after : List Char) :
    writtenWith letters (before ++ after) =
      (writtenWith letters before && writtenWith letters after) :=
  List.all_append

@[simp]
theorem writtenWith_toString (letters : String) (n : Nat) :
    writtenWith letters (toString n).toList = true :=
  writtenWith_iff.mpr fun _ mem => .inl (isDigit_of_mem_toString mem)

/-- The digits at the start of a text are a run of digits, where something else follows. -/
theorem digits?_toString (n : Nat) (rest : List Char)
    (ends : ∀ c ∈ rest.head?, isDecimal c = false) :
    digits? ((toString n).toList ++ rest) = some ((toString n).toList, rest) := by
  have decimal : ∀ c ∈ (toString n).toList, isDecimal c = true :=
    fun c mem => isDecimal_of_isDigit (isDigit_of_mem_toString mem)
  have stops : rest.takeWhile isDecimal = [] ∧ rest.dropWhile isDecimal = rest := by
    cases rest with
    | nil => exact ⟨rfl, rfl⟩
    | cons c cs => simp [ends c rfl]
  unfold digits?
  rw [List.takeWhile_append_of_pos decimal, List.dropWhile_append_of_pos decimal, stops.1, stops.2,
    List.append_nil]
  simp

/-- Blanks before a numeral are passed over. -/
theorem trimLeft_toString (n : Nat) (rest : List Char) :
    trimLeft (' ' :: ((toString n).toList ++ rest)) = (toString n).toList ++ rest := by
  obtain ⟨c, cs, shape⟩ := List.exists_cons_of_ne_nil (toString_ne_nil n)
  have digit : c.isDigit := isDigit_of_mem_toString (shape ▸ List.mem_cons_self)
  rw [shape, trimLeft, List.dropWhile_cons_of_pos (by decide), List.cons_append,
    List.dropWhile_cons_of_neg (by simp [isBlank_of_isDigit digit])]

/-- The numeral of a number is read as the number, up to the count of digits that are read. -/
theorem count_toString (n : Nat) : count (toString n).toList =
    if n < 10 ^ digitLimit then .ok (n : Int) else .error (tooLong n) := by
  split
  · rename_i short
    rw [count, decimalNumeral_toString short]
    rfl
  · rename_i long
    have tooMany : digitLimit < (toString n).toList.length := by
      rwa [toList_toString, ← Nat.not_le, Nat.length_toDigits_le_iff (by decide) (by decide)]
    rw [count, decimalNumeral, spelled?_toString]
    dsimp only
    rw [if_pos tooMany]
    rfl

/-! ## Fixed phrases -/

theorem mentions_iff {phrases : List String} :
    mentions clause phrases = true ↔ ∃ phrase ∈ phrases, phrase.toList <:+: padded clause := by
  simp [mentions, occursIn_iff]

/-- A phrase with a letter that a clause is written without does not occur in it. -/
theorem not_infix_of_foreign {letters phrase : String} (blank : ' ' ∈ letters.toList)
    (written : writtenWith letters clause = true)
    (foreign : writtenWith letters phrase.toList = false) :
    ¬phrase.toList <:+: padded clause := by
  intro occurs
  refine absurd (writtenWith_iff.mpr fun c mem => ?_) (Bool.eq_false_iff.mp foreign)
  have inClause : c = ' ' ∨ c ∈ clause := by simpa [padded, or_comm] using occurs.subset mem
  rcases inClause with rfl | inClause
  · exact .inr blank
  · exact writtenWith_iff.mp written c inClause

/-- What stands before the first blank tells numerals apart. -/
theorem eq_of_toString_append {rest other : List Char}
    (same : (toString n).toList ++ ' ' :: rest = (toString m).toList ++ ' ' :: other) : n = m := by
  have digits (k : Nat) : ∀ c ∈ (toString k).toList, c.isDigit = true :=
    fun _ mem => isDigit_of_mem_toString mem
  have taken := congrArg (List.takeWhile Char.isDigit) same
  rw [List.takeWhile_append_of_pos (digits n), List.takeWhile_append_of_pos (digits m)] at taken
  exact toString_injective (by simpa using taken)

/-- A phrase with a count of one digit stands in a longer one from the last digit of its first
number on. -/
theorem onOffPhrase_infix_iff {a b : Nat} (single : a < 10) :
    (onOffPhrase a b).toList <:+: padded (onOffPhrase n m).toList ↔ n % 10 = a ∧ m = b := by
  obtain ⟨front, isFront⟩ := exists_toString_eq n
  have written (k l : Nat) : (onOffPhrase k l).toList = (toString k).toList ++
      [' ', 'o'] ++ 'n' :: ' ' :: ((toString l).toList ++ " off".toList) := by
    simp [onOffPhrase]
  rw [written, written]
  constructor
  · rintro ⟨before, after, whole⟩
    -- the only letter n of the clause is the one of the phrase
    have aligned : (' ' :: (toString n).toList ++ [' ', 'o']) ++
        'n' :: (' ' :: ((toString m).toList ++ " off ".toList)) =
          (before ++ (toString a).toList ++ [' ', 'o']) ++
            'n' :: (' ' :: ((toString b).toList ++ " off".toList ++ after)) := by
      simpa [padded] using whole.symm
    have noN (k : Nat) : 'n' ∉ (toString k).toList := notMem_toString (by decide) k
    rw [List.append_cons_inj_of_notMem (by simpa using noN n) (by simpa using noN m)] at aligned
    obtain ⟨fronts, -, backs⟩ := aligned
    constructor
    · have ends : (' ' :: front) ++ (toString (n % 10)).toList = before ++ (toString a).toList := by
        rw [List.cons_append, ← isFront]
        exact List.append_cancel_right fronts
      have sameLength : (toString (n % 10)).toList.length = (toString a).toList.length := by
        rw [toList_toString, toList_toString, Nat.toDigits_of_lt_base (Nat.mod_lt n (by decide)),
          Nat.toDigits_of_lt_base single]
        rfl
      exact toString_injective (List.append_inj_right' ends sameLength)
    · exact eq_of_toString_append (by simpa using backs)
  · rintro ⟨rfl, rfl⟩
    refine ⟨' ' :: front, [' '], ?_⟩
    rw [isFront]
    simp [padded]

/-- Phrases for terms are written with letters that a rule spelled with lit and dark counts has not,
but for those of the named pairs. -/
theorem phrases_onOff : ∀ entry ∈ spacings,
    (∀ phrase ∈ entry.2, writtenWith " onf" phrase.toList = false ∨
      ∃ pair ∈ namedPairs, phrase = onOffPhrase pair.1 pair.2 ∧
        entry.1 = .rule (.pattern pair.1 pair.2 true)) ∧
    ∀ pair ∈ namedPairs, entry.1 = .rule (.pattern pair.1 pair.2 true) →
      onOffPhrase pair.1 pair.2 ∈ entry.2 := by
  decide +kernel

theorem phrases_every : ∀ entry ∈ spacings, ∀ phrase ∈ entry.2,
    writtenWith " evry" phrase.toList = false := by
  decide +kernel

theorem phrases_equally : ∀ entry ∈ spacings,
    (entry.1 = .equally → "equally spaced" ∈ entry.2) ∧
    (entry.1 ≠ .equally → ∀ phrase ∈ entry.2,
      writtenWith " equalyspcd" phrase.toList = false) := by
  decide +kernel

/-- Each named pair has an entry. -/
theorem find?_named : ∀ pair ∈ namedPairs,
    (spacings.find? fun entry => decide (entry.1 = .rule (.pattern pair.1 pair.2 true))).map
      Prod.fst = some (.rule (.pattern pair.1 pair.2 true)) := by
  decide

theorem writtenWith_onOffPhrase (n m : Nat) :
    writtenWith " onf" (onOffPhrase n m).toList = true := by
  simp only [onOffPhrase, String.toList_append, writtenWith_append, writtenWith_toString]
  rfl

/-- A lit and a dark count are taken for a fixed phrase where the last digit of the one and the
other are a named pair. -/
theorem first?_onOffPhrase (n m : Nat) : spacings.first? (onOffPhrase n m).toList =
    if (n % 10, m) ∈ namedPairs then some (.rule (.pattern (n % 10 : Nat) m true)) else none := by
  have written := writtenWith_onOffPhrase n m
  have found : ∀ entry ∈ spacings, mentions (onOffPhrase n m).toList entry.2 =
      decide ((n % 10, m) ∈ namedPairs ∧ entry.1 = .rule (.pattern (n % 10 : Nat) m true)) := by
    intro entry mem
    obtain ⟨areNamed, isNamed⟩ := phrases_onOff entry mem
    rw [Bool.eq_iff_iff, mentions_iff, decide_eq_true_iff]
    constructor
    · rintro ⟨phrase, isPhrase, occurs⟩
      rcases areNamed phrase isPhrase with foreign | ⟨⟨a, b⟩, named, rfl, isRule⟩
      · exact absurd occurs (not_infix_of_foreign (by decide) written foreign)
      · obtain ⟨rfl, rfl⟩ := (onOffPhrase_infix_iff (single _ named).1).mp occurs
        exact ⟨named, isRule⟩
    · rintro ⟨named, isRule⟩
      exact ⟨_, isNamed _ named isRule, (onOffPhrase_infix_iff (single _ named).1).mpr ⟨rfl, rfl⟩⟩
  rw [Phrasebook.first?, List.find?_congr found]
  split
  · rename_i named
    simp only [named, true_and]
    exact find?_named _ named
  · rename_i unnamed
    simp [unnamed]

/-- No fixed phrase is about every so many lights. -/
theorem first?_everyPhrase (n : Nat) : spacings.first? (everyPhrase n).toList = none := by
  have written : writtenWith " evry" (everyPhrase n).toList = true := by
    simp only [everyPhrase, String.toList_append, writtenWith_append, writtenWith_toString]
    rfl
  have found : ∀ entry ∈ spacings, ¬mentions (everyPhrase n).toList entry.2 = true := by
    intro entry mem mentioned
    obtain ⟨phrase, isPhrase, occurs⟩ := mentions_iff.mp mentioned
    exact not_infix_of_foreign (by decide) written (phrases_every entry mem phrase isPhrase) occurs
  rw [Phrasebook.first?, List.find?_eq_none.mpr found]
  rfl

/-- Equal spacing is a fixed phrase, whatever count stands before it. -/
theorem first?_equallyPhrase (n : Nat) :
    spacings.first? (equallyPhrase n).toList = some .equally := by
  have written : writtenWith " equalyspcd" (equallyPhrase n).toList = true := by
    simp only [equallyPhrase, String.toList_append, writtenWith_append, writtenWith_toString]
    rfl
  have found : ∀ entry ∈ spacings,
      mentions (equallyPhrase n).toList entry.2 = decide (entry.1 = .equally) := by
    intro entry mem
    obtain ⟨isSpoken, areForeign⟩ := phrases_equally entry mem
    rw [Bool.eq_iff_iff, mentions_iff, decide_eq_true_iff]
    constructor
    · rintro ⟨phrase, isPhrase, occurs⟩
      by_contra other
      exact not_infix_of_foreign (by decide) written (areForeign other phrase isPhrase) occurs
    · intro isEqually
      refine ⟨_, isSpoken isEqually, ' ' :: ((toString n).toList ++ [' ']), [' '], ?_⟩
      simp [equallyPhrase, padded]
  rw [Phrasebook.first?, List.find?_congr found]
  rfl

/-! ## Scans -/

theorem search_of_here {α : Type} {scan : List Char → Option α} {found : α}
    (here : scan clause = some found) : search scan clause = some found := by
  cases clause with
  | nil => exact here
  | cons c cs => simp [search, here]

/-- The two counts are found at the start of their phrase. -/
theorem onOff?_onOffPhrase (n m : Nat) : onOff? (onOffPhrase n m).toList =
    some ((toString n).toList, (toString m).toList) := by
  have shape : (onOffPhrase n m).toList = (toString n).toList ++
      (' ' :: 'o' :: 'n' :: ' ' :: ((toString m).toList ++ [' ', 'o', 'f', 'f'])) := by
    simp [onOffPhrase]
  have lit := digits?_toString n
    (' ' :: 'o' :: 'n' :: ' ' :: ((toString m).toList ++ [' ', 'o', 'f', 'f']))
    (by rintro c ⟨⟩; rfl)
  have dark : digits? (trimLeft (' ' :: ((toString m).toList ++ [' ', 'o', 'f', 'f']))) =
      some ((toString m).toList, [' ', 'o', 'f', 'f']) := by
    rw [trimLeft_toString]
    exact digits?_toString m _ (by rintro c ⟨⟩; rfl)
  rw [shape]
  refine Option.bind_eq_some_iff.mpr ⟨_, lit, ?_⟩
  refine Option.bind_eq_some_iff.mpr ⟨_, rfl, ?_⟩
  refine Option.bind_eq_some_iff.mpr ⟨_, dark, ?_⟩
  rfl

/-- No interval is found between a lit and a dark count. -/
theorem search_interval?_onOffPhrase (n m : Nat) :
    search interval? (onOffPhrase n m).toList = none := by
  cases isFound : search interval? (onOffPhrase n m).toList with
  | none => rfl
  | some interval =>
      obtain ⟨place, inside, scanned⟩ := exists_suffix_of_search isFound
      obtain ⟨rest, isRest, -⟩ := Option.bind_eq_some_iff.mp scanned
      have starts : "every".toList <+: place := by
        unfold afterWord? at isRest
        split at isRest
        · exact startsWith_iff.mp ‹_›
        · cases isRest
      have inPhrase : 'v' ∈ (onOffPhrase n m).toList := inside.subset (starts.subset (by decide))
      exact absurd (writtenWith_iff.mp (writtenWith_onOffPhrase n m) _ inPhrase) (by decide)

/-- An interval is found behind the word before it. -/
theorem interval?_everyPhrase (n : Nat) :
    interval? (everyPhrase n).toList = some (toString n).toList := by
  have shape : (everyPhrase n).toList = "every".toList ++ (' ' :: (toString n).toList) := by
    simp [everyPhrase]
  have digits : digits? (trimLeft (' ' :: (toString n).toList)) =
      some ((toString n).toList, []) := by
    have trimmed := trimLeft_toString n []
    rw [List.append_nil] at trimmed
    rw [trimmed]
    simpa using digits?_toString n [] (by simp)
  have behind : afterWord? "every" ("every".toList ++ (' ' :: (toString n).toList)) =
      some (' ' :: (toString n).toList) := rfl
  rw [shape, interval?, behind]
  exact Option.bind_eq_some_iff.mpr ⟨_, rfl, Option.bind_eq_some_iff.mpr ⟨_, digits, rfl⟩⟩

/-- A count of spaced lights is found at the start of its phrase. -/
theorem spacedCount?_equallyPhrase (n : Nat) :
    spacedCount? (equallyPhrase n).toList = some (toString n).toList := by
  have shape : (equallyPhrase n).toList = (toString n).toList ++ " equally spaced".toList := by
    simp [equallyPhrase]
  rw [shape]
  refine Option.bind_eq_some_iff.mpr ⟨_, digits?_toString n _ (by rintro c ⟨⟩; rfl), ?_⟩
  refine Option.bind_eq_some_iff.mpr ⟨_, rfl, ?_⟩
  rfl

/-! ## Rules -/

/-- Counts spelled with digits are given back as they were written, whatever count is usual, but for
two kinds of them.  Where the last digit of the lit count and the dark count are a named pair, the
rule of that pair is taken, and the digits before it are lost; and numbers of more digits than are
read are refused. -/
theorem spelled_counts_are_read (n m : Nat) (usual : Int) :
    (spacing (onOffPhrase n m).toList usual =
      if (n % 10, m) ∈ namedPairs then .ok (some (.pattern (n % 10 : Nat) m true))
      else if ¬n < 10 ^ digitLimit then .error (tooLong n)
      else if ¬m < 10 ^ digitLimit then .error (tooLong m)
      else .ok (some (.pattern n m true))) ∧
    (spacing (onOffPhrase n m).toList usual = .ok (some (.pattern n m true)) ↔
      ((n % 10, m) ∈ namedPairs → n < 10) ∧ n < 10 ^ digitLimit ∧ m < 10 ^ digitLimit) ∧
    (spacing (everyPhrase n).toList usual =
      if n < 10 ^ digitLimit then .ok (some (.everyNth n)) else .error (tooLong n)) ∧
    (spacing (equallyPhrase n).toList usual =
      if n < 10 ^ digitLimit then .ok (some (.equallySpaced n)) else .error (tooLong n)) := by
  have onOff : spacing (onOffPhrase n m).toList usual =
      if (n % 10, m) ∈ namedPairs then .ok (some (.pattern (n % 10 : Nat) m true))
      else if ¬n < 10 ^ digitLimit then .error (tooLong n)
      else if ¬m < 10 ^ digitLimit then .error (tooLong m)
      else .ok (some (.pattern n m true)) := by
    unfold spacing spelledSpacing
    rw [first?_onOffPhrase, search_interval?_onOffPhrase,
      search_of_here (onOff?_onOffPhrase n m)]
    dsimp only
    rw [count_toString, count_toString]
    split_ifs <;> rfl
  refine ⟨onOff, ?_, ?_, ?_⟩
  · rw [onOff]
    split
    · rename_i named
      have dark : m < 10 := (single _ named).2
      have read : 10 ≤ 10 ^ digitLimit := Nat.le_self_pow (by decide) 10
      constructor
      · intro same
        have kept : n % 10 = n := by
          simp only [Except.ok.injEq, Option.some.injEq, Spacing.pattern.injEq] at same
          exact Int.ofNat_inj.mp same.1
        have short : n < 10 := kept ▸ Nat.mod_lt n (by decide)
        exact ⟨fun _ => short, short.trans_le read, dark.trans_le read⟩
      · rintro ⟨short, -, -⟩
        rw [Nat.mod_eq_of_lt (short named)]
    · rename_i unnamed
      split_ifs <;> simp_all
  · unfold spacing spelledSpacing
    rw [first?_everyPhrase, search_of_here (interval?_everyPhrase n)]
    dsimp only
    rw [count_toString]
    split <;> rfl
  · unfold spacing
    rw [first?_equallyPhrase, search_of_here (spacedCount?_equallyPhrase n)]
    dsimp only
    rw [count_toString]
    split <;> rfl

/-- A lit count of eleven is lost: its last digit and the dark count name every other light. -/
theorem eleven_on_one_off_is_every_other :
    spacing (onOffPhrase 11 1).toList 10 = .ok (some (.pattern 1 1 true)) := by
  decide +kernel

end Eaves.Prompt
