import Eaves.Light.Color
import Eaves.Proofs.Outcome
import Eaves.Proofs.Text.Search

/-!
# Colours in hexadecimal

A colour is read from six characters, a pair for each channel.  Each pair is read as a number
of its own, and numbers are read loosely: white space or a sign may stand for one of the two
digits, and digits of any script count.  So what is read is said in terms of pairs: a text is
a colour exactly where each pair spells a level.  Six hexadecimal digits are, and then the
colour is written in the same six digits, in capitals; for every other text that is read, it
is not.  A written colour reads back, without its white light.
-/

namespace Eaves.Text

/-! ## Digits -/

/-- The hexadecimal digits, in capital and in small letters. -/
def hexadecimals : List Char :=
  ['0', '1', '2', '3', '4', '5', '6', '7', '8', '9', 'A', 'B', 'C', 'D', 'E', 'F',
    'a', 'b', 'c', 'd', 'e', 'f']

/-- A value below sixteen as a digit, in a capital letter. -/
def capitalDigit (value : Nat) : Char :=
  (Nat.digitChar value).toUpper

/-- A hexadecimal digit has the value of its capital. -/
theorem exists_value_of_hexadecimal :
    ∀ c ∈ hexadecimals,
      ∃ value < 16, digitIn? 16 c = some value ∧ capitalDigit value = c.toUpper := by
  have every : (hexadecimals.all fun c => (List.range 16).any fun value =>
      digitIn? 16 c == some value && capitalDigit value == c.toUpper) = true := by decide
  intro c mem
  have found := List.all_eq_true.mp every c mem
  simpa only [List.any_eq_true, List.mem_range, Bool.and_eq_true, beq_iff_eq] using found

/-- A value below sixteen is that of its digit. -/
theorem digitIn?_capitalDigit :
    ∀ value < 16, capitalDigit value ∈ hexadecimals ∧
      digitIn? 16 (capitalDigit value) = some value := by
  decide

/-- A character whose capital is a hexadecimal digit is one. -/
theorem mem_hexadecimals_of_toUpper {c : Char} (isDigit : c.toUpper ∈ hexadecimals) :
    c ∈ hexadecimals := by
  by_cases small : 97 ≤ c.toNat ∧ c.toNat ≤ 122
  · have every : ∀ n < 123, 97 ≤ n → (Char.ofNat n).toUpper ∈ hexadecimals →
        Char.ofNat n ∈ hexadecimals := by decide
    have here := every c.toNat (by omega) small.1
    rw [Char.ofNat_toNat] at here
    exact here isDigit
  · have same : c.toUpper = c := dif_neg small
    rwa [same] at isDigit

theorem mem_hexadecimals_of_digit {c : Char} {value : Nat} (latin : c.toNat < 128)
    (isDigit : digitIn? 16 c = some value) : c ∈ hexadecimals := by
  have every : ∀ n < 128, (digitIn? 16 (Char.ofNat n)).isSome = true →
      Char.ofNat n ∈ hexadecimals := by decide
  have here := every c.toNat latin
  rw [Char.ofNat_toNat, isDigit] at here
  exact here rfl

/-- The places of the characters that separate words. -/
def blankPlaces : List Nat :=
  [9, 10, 11, 12, 13, 28, 29, 30, 31, 32, 0x85, 0xA0, 0x1680, 0x2000, 0x2001, 0x2002, 0x2003,
    0x2004, 0x2005, 0x2006, 0x2007, 0x2008, 0x2009, 0x200A, 0x2028, 0x2029, 0x202F, 0x205F, 0x3000]

theorem mem_blankPlaces_of_isBlank {c : Char} (blank : isBlank c = true) :
    c.toNat ∈ blankPlaces := by
  simp only [isBlank, Bool.or_eq_true, decide_eq_true_eq, beq_iff_eq] at blank
  simp only [blankPlaces, List.mem_cons, List.not_mem_nil, or_false]
  omega

/-- What separates words is no digit. -/
theorem digitIn?_of_isBlank {c : Char} (blank : isBlank c = true) : digitIn? 16 c = none := by
  have every : ∀ n ∈ blankPlaces, digitIn? 16 (Char.ofNat n) = none := by decide
  have place := mem_blankPlaces_of_isBlank blank
  have here := every _ place
  rwa [Char.ofNat_toNat] at here

theorem not_isBlank_of_digit {c : Char} {value : Nat} (isDigit : digitIn? 16 c = some value) :
    isBlank c = false := by
  rw [Bool.eq_false_iff]
  intro blank
  rw [digitIn?_of_isBlank blank] at isDigit
  cases isDigit

/-! ## Pairs -/

/-- A number that two characters spell: two digits, or one digit with white space on either side of
it or a sign in front. -/
inductive PairSpells : (first second : Char) → Int → Prop
  | digits {first second : Char} {high low : Nat} :
      digitIn? 16 first = some high → digitIn? 16 second = some low →
        PairSpells first second (high * 16 + low : Nat)
  | behindWhite {white digit : Char} {value : Nat} :
      isWhite white = true → digitIn? 16 digit = some value → PairSpells white digit value
  | beforeWhite {digit white : Char} {value : Nat} :
      digitIn? 16 digit = some value → isWhite white = true → PairSpells digit white value
  | plus {digit : Char} {value : Nat} :
      digitIn? 16 digit = some value → PairSpells '+' digit value
  | minus {digit : Char} {value : Nat} :
      digitIn? 16 digit = some value → PairSpells '-' digit (-value)

theorem digitIn?_underscore : digitIn? 16 '_' = none := by decide

theorem spelledFrom_first (value : Nat) (c : Char) (cs : List Char) :
    spelledFrom 16 value false (c :: cs) =
      (digitIn? 16 c).bind fun digit => spelledFrom 16 (value * 16 + digit) true cs := by
  rw [spelledFrom]
  by_cases underscore : c = '_'
  · rw [if_pos underscore, underscore, digitIn?_underscore]
    rfl
  · rw [if_neg underscore]
    cases digitIn? 16 c <;> rfl

theorem spelledFrom_last (value : Nat) (c : Char) :
    spelledFrom 16 value true [c] = (digitIn? 16 c).map fun digit => value * 16 + digit := by
  rw [spelledFrom]
  by_cases underscore : c = '_'
  · rw [if_pos underscore, underscore, digitIn?_underscore]
    rfl
  · rw [if_neg underscore]
    cases digitIn? 16 c <;> rfl

theorem spelled?_singleton (c : Char) : spelled? 16 [c] = digitIn? 16 c := by
  rw [spelled?, spelledFrom_first]
  cases digitIn? 16 c with
  | none => rfl
  | some value => simp [spelledFrom]

theorem spelled?_pair (first second : Char) :
    spelled? 16 [first, second] =
      (digitIn? 16 first).bind fun high => (digitIn? 16 second).map fun low => high * 16 + low := by
  rw [spelled?, spelledFrom_first]
  cases digitIn? 16 first with
  | none => rfl
  | some high =>
      dsimp only [Option.bind_some]
      rw [spelledFrom_last, Nat.zero_mul, Nat.zero_add]

/-- The number that a trimmed text spells in hexadecimal. -/
def signedNumeral? (cs : List Char) : Option Int :=
  (spelled? 16 (skipHexMark (splitSign cs).2)).map fun (n : Nat) =>
    if (splitSign cs).1 then -(n : Int) else n

theorem hexNumeral?_eq (cs : List Char) : hexNumeral? cs = signedNumeral? (trimWhite cs) := by
  rw [hexNumeral?, signedNumeral?]
  generalize splitSign (trimWhite cs) = parts
  obtain ⟨negative, digits⟩ := parts
  dsimp only
  cases spelled? 16 (skipHexMark digits) <;> rfl

theorem splitSign_cons {c : Char} (notMinus : c ≠ '-') (notPlus : c ≠ '+') (cs : List Char) :
    splitSign (c :: cs) = (false, c :: cs) := by
  unfold splitSign
  split <;> simp_all

theorem skipHexMark_singleton (c : Char) : skipHexMark [c] = [c] := by
  unfold skipHexMark
  split <;> simp_all

theorem signedNumeral?_singleton (c : Char) :
    signedNumeral? [c] = (digitIn? 16 c).map fun (n : Nat) => (n : Int) := by
  by_cases isMinus : c = '-'
  · subst isMinus
    decide
  · by_cases isPlus : c = '+'
    · subst isPlus
      decide
    · rw [signedNumeral?, splitSign_cons isMinus isPlus, skipHexMark_singleton,
        spelled?_singleton]
      rfl

theorem spelled?_skipHexMark_pair (first second : Char) :
    spelled? 16 (skipHexMark [first, second]) = spelled? 16 [first, second] := by
  by_cases mark : first = '0' ∧ (second = 'x' ∨ second = 'X')
  · obtain ⟨rfl, rfl | rfl⟩ := mark
    · decide
    · decide
  · have noMark : skipHexMark [first, second] = [first, second] := by
      unfold skipHexMark
      split <;> simp_all
    rw [noMark]

theorem signedNumeral?_minus (digit : Char) :
    signedNumeral? ['-', digit] = (digitIn? 16 digit).map fun (value : Nat) => -(value : Int) := by
  show (spelled? 16 (skipHexMark [digit])).map _ = _
  rw [skipHexMark_singleton, spelled?_singleton]
  rfl

theorem signedNumeral?_plus (digit : Char) :
    signedNumeral? ['+', digit] = (digitIn? 16 digit).map fun (value : Nat) => (value : Int) := by
  show (spelled? 16 (skipHexMark [digit])).map _ = _
  rw [skipHexMark_singleton, spelled?_singleton]
  rfl

theorem signedNumeral?_pair {first : Char} (notMinus : first ≠ '-') (notPlus : first ≠ '+')
    (second : Char) :
    signedNumeral? [first, second] =
      (digitIn? 16 first).bind fun high =>
        (digitIn? 16 second).map fun low => ((high * 16 + low : Nat) : Int) := by
  rw [signedNumeral?, splitSign_cons notMinus notPlus, spelled?_skipHexMark_pair, spelled?_pair]
  cases digitIn? 16 first with
  | none => rfl
  | some high =>
      cases digitIn? 16 second with
      | none => rfl
      | some low => rfl

theorem not_isWhite_of_digit {c : Char} {value : Nat} (isDigit : digitIn? 16 c = some value) :
    isWhite c = false := by
  rw [isWhite, not_isBlank_of_digit isDigit, Bool.false_and]

theorem trimWhite_singleton (c : Char) : trimWhite [c] = if isWhite c then [] else [c] := by
  cases white : isWhite c <;> simp [trimWhite, white]

theorem trimWhite_pair (first second : Char) :
    trimWhite [first, second] =
      if isWhite first then trimWhite [second]
      else if isWhite second then [first] else [first, second] := by
  cases front : isWhite first <;> cases back : isWhite second <;>
    simp [trimWhite, front, back]

/-- Two characters are read as a number exactly where they spell it. -/
theorem hexNumeral?_pair_eq_some_iff {first second : Char} {number : Int} :
    hexNumeral? [first, second] = some number ↔ PairSpells first second number := by
  rw [hexNumeral?_eq, trimWhite_pair]
  constructor
  · intro read
    cases front : isWhite first with
    | true =>
        rw [if_pos front, trimWhite_singleton] at read
        split at read
        · cases read
        · rw [signedNumeral?_singleton, Option.map_eq_some_iff] at read
          obtain ⟨value, isDigit, rfl⟩ := read
          exact .behindWhite front isDigit
    | false =>
        rw [front, if_neg Bool.false_ne_true] at read
        cases back : isWhite second with
        | true =>
            rw [if_pos back, signedNumeral?_singleton, Option.map_eq_some_iff] at read
            obtain ⟨value, isDigit, rfl⟩ := read
            exact .beforeWhite isDigit back
        | false =>
            rw [back, if_neg Bool.false_ne_true] at read
            by_cases isMinus : first = '-'
            · rw [isMinus, signedNumeral?_minus, Option.map_eq_some_iff] at read
              obtain ⟨value, isDigit, rfl⟩ := read
              exact isMinus ▸ .minus isDigit
            · by_cases isPlus : first = '+'
              · rw [isPlus, signedNumeral?_plus, Option.map_eq_some_iff] at read
                obtain ⟨value, isDigit, rfl⟩ := read
                exact isPlus ▸ .plus isDigit
              · rw [signedNumeral?_pair isMinus isPlus, Option.bind_eq_some_iff] at read
                obtain ⟨high, isHigh, read⟩ := read
                rw [Option.map_eq_some_iff] at read
                obtain ⟨low, isLow, rfl⟩ := read
                exact .digits isHigh isLow
  · intro spells
    cases spells with
    | digits isHigh isLow =>
        have notMinus : first ≠ '-' := by
          rintro rfl
          cases isHigh
        have notPlus : first ≠ '+' := by
          rintro rfl
          cases isHigh
        rw [not_isWhite_of_digit isHigh, not_isWhite_of_digit isLow, if_neg Bool.false_ne_true,
          if_neg Bool.false_ne_true, signedNumeral?_pair notMinus notPlus, isHigh, isLow]
        rfl
    | behindWhite white isDigit =>
        rw [if_pos white, trimWhite_singleton, not_isWhite_of_digit isDigit,
          if_neg Bool.false_ne_true, signedNumeral?_singleton, isDigit]
        rfl
    | beforeWhite isDigit white =>
        rw [not_isWhite_of_digit isDigit, if_neg Bool.false_ne_true, if_pos white,
          signedNumeral?_singleton, isDigit]
        rfl
    | plus isDigit =>
        have notWhite : isWhite '+' = false := by decide
        rw [notWhite, not_isWhite_of_digit isDigit, if_neg Bool.false_ne_true,
          if_neg Bool.false_ne_true, signedNumeral?_plus, isDigit]
        rfl
    | minus isDigit =>
        have notWhite : isWhite '-' = false := by decide
        rw [notWhite, not_isWhite_of_digit isDigit, if_neg Bool.false_ne_true,
          if_neg Bool.false_ne_true, signedNumeral?_minus, isDigit]
        rfl

/-- Two characters spell at most one number. -/
theorem PairSpells.unique {first second : Char} {number other : Int}
    (spells : PairSpells first second number) (again : PairSpells first second other) :
    number = other := by
  have read := hexNumeral?_pair_eq_some_iff.mpr spells
  rw [hexNumeral?_pair_eq_some_iff.mpr again] at read
  exact (Option.some.inj read).symm

end Eaves.Text

namespace Eaves.Color

/-! ## Colours -/

/-- What of a text is read as a colour: what is left of it without the blanks at either end,
and then without the number signs in front. -/
def written (text : String) : List Char :=
  (Text.trim text.toList).dropWhile (· == '#')

/-- Six hexadecimal digits. -/
def IsHexForm (cs : List Char) : Prop :=
  cs.length = 6 ∧ ∀ c ∈ cs, c ∈ Text.hexadecimals

instance : DecidablePred IsHexForm := fun cs =>
  decidable_of_iff (cs.length = 6 ∧ (cs.all fun c => decide (c ∈ Text.hexadecimals)) = true)
    (by simp only [IsHexForm, List.all_eq_true, decide_eq_true_eq])

theorem isHexForm_iff {r r' g g' b b' : Char} :
    IsHexForm [r, r', g, g', b, b'] ↔
      (r ∈ Text.hexadecimals ∧ r' ∈ Text.hexadecimals) ∧
        (g ∈ Text.hexadecimals ∧ g' ∈ Text.hexadecimals) ∧
          b ∈ Text.hexadecimals ∧ b' ∈ Text.hexadecimals := by
  simp [IsHexForm, and_assoc]

/-- A colour that three pairs of characters spell, without white light. -/
inductive Spells : List Char → Color → Prop
  | pairs {r r' g g' b b' : Char} {red green blue : Level} :
      Text.PairSpells r r' red.toInt → Text.PairSpells g g' green.toInt →
        Text.PairSpells b b' blue.toInt →
          Spells [r, r', g, g', b, b'] ⟨red, green, blue, 0⟩

theorem hexNumeral_pair_eq_ok_iff {first second : Char} {number : Int} :
    liftNumeral (Text.hexNumeral [first, second]) = .ok number ↔
      Text.PairSpells first second number := by
  rw [Outcome.liftNumeral_eq_ok_iff, ← Text.hexNumeral?_pair_eq_some_iff, Text.hexNumeral]
  cases Text.hexNumeral? [first, second] <;> simp

theorem channel_eq_valid_iff {n : Int} {level : Level} :
    channel n = .valid level ↔ n = level.toInt := by
  constructor
  · intro accepted
    rw [channel] at accepted
    split at accepted
    · rename_i found isLevel
      cases accepted
      rw [Level.ofInt?] at isLevel
      split at isLevel
      · rename_i bounds
        cases isLevel
        exact (Int.toNat_of_nonneg bounds.1).symm
      · cases isLevel
    · cases accepted
  · rintro rfl
    simp [channel]

theorem ofChannels_eq_valid_iff {r g b w : Int} {color : Color} :
    ofChannels r g b w = .valid color ↔
      r = color.red.toInt ∧ g = color.green.toInt ∧ b = color.blue.toInt ∧
        w = color.white.toInt := by
  constructor
  · intro accepted
    obtain ⟨_, white, others, isWhite, rfl⟩ := Checked.seq_eq_valid_iff.mp accepted
    obtain ⟨_, blue, channels, isBlue, rfl⟩ := Checked.seq_eq_valid_iff.mp others
    obtain ⟨_, green, first, isGreen, rfl⟩ := Checked.seq_eq_valid_iff.mp channels
    obtain ⟨red, isRed, rfl⟩ := Checked.map_eq_valid_iff.mp first
    rw [Checked.under_eq_valid_iff, channel_eq_valid_iff] at isRed isGreen isBlue isWhite
    exact ⟨isRed, isGreen, isBlue, isWhite⟩
  · rintro ⟨rfl, rfl, rfl, rfl⟩
    exact ofChannels_toInt _ _ _ _

/-- Six characters are read pair by pair. -/
theorem ofHex_eq {text : String} {r r' g g' b b' : Char}
    (six : written text = [r, r', g, g', b, b']) :
    ofHex text = (do
      let red ← liftNumeral (Text.hexNumeral [r, r'])
      let green ← liftNumeral (Text.hexNumeral [g, g'])
      let blue ← liftNumeral (Text.hexNumeral [b, b'])
      (ofChannels red green blue 0).toOutcome) := by
  rw [written] at six
  simp only [ofHex, six]
  rfl

theorem exists_six {cs : List Char} (six : cs.length = 6) :
    ∃ r r' g g' b b', cs = [r, r', g, g', b, b'] := by
  match cs, six with
  | [r, r', g, g', b, b'], _ => exact ⟨r, r', g, g', b, b', rfl⟩

theorem ofHex_eq_error_of_length {text : String} (notSix : (written text).length ≠ 6) :
    ofHex text = .error (.notSixHexDigits text) :=
  if_neg notSix

/-- A text is read as a colour exactly where its pairs spell the levels of the colour. -/
theorem ofHex_eq_ok_iff {text : String} {color : Color} :
    ofHex text = .ok color ↔ Spells (written text) color := by
  constructor
  · intro read
    by_cases six : (written text).length = 6
    · obtain ⟨r, r', g, g', b, b', shape⟩ := exists_six six
      rw [ofHex_eq shape] at read
      obtain ⟨red, isRed, read⟩ := Outcome.bind_eq_ok_iff.mp read
      obtain ⟨green, isGreen, read⟩ := Outcome.bind_eq_ok_iff.mp read
      obtain ⟨blue, isBlue, read⟩ := Outcome.bind_eq_ok_iff.mp read
      rw [Checked.toOutcome_eq_ok_iff, ofChannels_eq_valid_iff] at read
      obtain ⟨rfl, rfl, rfl, dark⟩ := read
      rw [hexNumeral_pair_eq_ok_iff] at isRed isGreen isBlue
      obtain ⟨red, green, blue, white⟩ := color
      have isDark : white = 0 := Level.toInt_inj.mp dark.symm
      rw [shape, isDark]
      exact .pairs isRed isGreen isBlue
    · rw [ofHex_eq_error_of_length six] at read
      cases read
  · intro spells
    generalize shape : written text = cs at spells
    cases spells with
    | pairs isRed isGreen isBlue =>
        rw [ofHex_eq shape, hexNumeral_pair_eq_ok_iff.mpr isRed, Outcome.ok_bind,
          hexNumeral_pair_eq_ok_iff.mpr isGreen, Outcome.ok_bind,
          hexNumeral_pair_eq_ok_iff.mpr isBlue, Outcome.ok_bind]
        exact congrArg Checked.toOutcome (ofChannels_toInt _ _ _ 0)

theorem hexNumeral_eq_error {cs : List Char} {failure : Failure}
    (failed : liftNumeral (Text.hexNumeral cs) = .error failure) :
    failure = .numeral (.notNumeral 16 (String.ofList cs)) := by
  rw [Text.hexNumeral] at failed
  split at failed
  · cases failed
  · cases failed
    rfl

/-- What is refused is refused for its length, for a pair that is no number, or for a number that
is no level. -/
theorem ofHex_eq_error {text : String} {failure : Failure} (failed : ofHex text = .error failure) :
    (failure = .notSixHexDigits text ∧ (written text).length ≠ 6) ∨
      (∃ pair, failure = .numeral (.notNumeral 16 pair)) ∨
      ∃ problems, failure = .invalid problems := by
  by_cases six : (written text).length = 6
  · obtain ⟨r, r', g, g', b, b', shape⟩ := exists_six six
    rw [ofHex_eq shape] at failed
    rcases Outcome.bind_eq_error_iff.mp failed with noRed | ⟨red, -, failed⟩
    · exact .inr (.inl ⟨_, hexNumeral_eq_error noRed⟩)
    rcases Outcome.bind_eq_error_iff.mp failed with noGreen | ⟨green, -, failed⟩
    · exact .inr (.inl ⟨_, hexNumeral_eq_error noGreen⟩)
    rcases Outcome.bind_eq_error_iff.mp failed with noBlue | ⟨blue, -, failed⟩
    · exact .inr (.inl ⟨_, hexNumeral_eq_error noBlue⟩)
    cases checked : ofChannels red green blue 0 with
    | valid color =>
        rw [checked] at failed
        cases failed
    | invalid problems =>
        rw [checked] at failed
        cases failed
        exact .inr (.inr ⟨problems, rfl⟩)
  · rw [ofHex_eq_error_of_length six] at failed
    cases failed
    exact .inl ⟨rfl, six⟩

/-! ## Six hexadecimal digits -/

theorem hexPair_eq (level : Level) :
    hexPair level = [Text.capitalDigit (level.val / 16), Text.capitalDigit (level.val % 16)] :=
  rfl

/-- Two hexadecimal digits spell the level that is written in their capitals. -/
theorem exists_level_of_hexadecimals {first second : Char} (isFirst : first ∈ Text.hexadecimals)
    (isSecond : second ∈ Text.hexadecimals) :
    ∃ level : Level, Text.PairSpells first second level.toInt ∧
      hexPair level = [first.toUpper, second.toUpper] := by
  obtain ⟨high, highBound, isHigh, firstCapital⟩ := Text.exists_value_of_hexadecimal first isFirst
  obtain ⟨low, lowBound, isLow, secondCapital⟩ := Text.exists_value_of_hexadecimal second isSecond
  have bound : high * 16 + low < 256 := by omega
  have quotient : (high * 16 + low) / 16 = high := by omega
  have remainder : (high * 16 + low) % 16 = low := by omega
  refine ⟨⟨high * 16 + low, bound⟩, .digits isHigh isLow, ?_⟩
  rw [hexPair_eq, quotient, remainder, firstCapital, secondCapital]

/-- What two hexadecimal digits spell is written in their capitals. -/
theorem hexPair_of_spells {first second : Char} (isFirst : first ∈ Text.hexadecimals)
    (isSecond : second ∈ Text.hexadecimals) {level : Level}
    (spells : Text.PairSpells first second level.toInt) :
    hexPair level = [first.toUpper, second.toUpper] := by
  obtain ⟨other, alsoSpells, shape⟩ := exists_level_of_hexadecimals isFirst isSecond
  rw [Level.toInt_inj.mp (spells.unique alsoSpells), shape]

/-- A level is written in two hexadecimal digits, which spell it. -/
theorem exists_digits_of_hexPair (level : Level) :
    ∃ first second, hexPair level = [first, second] ∧ first ∈ Text.hexadecimals ∧
      second ∈ Text.hexadecimals ∧ Text.PairSpells first second level.toInt := by
  have bound := level.isLt
  obtain ⟨isFirst, isHigh⟩ := Text.digitIn?_capitalDigit (level.val / 16) (by omega)
  obtain ⟨isSecond, isLow⟩ := Text.digitIn?_capitalDigit (level.val % 16) (by omega)
  refine ⟨_, _, hexPair_eq level, isFirst, isSecond, ?_⟩
  have sum : level.toInt = (level.val / 16 * 16 + level.val % 16 : Nat) := by
    rw [Nat.div_add_mod']
    rfl
  rw [sum]
  exact .digits isHigh isLow

/-- A colour is written in six hexadecimal digits, which spell it without its white light. -/
theorem exists_hexForm_toHex (color : Color) :
    ∃ cs, color.toHex = String.ofList cs ∧ IsHexForm cs ∧ Spells cs { color with white := 0 } := by
  obtain ⟨r, r', redShape, isR, isR', redSpells⟩ := exists_digits_of_hexPair color.red
  obtain ⟨g, g', greenShape, isG, isG', greenSpells⟩ := exists_digits_of_hexPair color.green
  obtain ⟨b, b', blueShape, isB, isB', blueSpells⟩ := exists_digits_of_hexPair color.blue
  refine ⟨[r, r', g, g', b, b'], ?_, ?_, .pairs redSpells greenSpells blueSpells⟩
  · rw [toHex, redShape, greenShape, blueShape]
    rfl
  · exact isHexForm_iff.mpr ⟨⟨isR, isR'⟩, ⟨isG, isG'⟩, isB, isB'⟩

/-- Six hexadecimal digits are read as they stand. -/
theorem written_of_isHexForm {cs : List Char} (isHex : IsHexForm cs) :
    written (String.ofList cs) = cs := by
  have notBlank : ∀ c ∈ cs, Text.isBlank c = false := by
    intro c mem
    obtain ⟨value, -, isDigit, -⟩ := Text.exists_value_of_hexadecimal c (isHex.2 c mem)
    exact Text.not_isBlank_of_digit isDigit
  have trimmed : Text.trim cs = cs :=
    Text.trim_eq_self (fun c first => notBlank c (List.mem_of_head? first))
      (fun c last => notBlank c (List.mem_of_getLast? last))
  have noMark : ∀ c ∈ cs, (c == '#') = false := by
    intro c mem
    rw [beq_eq_false_iff_ne]
    rintro rfl
    exact absurd (isHex.2 _ mem) (by decide)
  rw [written, String.toList_ofList, trimmed]
  cases cs with
  | nil => rfl
  | cons c rest => rw [List.dropWhile_cons_of_neg (by simp [noMark c List.mem_cons_self])]

/-- Of the texts that are read, those that are six hexadecimal digits are the ones whose colour
is written in the same digits. -/
theorem toHex_eq_capitals_iff {cs : List Char} {color : Color} (spells : Spells cs color) :
    color.toHex = String.ofList (cs.map Char.toUpper) ↔ IsHexForm cs := by
  constructor
  · intro same
    obtain ⟨capitals, shape, isHex, -⟩ := exists_hexForm_toHex color
    rw [shape, String.ofList_inj] at same
    rw [same] at isHex
    constructor
    · rw [← isHex.1, List.length_map]
    · intro c mem
      exact Text.mem_hexadecimals_of_toUpper (isHex.2 _ (List.mem_map_of_mem mem))
  · intro isHex
    cases spells with
    | pairs redSpells greenSpells blueSpells =>
        obtain ⟨⟨isR, isR'⟩, ⟨isG, isG'⟩, isB, isB'⟩ := isHexForm_iff.mp isHex
        rw [toHex, hexPair_of_spells isR isR' redSpells, hexPair_of_spells isG isG' greenSpells,
          hexPair_of_spells isB isB' blueSpells]
        rfl

theorem exists_color_of_isHexForm {cs : List Char} (isHex : IsHexForm cs) :
    ∃ color, Spells cs color := by
  obtain ⟨r, r', g, g', b, b', rfl⟩ := exists_six isHex.1
  obtain ⟨⟨isR, isR'⟩, ⟨isG, isG'⟩, isB, isB'⟩ := isHexForm_iff.mp isHex
  obtain ⟨red, redSpells, -⟩ := exists_level_of_hexadecimals isR isR'
  obtain ⟨green, greenSpells, -⟩ := exists_level_of_hexadecimals isG isG'
  obtain ⟨blue, blueSpells, -⟩ := exists_level_of_hexadecimals isB isB'
  exact ⟨_, .pairs redSpells greenSpells blueSpells⟩

/-! ## Plain texts -/

/-- A Latin character that is neither white space nor a sign. -/
def IsPlain (c : Char) : Prop :=
  c.toNat < 128 ∧ Text.isWhite c = false ∧ c ≠ '+' ∧ c ≠ '-'

/-- Two plain characters that spell a number are hexadecimal digits. -/
theorem mem_hexadecimals_of_plain {first second : Char} {number : Int}
    (spells : Text.PairSpells first second number) (plain : IsPlain first) (also : IsPlain second) :
    first ∈ Text.hexadecimals ∧ second ∈ Text.hexadecimals := by
  cases spells with
  | digits isHigh isLow =>
      exact ⟨Text.mem_hexadecimals_of_digit plain.1 isHigh,
        Text.mem_hexadecimals_of_digit also.1 isLow⟩
  | behindWhite white isDigit => exact absurd white (by simp [plain.2.1])
  | beforeWhite isDigit white => exact absurd white (by simp [also.2.1])
  | plus isDigit => exact absurd rfl plain.2.2.1
  | minus isDigit => exact absurd rfl plain.2.2.2

theorem isHexForm_of_plain {cs : List Char} {color : Color} (spells : Spells cs color)
    (plain : ∀ c ∈ cs, IsPlain c) : IsHexForm cs := by
  cases spells with
  | pairs redSpells greenSpells blueSpells =>
      simp only [List.mem_cons, List.not_mem_nil, or_false, forall_eq_or_imp, forall_eq] at plain
      obtain ⟨isR, isR', isG, isG', isB, isB'⟩ := plain
      exact isHexForm_iff.mpr ⟨mem_hexadecimals_of_plain redSpells isR isR',
        mem_hexadecimals_of_plain greenSpells isG isG', mem_hexadecimals_of_plain blueSpells isB isB'⟩

/-! ## Reading and writing -/

/-- A text is read as a colour exactly where the three pairs of what is written in it spell the
levels of the colour; every other text is refused, for its length, for a pair that is no number or
for a number that is no level.  Six hexadecimal digits are read, and of the texts that are read
they are those whose colour is written in the same digits, in capitals.  A text of plain characters
is read only where it is six hexadecimal digits.  What is written of a colour is read as the same
colour without its white light. -/
theorem hexadecimal_forms (text : String) :
    (∀ color, ofHex text = .ok color ↔ Spells (written text) color) ∧
    (∀ failure, ofHex text = .error failure →
      (failure = .notSixHexDigits text ∧ (written text).length ≠ 6) ∨
        (∃ pair, failure = .numeral (.notNumeral 16 pair)) ∨
        ∃ problems, failure = .invalid problems) ∧
    (IsHexForm (written text) → ∃ color, ofHex text = .ok color) ∧
    (∀ color, ofHex text = .ok color →
      (color.toHex = String.ofList ((written text).map Char.toUpper) ↔
        IsHexForm (written text))) ∧
    ((∀ c ∈ written text, IsPlain c) →
      ((∃ color, ofHex text = .ok color) ↔ IsHexForm (written text))) ∧
    ∀ color : Color, ofHex color.toHex = .ok { color with white := 0 } := by
  have reads (isHex : IsHexForm (written text)) : ∃ color, ofHex text = .ok color := by
    obtain ⟨color, spells⟩ := exists_color_of_isHexForm isHex
    exact ⟨color, ofHex_eq_ok_iff.mpr spells⟩
  refine ⟨fun color => ofHex_eq_ok_iff, fun failure => ofHex_eq_error, reads,
    fun color read => toHex_eq_capitals_iff (ofHex_eq_ok_iff.mp read), fun plain => ⟨?_, reads⟩,
    fun color => ?_⟩
  · rintro ⟨color, read⟩
    exact isHexForm_of_plain (ofHex_eq_ok_iff.mp read) plain
  · obtain ⟨cs, shape, isHex, spells⟩ := exists_hexForm_toHex color
    rw [shape, ofHex_eq_ok_iff, written_of_isHexForm isHex]
    exact spells

/-- Orange in small letters, behind a blank and a number sign. -/
theorem hexadecimal_forms_orange :
    IsHexForm (written " #ff8800") ∧
      ∃ color, ofHex " #ff8800" = .ok color ∧ color.toHex = "FF8800" := by
  have isHex : IsHexForm (written " #ff8800") := by decide
  obtain ⟨-, -, reads, capitals, -⟩ := hexadecimal_forms " #ff8800"
  obtain ⟨color, read⟩ := reads isHex
  have same := (capitals color read).mpr isHex
  refine ⟨isHex, color, read, same.trans ?_⟩
  decide

/-- Three numbers with a sign are read as a colour, though they are no six hexadecimal digits:
the colour is written in another text. -/
theorem signs_are_read :
    ofHex "+1+2+3" = .ok ⟨1, 2, 3, 0⟩ ∧ ¬ IsHexForm (written "+1+2+3") ∧
      toHex ⟨1, 2, 3, 0⟩ = "010203" := by
  decide

end Eaves.Color
