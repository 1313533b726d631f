import Eaves.Proofs.Text.Decimal
import Eaves.Value.Json

/-!
# Numbers in documents

A whole number is written by its digits, any other by its shortest text.  Both are read
back as the number they were written from: the text of a number that is not whole always
has a point or a power of ten, so neither is taken for the other.
-/

namespace Eaves.Json

open Number (Binary64)
open Text (Spelling)

/-! ## Whole parts -/

theorem isWholePart_of_head {cs : List Char} (notNil : cs ≠ [])
    (noZeroInFront : cs = ['0'] ∨ cs.head? ≠ some '0') : isWholePart cs = true := by
  rcases noZeroInFront with rfl | other
  · rfl
  · cases cs with
    | nil => exact absurd rfl notNil
    | cons c rest =>
        have notNought : c ≠ '0' := fun same => other (congrArg some same)
        unfold isWholePart
        split
        · rename_i same
          cases same
        · rfl
        · rename_i same
          exact absurd (List.cons.inj same).1 notNought
        · rfl

theorem isWholePart_toString (n : Nat) : isWholePart (toString n).toList = true := by
  apply isWholePart_of_head (Text.toString_ne_nil n)
  rw [Text.toList_toString]
  by_cases zero : n = 0
  · left
    rw [zero, Nat.toDigits_zero]
  · rcases Text.exists_toDigits_eq_cons zero with ⟨c, rest, shape, notNought⟩
    rw [shape]
    exact .inr fun same => notNought (Option.some.inj same)

/-! ## Numbers -/

/-- The sign of a number as it is written. -/
def signText (negative : Bool) : List Char :=
  if negative then ['-'] else []

/-- The number that a text writes behind its sign. -/
def unsigned? (negative : Bool) (cs : List Char) : Option Value :=
  let whole := cs.takeWhile Char.isDigit
  let rest := cs.dropWhile Char.isDigit
  if !isWholePart whole then none
  else if rest.isEmpty then
    (Text.spelled? 10 whole).map fun n => .int (if negative then -(n : Int) else n)
  else
    let fractionFits :=
      match rest with
      | '.' :: more => more.headD ' ' |>.isDigit
      | _ => true
    if fractionFits && rest.all fun c => c != '_' && c.toNat < 128 then
      (Text.unsignedDecimal? negative cs).map fun decimal => .float decimal.toBinary64
    else none

theorem number?_signText {cs : List Char} {c : Char} (isHead : cs.head? = some c)
    (latin : c.isDigit) (negative : Bool) :
    number? (signText negative ++ cs) = unsigned? negative cs := by
  unfold number?
  split
  rename_i isNegative unsigned shape
  have signed : isNegative = negative ∧ unsigned = cs := by
    split at shape
    · rename_i others isText
      cases shape
      cases negative with
      | true => exact ⟨rfl, (List.cons.inj isText).2.symm⟩
      | false =>
          rw [signText, if_neg Bool.false_ne_true, List.nil_append] at isText
          rw [isText] at isHead
          cases isHead
          cases latin
    · rename_i noSign
      cases shape
      cases negative with
      | true => exact absurd rfl (noSign cs)
      | false => exact ⟨rfl, rfl⟩
  rw [signed.1, signed.2]
  rfl

/-- The whole number that digits spell is read. -/
theorem unsigned?_digits {digits : List Char} (latin : ∀ c ∈ digits, c.isDigit)
    (isWhole : isWholePart digits = true) {n : Nat} (spells : Text.spelled? 10 digits = some n)
    (negative : Bool) :
    unsigned? negative digits = some (.int (if negative then -(n : Int) else n)) := by
  rcases Text.cut_digits latin (fun c (isHead : [].head? = some c) => by cases isHead) with
    ⟨take, drop⟩
  rw [List.append_nil] at take drop
  simp [unsigned?, take, drop, isWhole, spells]

/-- The characters that numbers are written with belong to the number. -/
theorem isPlain_of_numeral {c : Char} (allowed : c.isDigit ∨ c ∈ ['.', 'e', '+', '-']) :
    (c != '_' && decide (c.toNat < 128)) = true := by
  rcases allowed with latin | mark
  · have bounds := Text.toNat_of_isDigit latin
    have notUnderscore : c ≠ '_' := by
      rintro rfl
      cases latin
    have ascii : c.toNat < 128 := by omega
    simp [notUnderscore, ascii]
  · have table : (['.', 'e', '+', '-'].all fun mark =>
        mark != '_' && decide (mark.toNat < 128)) = true := rfl
    exact List.all_eq_true.mp table c mark

/-- The decimal that a text spells is read, if the text is not that of a whole number. -/
theorem unsigned?_text {spelling : Spelling} (isReal : spelling.IsReal) (negative : Bool) :
    unsigned? negative spelling.text = some (.float (spelling.decimal negative).toBinary64) := by
  have ends : ∀ c, ((if spelling.fraction.isEmpty then [] else '.' :: spelling.fraction) ++
      spelling.tail).head? = some c → c.isDigit = false := by
    intro c isHead
    rw [Bool.eq_false_iff]
    intro latin
    split at isHead
    · exact Bool.false_ne_true ((spelling.endsDigits_tail c isHead).symm.trans
        (Text.inDigitRun_of_isDigit latin))
    · cases isHead
      cases latin
  have take : spelling.text.takeWhile Char.isDigit = spelling.whole :=
    (Text.cut_digits isReal.whole ends).1
  have drop : spelling.text.dropWhile Char.isDigit =
      (if spelling.fraction.isEmpty then [] else '.' :: spelling.fraction) ++ spelling.tail :=
    (Text.cut_digits isReal.whole ends).2
  have plain : ((if spelling.fraction.isEmpty then [] else '.' :: spelling.fraction) ++
      spelling.tail).all (fun c => c != '_' && decide (c.toNat < 128)) = true := by
    rw [List.all_eq_true]
    intro c mem
    exact isPlain_of_numeral (Spelling.of_mem_text isReal.toIsLatin (List.mem_append_right _ mem))
  have isWhole := isWholePart_of_head isReal.notNil isReal.noZeroInFront
  have spelled := Spelling.unsignedDecimal?_text isReal.toIsLatin negative
  unfold unsigned?
  dsimp only
  rw [take, drop, isWhole, plain, spelled]
  cases fraction : spelling.fraction with
  | nil =>
      unfold Spelling.tail
      cases power : spelling.power with
      | none => exact absurd power (isReal.notWhole.resolve_left (not_not_intro fraction))
      | some n => rfl
  | cons c more =>
      have latin : c.isDigit := isReal.fraction c (by rw [fraction]; exact List.mem_cons_self)
      simp [latin]

/-! ## Numerals that are written -/

/-- A text of digits and marks that has a digit behind its sign. -/
structure IsNumeral (cs : List Char) : Prop where
  signed : ∃ negative c rest, cs = signText negative ++ c :: rest ∧ c.isDigit
  allowed : ∀ c ∈ cs, c.isDigit ∨ c ∈ ['.', 'e', '+', '-']

/-- No numeral is one of the names that stand for a value. -/
theorem bare?_of_isNumeral {cs : List Char} (isNumeral : IsNumeral cs) : bare? cs = number? cs := by
  rcases isNumeral.signed with ⟨negative, c, rest, shape, latin⟩
  have notMinus : (c == '-') = false := by
    rw [beq_eq_false_iff_ne]
    rintro rfl
    cases latin
  have digitFirst : (cs.dropWhile (· == '-')).head?.any Char.isDigit = true := by
    rw [shape]
    cases negative <;> simp [signText, notMinus, latin]
  have noName : ∀ name ∈ ["null", "true", "false", "NaN", "Infinity", "-Infinity"],
      String.ofList cs ≠ name := by
    have table : ∀ name ∈ ["null", "true", "false", "NaN", "Infinity", "-Infinity"],
        (name.toList.dropWhile (· == '-')).head?.any Char.isDigit = false := by
      decide
    intro name mem same
    have noDigit := table name mem
    rw [← same, String.toList_ofList, digitFirst] at noDigit
    cases noDigit
  unfold bare?
  split
  case h_7 => rfl
  all_goals
    rename_i same
    exact absurd same (noName _ (by decide))

theorem head?_of_isDigit {cs : List Char} (notNil : cs ≠ []) (latin : ∀ c ∈ cs, c.isDigit) :
    ∃ c, cs.head? = some c ∧ c.isDigit := by
  cases cs with
  | nil => exact absurd rfl notNil
  | cons c rest => exact ⟨c, rfl, latin c List.mem_cons_self⟩

theorem isNumeral_signText {cs : List Char} {c : Char} (isHead : cs.head? = some c)
    (latin : c.isDigit) (allowed : ∀ c ∈ cs, c.isDigit ∨ c ∈ ['.', 'e', '+', '-'])
    (negative : Bool) : IsNumeral (signText negative ++ cs) := by
  constructor
  · rcases List.head?_eq_some_iff.mp isHead with ⟨rest, rfl⟩
    exact ⟨negative, c, rest, rfl, latin⟩
  · intro c mem
    rcases List.mem_append.mp mem with sign | inside
    · cases negative
      · cases sign
      · rw [List.mem_singleton.mp sign]
        exact .inr (by decide)
    · exact allowed c inside

/-- A whole number is read as it was written. -/
theorem number?_toString (n : Int) :
    IsNumeral (toString n).toList ∧ number? (toString n).toList = some (.int n) := by
  have written : ∃ negative : Bool, ∃ m : Nat,
      (toString n).toList = signText negative ++ (toString m).toList ∧
        (if negative then -(m : Int) else m) = n := by
    cases n with
    | ofNat m => exact ⟨false, m, rfl, rfl⟩
    | negSucc m => exact ⟨true, m + 1, String.toList_append, rfl⟩
  rcases written with ⟨negative, m, shape, value⟩
  have latin := fun c => Text.isDigit_of_mem_toString (n := m) (c := c)
  rcases head?_of_isDigit (Text.toString_ne_nil m) latin with ⟨c, isHead, isDigit⟩
  rw [shape]
  refine ⟨isNumeral_signText isHead isDigit (fun c mem => .inl (latin c mem)) negative, ?_⟩
  rw [number?_signText isHead isDigit,
    unsigned?_digits latin (isWholePart_toString m) (Text.spelled?_toString m), value]

/-- A positive number of the format is read as it was written, behind either sign. -/
theorem number?_shortestDigits {x : Rat} (rounds : Binary64.ofRat x = .finite x) (pos : 0 < x)
    (negative : Bool) :
    IsNumeral (signText negative ++ Binary64.shortestDigits x) ∧
      number? (signText negative ++ Binary64.shortestDigits x) =
        some (.float (.finite (if negative then -x else x))) := by
  rcases Binary64.exists_layOut rounds pos with ⟨m, e, isLayout, notZero, low, high, isRounded⟩
  rcases Text.exists_spelling notZero e with ⟨spelling, isText, spells⟩
  rw [isLayout, isText]
  obtain ⟨c, isHead, latin⟩ : ∃ c, spelling.text.head? = some c ∧ c.isDigit := by
    rcases head?_of_isDigit spells.notNil spells.whole with ⟨c, isHead, latin⟩
    refine ⟨c, ?_, latin⟩
    rw [Spelling.text, List.head?_append, isHead]
    rfl
  refine ⟨isNumeral_signText isHead latin
    (fun c mem => Spelling.of_mem_text spells.toIsLatin mem) negative, ?_⟩
  have digits : (spelling.decimal negative).digits ≠ 0 := by
    intro zero
    have value := spells.value
    have zeroDigits : Nat.ofDigitChars 10 (spelling.whole ++ spelling.fraction) 0 = 0 := zero
    rw [zeroDigits, Nat.cast_zero, zero_mul] at value
    have power : (10 : Rat) ^ e ≠ 0 := zpow_ne_zero e (by norm_num)
    have someDigit : (m : Rat) ≠ 0 := by exact_mod_cast notZero
    exact mul_ne_zero someDigit power value.symm
  have rat : (spelling.decimal negative).toRat =
      if negative then -(m * (10 : Rat) ^ e) else m * (10 : Rat) ^ e := by
    rw [Number.Decimal.toRat_eq, ← spells.value]
    rfl
  have exponentHigh : (spelling.decimal negative).exponent ≤ 400 := by
    have := spells.high
    change spelling.power.getD 0 - spelling.fraction.length ≤ 400
    omega
  have exponentLow : -400 ≤ (spelling.decimal negative).exponent +
      (spelling.decimal negative).digitCount := by
    have := spells.low
    change -400 ≤ spelling.power.getD 0 - spelling.fraction.length +
      (spelling.whole.length + spelling.fraction.length : Nat)
    omega
  rw [number?_signText isHead latin, unsigned?_text spells.toIsReal,
    Number.Decimal.toBinary64_eq digits exponentHigh exponentLow, rat]
  cases negative with
  | false => exact congrArg (fun x => some (Value.float x)) isRounded
  | true => exact congrArg (fun x => some (Value.float x)) (Binary64.ofRat_neg isRounded)

/-- A number of the format is read as it was written. -/
theorem number?_shortest {x : Binary64} (isFinite : x.isFinite = true) (rounded : x.IsRounded) :
    IsNumeral x.shortest.toList ∧ number? x.shortest.toList = some (.float x) := by
  have zero (negative : Bool) : IsNumeral (signText negative ++ ['0', '.', '0']) := by
    refine isNumeral_signText (c := '0') rfl rfl (fun c mem => ?_) negative
    simp only [List.mem_cons, List.not_mem_nil, or_false] at mem
    rcases mem with rfl | rfl | rfl
    · exact .inl rfl
    · exact .inr List.mem_cons_self
    · exact .inl rfl
  cases x with
  | infinite negative => cases isFinite
  | nan => cases isFinite
  | negativeZero => exact ⟨zero true, rfl⟩
  | finite value =>
      rcases lt_trichotomy value 0 with negative | rfl | positive
      · have text : (Binary64.finite value).shortest.toList =
            signText true ++ Binary64.shortestDigits (-value) := by
          have magnitude : value.abs = -value := Rat.abs_of_nonpos negative.le
          simp [Binary64.shortest, Binary64.specialText, Binary64.isNegative, Binary64.toRat,
            magnitude, negative, negative.ne, signText]
        have reads := number?_shortestDigits (Binary64.ofRat_neg rounded) (neg_pos.mpr negative)
          true
        rw [if_pos rfl, neg_neg] at reads
        rwa [text]
      · exact ⟨zero false, rfl⟩
      · have text : (Binary64.finite value).shortest.toList =
            signText false ++ Binary64.shortestDigits value := by
          have magnitude : value.abs = value := Rat.abs_of_nonneg positive.le
          simp [Binary64.shortest, Binary64.specialText, Binary64.isNegative, Binary64.toRat,
            magnitude, positive.le, positive.ne', signText]
        rw [text]
        exact number?_shortestDigits rounded positive false

end Eaves.Json
