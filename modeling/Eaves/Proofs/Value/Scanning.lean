import Eaves.Proofs.Value.Numeral

/-!
# Reading a document character by character

Reading cuts a text into tokens and then puts the tokens together.  Both passes can be
followed side by side: each character finishes some tokens, and these are taken up before
the next character is looked at.  What is written of a string, of a number or of a name
is one token, wherever it stands.
-/

namespace Eaves.Json

variable {style : Style} {reading next : Reading} {state : Lexing} {cs rest : List Char} {c : Char}

/-! ## Both passes at once -/

/-- The value that a text holds, read from the middle of it. -/
def readFrom (reading : Reading) (state : Lexing) (cs : List Char) : Option Value :=
  (tokensFrom state cs).bind (readTokens reading)

/-- The reading of more tokens. -/
def acceptAll : Reading → List Token → Option Reading
  | reading, [] => some reading
  | reading, token :: rest => (accept reading token).bind (acceptAll · rest)

theorem acceptAll_one (reading : Reading) (token : Token) :
    acceptAll reading [token] = accept reading token :=
  Option.bind_fun_some _

theorem readTokens_append (reading : Reading) (tokens more : List Token) :
    readTokens reading (tokens ++ more) = (acceptAll reading tokens).bind (readTokens · more) := by
  induction tokens generalizing reading with
  | nil => rfl
  | cons token tokens ih =>
      rw [List.cons_append, readTokens, acceptAll]
      cases accept reading token with
      | none => rfl
      | some next => exact ih next

theorem tokensFrom_cons (state : Lexing) (c : Char) (cs : List Char) :
    tokensFrom state (c :: cs) =
      (step state c).bind fun next => (tokensFrom next.1 cs).map (next.2 ++ ·) := by
  rw [tokensFrom]
  cases step state c <;> rfl

/-- A character finishes tokens, and what is after it is read from there. -/
theorem readFrom_cons (reading : Reading) (state : Lexing) (c : Char) (cs : List Char) :
    readFrom reading state (c :: cs) =
      (step state c).bind fun next =>
        (acceptAll reading next.2).bind fun reached => readFrom reached next.1 cs := by
  unfold readFrom
  rw [tokensFrom_cons]
  cases step state c with
  | none => rfl
  | some next =>
      rw [Option.bind_some, Option.bind_some]
      cases tokensFrom next.1 cs with
      | none => cases acceptAll reading next.2 <;> rfl
      | some more => exact readTokens_append reading next.2 more

theorem parse?_eq (text : String) : parse? text = readFrom {} .between text.toList :=
  rfl

/-! ## Gaps and marks -/

theorem readFrom_gap (gap : isGap c = true) :
    readFrom reading .between (c :: cs) = readFrom reading .between cs := by
  rw [readFrom_cons, step, stepBetween, if_pos gap]
  rfl

/-- A mark is a token. -/
theorem readFrom_mark (token : Token) (mark : stepBetween c = some (.between, some token)) :
    readFrom reading .between (c :: cs) =
      (accept reading token).bind (readFrom · .between cs) := by
  rw [readFrom_cons, step, mark]
  exact congrArg (Option.bind · (readFrom · .between cs)) (acceptAll_one reading token)

theorem readFrom_gaps {gaps : List Char} (areGaps : ∀ c ∈ gaps, isGap c = true) :
    readFrom reading .between (gaps ++ cs) = readFrom reading .between cs := by
  induction gaps with
  | nil => rfl
  | cons c gaps ih =>
      rw [List.cons_append, readFrom_gap (areGaps c List.mem_cons_self)]
      exact ih fun other mem => areGaps other (List.mem_cons_of_mem _ mem)

theorem readFrom_lineBreak (style : Style) (depth : Nat) :
    readFrom reading .between (lineBreak style depth ++ cs) = readFrom reading .between cs := by
  apply readFrom_gaps
  intro c mem
  unfold lineBreak at mem
  split at mem
  · rcases List.mem_cons.mp mem with rfl | space
    · rfl
    · rw [List.eq_of_mem_replicate space]
      rfl
  · cases mem

/-! ## Strings -/

theorem readFrom_escape {soFar : List Char} {letter shown : Char} (noUnit : letter ≠ 'u')
    (escapes : escaped? letter = some shown) :
    readFrom reading (.inText soFar) ('\\' :: letter :: cs) =
      readFrom reading (.inText (shown :: soFar)) cs := by
  have opens : readFrom reading (.inText soFar) ('\\' :: letter :: cs) =
      readFrom reading (.afterEscape soFar) (letter :: cs) := by
    rw [readFrom_cons]
    rfl
  rw [opens, readFrom_cons, step, if_neg noUnit, escapes]
  rfl

/-- One hexadecimal digit of a code unit, with others after it. -/
theorem readFrom_unitDigit {soFar : List Char} {high : Option Nat} {left value digit : Nat}
    (isDigit : hexValue? c = some digit) (more : ¬ left ≤ 1) :
    readFrom reading (.inUnit soFar high left value) (c :: cs) =
      readFrom reading (.inUnit soFar high (left - 1) (value * 16 + digit)) cs := by
  rw [readFrom_cons, step, isDigit, Option.map_some]
  dsimp only
  rw [if_neg more]
  rfl

/-- The code unit of a control character is read as the character. -/
theorem readFrom_unitText {soFar : List Char} {n : Nat} (control : n < 32) :
    readFrom reading (.inText soFar) (unitText n ++ cs) =
      readFrom reading (.inText (Char.ofNat n :: soFar)) cs := by
  have table : ∀ n < 32, (Text.hexDigits 4 n).map hexValue? =
      [some 0, some 0, some (n / 16), some (n % 16)] := by
    decide
  have values := table n control
  obtain ⟨first, second, third, fourth, shape⟩ :
      ∃ first second third fourth, Text.hexDigits 4 n = [first, second, third, fourth] := by
    have four := congrArg List.length values
    rw [List.length_map] at four
    match Text.hexDigits 4 n, four with
    | [first, second, third, fourth], _ => exact ⟨first, second, third, fourth, rfl⟩
  rw [shape] at values
  simp only [List.map_cons, List.map_nil, List.cons.injEq, and_true] at values
  rcases values with ⟨isFirst, isSecond, isThird, isFourth⟩
  have opens : readFrom reading (.inText soFar) (unitText n ++ cs) =
      readFrom reading (.inUnit soFar none 4 0) (first :: second :: third :: fourth :: cs) := by
    rw [unitText, shape]
    change readFrom reading _ ('\\' :: 'u' :: first :: second :: third :: fourth :: cs) = _
    rw [readFrom_cons]
    change readFrom reading (.afterEscape soFar) ('u' :: _) = _
    rw [readFrom_cons]
    rfl
  have value : ((0 * 16 + 0) * 16 + 0) * 16 + n / 16 = n / 16 := by omega
  rw [opens, readFrom_unitDigit isFirst (by decide), readFrom_unitDigit isSecond (by decide),
    readFrom_unitDigit isThird (by decide), readFrom_cons, step, isFourth, Option.map_some, value,
    Nat.div_add_mod']
  have noHalf : ¬ (0xD800 ≤ n ∧ n ≤ 0xDBFF) ∧ ¬ (0xDC00 ≤ n ∧ n ≤ 0xDFFF) := by omega
  have reached : afterUnit soFar none n = .inText (Char.ofNat n :: soFar) := by
    rw [afterUnit, if_neg noHalf.1, if_neg noHalf.2]
  dsimp only
  rw [if_pos (by decide), reached]
  rfl

/-- A character of a string that is written without code units is read as itself. -/
theorem readFrom_writeChar (notAscii : style.asciiOnly = false) (soFar : List Char) (c : Char) :
    readFrom reading (.inText soFar) (writeChar style c ++ cs) =
      readFrom reading (.inText (c :: soFar)) cs := by
  have short {letter : Char} (isShort : writeChar style c = ['\\', letter])
      (noUnit : letter ≠ 'u') (escapes : escaped? letter = some c) :
      readFrom reading (.inText soFar) (writeChar style c ++ cs) =
        readFrom reading (.inText (c :: soFar)) cs := by
    rw [isShort]
    exact readFrom_escape noUnit escapes
  by_cases special : c ∈ [Text.doubleQuote, '\\', '\n', '\r', '\t', '\x08', '\x0c']
  · simp only [List.mem_cons, List.not_mem_nil, or_false] at special
    rcases special with rfl | rfl | rfl | rfl | rfl | rfl | rfl
    all_goals exact short rfl (by decide) rfl
  · simp only [List.mem_cons, List.not_mem_nil, or_false, not_or] at special
    rcases special with ⟨notQuote, notSlash, notFeed, notReturn, notTab, notBack, notForm⟩
    unfold writeChar
    rw [if_neg notQuote, if_neg notSlash, if_neg notFeed, if_neg notReturn, if_neg notTab,
      if_neg notBack, if_neg notForm]
    split
    · rename_i control
      rw [readFrom_unitText control, Char.ofNat_toNat]
    · rename_i noControl
      rw [notAscii, if_neg (by simp), List.singleton_append, readFrom_cons, step, stepText,
        if_neg notQuote, if_neg notSlash, if_neg noControl]
      rfl

theorem readFrom_chars (notAscii : style.asciiOnly = false) (soFar chars : List Char) :
    readFrom reading (.inText soFar) (chars.flatMap (writeChar style) ++ cs) =
      readFrom reading (.inText (chars.reverse ++ soFar)) cs := by
  induction chars generalizing soFar with
  | nil => rfl
  | cons c chars ih =>
      rw [List.flatMap_cons, List.append_assoc, readFrom_writeChar notAscii, ih, List.reverse_cons,
        List.append_assoc, List.singleton_append]

/-- A written string is a token. -/
theorem readFrom_text (notAscii : style.asciiOnly = false) (s : String) :
    readFrom reading .between (writeText style s ++ cs) =
      (accept reading (.text s)).bind (readFrom · .between cs) := by
  have opens (more : List Char) : readFrom reading .between (Text.doubleQuote :: more) =
      readFrom reading (.inText []) more := by
    rw [readFrom_cons]
    rfl
  have closes (soFar : List Char) : readFrom reading (.inText soFar) (Text.doubleQuote :: cs) =
      (accept reading (.text (String.ofList soFar.reverse))).bind (readFrom · .between cs) := by
    rw [readFrom_cons, step, stepText, if_pos rfl]
    exact congrArg (Option.bind · (readFrom · .between cs)) (acceptAll_one reading _)
  unfold writeText
  rw [List.cons_append, List.cons_append, opens, List.append_assoc, readFrom_chars notAscii,
    List.singleton_append, closes, List.append_nil, List.reverse_reverse, String.ofList_toList]

/-! ## Numbers and names -/

/-- Whether a character belongs to a number or a name. -/
def isBareChar (c : Char) : Bool :=
  !isGap c && c != Text.doubleQuote && (punctuation? c).isNone

/-- A text that does not go on with a number or a name. -/
def EndsBare (cs : List Char) : Prop :=
  ∀ c, cs.head? = some c → isBareChar c = false

theorem readFrom_inBare {soFar chars : List Char} (bare : ∀ c ∈ chars, isBareChar c = true) :
    readFrom reading (.inBare soFar) (chars ++ cs) =
      readFrom reading (.inBare (chars.reverse ++ soFar)) cs := by
  induction chars generalizing soFar with
  | nil => rfl
  | cons c chars ih =>
      have isBare := bare c List.mem_cons_self
      simp only [isBareChar, Bool.and_eq_true, Bool.not_eq_true', bne_iff_ne, ne_eq,
        Option.isNone_iff_eq_none] at isBare
      have one : readFrom reading (.inBare soFar) (c :: (chars ++ cs)) =
          readFrom reading (.inBare (c :: soFar)) (chars ++ cs) := by
        rw [readFrom_cons, step]
        simp only [isBare.1.1, isBare.1.2, isBare.2]
        rfl
      rw [List.cons_append, one, ih fun other mem => bare other (List.mem_cons_of_mem _ mem),
        List.reverse_cons, List.append_assoc, List.singleton_append]

/-- A number or a name ends in front of anything else. -/
theorem readFrom_endsBare (soFar : List Char) (ends : EndsBare cs) :
    readFrom reading (.inBare soFar) cs =
      (accept reading (.bare soFar.reverse)).bind (readFrom · .between cs) := by
  cases cs with
  | nil =>
      change readTokens reading [_] = _
      rw [readTokens]
      cases accept reading (.bare soFar.reverse) <;> rfl
  | cons c cs =>
      -- the step is the one between tokens, and it finishes one token more
      have same : step (.inBare soFar) c =
          (stepBetween c).map fun next => (next.1, .bare soFar.reverse :: next.2.toList) := by
        have special := ends c rfl
        unfold step stepBetween
        dsimp only
        split
        · rfl
        · split
          · rfl
          · rename_i noGap noQuote
            cases mark : punctuation? c with
            | some token => rfl
            | none => simp [isBareChar, noGap, noQuote, mark] at special
      have between (reached : Reading) : readFrom reached .between (c :: cs) =
          ((stepBetween c).map fun next => (next.1, next.2.toList)).bind fun next =>
            (acceptAll reached next.2).bind fun reached => readFrom reached next.1 cs :=
        readFrom_cons reached .between c cs
      rw [readFrom_cons, same]
      simp only [between]
      cases stepBetween c with
      | none => cases accept reading (.bare soFar.reverse) <;> rfl
      | some next => exact Option.bind_assoc _ _ _

/-- A written number or name is a token. -/
theorem readFrom_bare {chars : List Char} (notNil : chars ≠ [])
    (bare : ∀ c ∈ chars, isBareChar c = true) (ends : EndsBare cs) :
    readFrom reading .between (chars ++ cs) =
      (accept reading (.bare chars)).bind (readFrom · .between cs) := by
  cases chars with
  | nil => exact absurd rfl notNil
  | cons c chars =>
      have isBare := bare c List.mem_cons_self
      simp only [isBareChar, Bool.and_eq_true, Bool.not_eq_true', bne_iff_ne, ne_eq,
        Option.isNone_iff_eq_none] at isBare
      have opens : readFrom reading .between (c :: (chars ++ cs)) =
          readFrom reading (.inBare [c]) (chars ++ cs) := by
        rw [readFrom_cons, step, stepBetween]
        simp only [isBare.1.1, isBare.1.2, isBare.2]
        rfl
      rw [List.cons_append, opens,
        readFrom_inBare fun other mem => bare other (List.mem_cons_of_mem _ mem),
        readFrom_endsBare _ ends, List.reverse_append, List.reverse_reverse]
      rfl

end Eaves.Json
