import Eaves.Prompt.Normal
import Eaves.Proofs.Number.Finite
import Eaves.Proofs.Prompt.Flags
import Eaves.Proofs.Text.Numeral
import Eaves.Proofs.Text.Search
import Mathlib.Data.List.TakeWhile

/-!
# How much a prompt leaves open

Bringing a text into normal form makes it longer by a fixed factor at most, and
splitting it makes no more pieces than it has characters, and one.  What is counted
while pieces are split again is their characters and one more for each piece, since a
separator that is cut out has room for the piece it makes.

So the clauses of a prompt are no more than its characters times a small number, and
so are its layers.  A clause leaves at most six flags, and two layers one.  Hence the
flags of any text that a machine can hold are numbered by far fewer digits than are
read.

All that can go wrong with a prompt is a number with more digits than are read.  A
prompt with no more characters than that is always read, whatever it says.
-/

namespace Eaves

namespace Text

/-! ## Single texts -/

theorem length_lowerAfter_le (passed text : List Char) :
    (lowerAfter passed text).length ≤ 2 * text.length := by
  induction text generalizing passed with
  | nil => exact Nat.le_refl 0
  | cons c rest ih =>
      have later := ih (c :: passed)
      rw [lowerAfter, List.length_append, List.length_cons]
      split
      · split
        all_goals
          rw [List.length_singleton]
          omega
      · split
        · have two : (['i', '\u0307'] : List Char).length = 2 := rfl
          omega
        · rw [List.length_singleton]
          omega

theorem length_trim_le (text : List Char) : (trim text).length ≤ text.length :=
  (isInfix_trim text).length_le

theorem length_collapseFrom_le (inRun : Bool) (text : List Char) :
    (collapseFrom inRun text).length ≤ text.length := by
  induction text generalizing inRun with
  | nil => exact Nat.le_refl 0
  | cons c rest ih =>
      have inside := ih true
      have outside := ih false
      rw [collapseFrom, List.length_cons]
      split
      · split
        · omega
        · rw [List.length_cons]
          omega
      · rw [List.length_cons]
        omega

/-! ## Pieces -/

/-- The characters of pieces, and one more for each of them. -/
def extent : List (List Char) → Nat
  | [] => 0
  | piece :: rest => piece.length + 1 + extent rest

@[simp]
theorem extent_cons (piece : List Char) (pieces : List (List Char)) :
    extent (piece :: pieces) = piece.length + 1 + extent pieces := rfl

@[simp]
theorem extent_append (front back : List (List Char)) :
    extent (front ++ back) = extent front + extent back := by
  induction front with
  | nil => rw [List.nil_append, extent, Nat.zero_add]
  | cons piece rest ih =>
      rw [List.cons_append, extent_cons, extent_cons, ih]
      omega

theorem length_le_extent (pieces : List (List Char)) : pieces.length ≤ extent pieces := by
  induction pieces with
  | nil => exact Nat.le_refl 0
  | cons piece rest ih =>
      rw [extent_cons, List.length_cons]
      omega

theorem length_lt_extent_of_mem {pieces : List (List Char)} {piece : List Char}
    (mem : piece ∈ pieces) : piece.length < extent pieces := by
  induction pieces with
  | nil => cases mem
  | cons first rest ih =>
      rw [extent_cons]
      rcases List.mem_cons.mp mem with rfl | later
      · omega
      · exact Nat.lt_of_lt_of_le (ih later) (Nat.le_add_left _ _)

theorem extent_splitFrom_le (separator pending : List Char) (skip : Nat) (text : List Char) :
    extent (splitFrom separator pending skip text) ≤ pending.length + 1 + text.length := by
  induction text generalizing pending skip with
  | nil =>
      cases skip with
      | zero => simp [splitFrom, extent]
      | succ skip => simp [splitFrom, extent]
  | cons c rest ih =>
      rw [List.length_cons]
      cases skip with
      | succ skip =>
          have passed := ih pending skip
          rw [splitFrom]
          omega
      | zero =>
          rw [splitFrom]
          split
          · have behind := ih [] (separator.length - 1)
            rw [extent_cons, List.length_reverse]
            rw [List.length_nil] at behind
            omega
          · have longer := ih (c :: pending) 0
            rw [List.length_cons] at longer
            omega

theorem extent_splitOn_le (separator text : List Char) :
    extent (splitOn separator text) ≤ text.length + 1 := by
  have bound := extent_splitFrom_le separator [] 0 text
  rw [List.length_nil] at bound
  rw [splitOn]
  omega

/-- Pieces that are joined by a text come to that text once for each piece, at most. -/
theorem length_intercalate_le (joint : List Char) (pieces : List (List Char)) :
    (joint.intercalate pieces).length ≤ (joint.length + 1) * extent pieces := by
  induction pieces with
  | nil => simp [List.intercalate]
  | cons piece rest ih =>
      have room : piece.length + joint.length ≤ (joint.length + 1) * (piece.length + 1) := by
        have times : joint.length ≤ joint.length * (piece.length + 1) :=
          Nat.le_mul_of_pos_right _ (Nat.succ_pos _)
        rw [Nat.add_one_mul]
        omega
      rw [extent_cons, Nat.mul_add]
      cases rest with
      | nil =>
          rw [List.intercalate_singleton]
          omega
      | cons next others =>
          rw [List.intercalate_cons_cons, List.length_append, List.length_append]
          omega

theorem length_replace_le (needle replacement text : List Char) :
    (replace needle replacement text).length ≤ (replacement.length + 1) * (text.length + 1) := by
  rw [replace]
  apply Nat.le_trans (length_intercalate_le _ _)
  exact Nat.mul_le_mul_left _ (extent_splitOn_le needle text)

end Text

open Outcome Text

namespace Prompt

/-! ## Clauses -/

theorem length_without_le (unwanted : Char) (text : List Char) :
    (without unwanted text).length ≤ text.length :=
  List.length_filter_le _ _

/-- The normal form of a text is at most twelve times as long. -/
theorem length_normalize_le (text : List Char) :
    (normalize text).length ≤ 6 * (2 * text.length + 1) := by
  let spaced := collapse (trim (lower text))
  have spacedShort : spaced.length ≤ 2 * text.length :=
    calc spaced.length
        ≤ (trim (lower text)).length := length_collapseFrom_le _ _
      _ ≤ (lower text).length := length_trim_le _
      _ ≤ 2 * text.length := length_lowerAfter_le _ _
  calc (normalize text).length
      ≤ (without doubleQuote (without apostrophe
          (replace "colour".toList "color".toList spaced))).length := length_trim_le _
    _ ≤ (without apostrophe (replace "colour".toList "color".toList spaced)).length :=
        length_without_le _ _
    _ ≤ (replace "colour".toList "color".toList spaced).length := length_without_le _ _
    _ ≤ 6 * (spaced.length + 1) := length_replace_le _ _ _
    _ ≤ 6 * (2 * text.length + 1) := by omega

theorem extent_splitPieces_le (pieces : List (List Char)) (separator : String) :
    extent (splitPieces pieces separator) ≤ extent pieces := by
  induction pieces with
  | nil => exact Nat.le_refl 0
  | cons piece rest ih =>
      have first := extent_splitOn_le separator.toList piece
      rw [splitPieces, List.flatMap_cons, extent_append, extent_cons]
      rw [splitPieces] at ih
      omega

theorem extent_pieces_le (text : List Char) : extent (pieces text) ≤ text.length + 1 := by
  have each : ∀ (names : List String) (start : List (List Char)),
      extent (names.foldl splitPieces start) ≤ extent start := by
    intro names
    induction names with
    | nil => exact fun start => Nat.le_refl _
    | cons name rest ih =>
        intro start
        rw [List.foldl_cons]
        exact (ih _).trans (extent_splitPieces_le start name)
  have bound := each separators [text]
  rw [extent_cons] at bound
  exact bound

theorem length_clauses_le (text : List Char) : (clauses text).length ≤ text.length + 1 := by
  rw [clauses]
  apply (List.length_filter_le _ _).trans
  rw [List.length_map]
  exact (length_le_extent _).trans (extent_pieces_le text)

/-! ## Flags -/

theorem length_zone_le (origin : Origin) (roofline : Option Roofline)
    (settings : ParserSettings) : (zone origin roofline settings).2.length ≤ 1 := by
  unfold zone
  generalize placeText origin.clause = text
  dsimp only
  split
  · unfold featureFlags
    split
    · dsimp only
      split <;> simp
    · simp
  · split
    · simp
    · split <;> simp

theorem length_coloring_le (origin : Origin) : (coloring origin).2.length ≤ 4 := by
  rw [coloring, List.length_map, vagueMentions]
  exact List.length_filterMap_le _ _

theorem length_motion_le (origin : Origin) : (motion origin).2.length ≤ 1 := by
  unfold motion
  split
  · dsimp only
    split <;> simp
  · dsimp only
    split <;> simp

theorem length_flags_le {clause : List Char} {index : Int} {roofline : Option Roofline}
    {settings : ParserSettings} {understood : Understanding}
    (read : understand clause index roofline settings = .ok understood) :
    understood.flags.length ≤ 6 := by
  unfold understand at read
  dsimp only at read
  have ofZone := length_zone_le ⟨clause, layerId index⟩ roofline settings
  have ofColor := length_coloring_le ⟨clause, layerId index⟩
  have ofMotion := length_motion_le ⟨clause, layerId index⟩
  generalize zone _ roofline settings = place at ofZone read
  generalize coloring _ = colors at ofColor read
  generalize motion _ = movement at ofMotion read
  rcases bind_eq_ok_iff.mp read with ⟨rule, -, shape⟩
  rw [pure_eq_ok_iff] at shape
  subst shape
  dsimp only
  rw [List.length_append, List.length_append]
  omega

end Prompt

theorem length_conflictsOf_le (i : Nat) (first : Layer) (start : Nat) (layers : List Layer) :
    (conflictsOf i first start layers).length ≤ layers.length := by
  induction layers generalizing start with
  | nil => exact Nat.le_refl 0
  | cons second rest ih =>
      have later := ih (start + 1)
      rw [conflictsOf, List.length_cons]
      split
      · rw [List.length_cons]
        omega
      · omega

theorem length_conflictsFrom_le (start : Nat) (layers : List Layer) :
    (conflictsFrom start layers).length ≤ layers.length * layers.length := by
  induction layers generalizing start with
  | nil => exact Nat.le_refl 0
  | cons first rest ih =>
      have own := length_conflictsOf_le start first (start + 1) rest
      have later := ih (start + 1)
      rw [conflictsFrom, List.length_append, List.length_cons, Nat.add_one_mul_add_one]
      omega

namespace Prompt

/-- The layers and the flags of clauses, against the count of the clauses. -/
theorem length_understood {roofline : Option Roofline} {settings : ParserSettings}
    {start : Nat} {clauses : List (List Char)} {understood : List Understanding}
    (read : understandFrom roofline settings start clauses = .ok understood) :
    understood.length = clauses.length ∧
      (understood.flatMap Understanding.flags ++
        conflicts (understood.map Understanding.layer)).length ≤
          clauses.length * (clauses.length + 6) := by
  have related := understandFrom_eq_ok read
  have sameLength : understood.length = clauses.length := by
    rw [← related.length_eq, List.length_zipIdx]
  constructor
  · exact sameLength
  · have each : ∀ result ∈ understood, result.flags.length ≤ 6 := by
      intro result mem
      rcases exists_partner related.flip mem with ⟨clause, -, readOne⟩
      exact length_flags_le readOne
    have ofClauses : (understood.flatMap Understanding.flags).length ≤ understood.length * 6 := by
      rw [List.length_flatMap]
      refine (List.sum_le_card_nsmul _ 6 fun n mem => ?_).trans ?_
      · rcases List.mem_map.mp mem with ⟨result, resultMem, rfl⟩
        exact each result resultMem
      · rw [List.length_map]
        exact Nat.le_refl _
    have ofPairs := length_conflictsFrom_le 0 (understood.map Understanding.layer)
    rw [List.length_map] at ofPairs
    rw [List.length_append, ← sameLength, Nat.mul_add, conflicts]
    omega

/-- The layers and the flags of a parsed prompt, against the length of its text. -/
theorem length_parse_le {text : String} {roofline : Option Roofline} {settings : ParserSettings}
    {intent : Intent} (parsed : parse text roofline settings = .ok intent) :
    intent.layers.length ≤ 12 * text.length + 7 ∧
      intent.ambiguities.length ≤ intent.layers.length * (intent.layers.length + 6) := by
  rcases bind_eq_ok_iff.mp parsed with ⟨understood, read, rest⟩
  rcases bind_eq_ok_iff.mp rest with ⟨confidence, -, shape⟩
  rw [pure_eq_ok_iff] at shape
  subst shape
  rcases length_understood read with ⟨layers, flags⟩
  dsimp only
  rw [List.length_map, layers]
  constructor
  · have bound := length_clauses_le (normalize text.toList)
    have short := length_normalize_le text.toList
    rw [String.length_toList] at short
    omega
  · exact flags

end Prompt

end Eaves

namespace Eaves.Prompt

open Outcome
open Number (Binary64)

/-! ## Scanning -/

/-- A nonempty run of digits, not longer than a text. -/
structure IsNumeralIn (text digits : List Char) : Prop where
  nonempty : digits ≠ []
  decimal : ∀ c ∈ digits, Text.isDecimal c = true
  short : digits.length ≤ text.length

theorem IsNumeralIn.mono {text longer digits : List Char} (inside : text <:+ longer)
    (numeral : IsNumeralIn text digits) : IsNumeralIn longer digits :=
  ⟨numeral.nonempty, numeral.decimal, numeral.short.trans inside.length_le⟩

theorem trimLeft_suffix (text : List Char) : Text.trimLeft text <:+ text :=
  List.dropWhile_suffix _

theorem afterWord?_suffix {word : String} {text rest : List Char}
    (found : afterWord? word text = some rest) : rest <:+ text := by
  unfold afterWord? at found
  split at found
  · cases found
    exact List.drop_suffix _ _
  · cases found

/-- A run of digits, and what stands behind it. -/
theorem digits?_spec {text run rest : List Char} (found : digits? text = some (run, rest)) :
    IsNumeralIn text run ∧ rest <:+ text := by
  unfold digits? at found
  dsimp only at found
  split at found
  · cases found
  · rename_i some
    cases found
    refine ⟨⟨by simpa using some, ?_, ?_⟩, List.dropWhile_suffix _⟩
    · exact fun c mem => List.mem_takeWhile_imp mem
    · exact (List.takeWhile_prefix _).length_le

/-- What a search finds, a scan finds at some place of the text. -/
theorem exists_suffix_of_search {α : Type} {scan : List Char → Option α} {text : List Char}
    {found : α} (isFound : search scan text = some found) :
    ∃ place, place <:+ text ∧ scan place = some found := by
  induction text with
  | nil => exact ⟨[], List.suffix_refl _, isFound⟩
  | cons c rest ih =>
      unfold search at isFound
      split at isFound
      · rename_i here
        cases isFound
        exact ⟨c :: rest, List.suffix_refl _, here⟩
      · rcases ih isFound with ⟨place, inside, later⟩
        exact ⟨place, inside.trans (List.suffix_cons c rest), later⟩

theorem isNumeralIn_of_interval? {text interval : List Char}
    (found : interval? text = some interval) : IsNumeralIn text interval := by
  rcases Option.bind_eq_some_iff.mp found with ⟨rest, isRest, more⟩
  rcases Option.bind_eq_some_iff.mp more with ⟨⟨run, behind⟩, isRun, shape⟩
  cases shape
  exact (digits?_spec isRun).1.mono ((trimLeft_suffix rest).trans (afterWord?_suffix isRest))

theorem isNumeralIn_of_spacedCount? {text count : List Char}
    (found : spacedCount? text = some count) : IsNumeralIn text count := by
  rcases Option.bind_eq_some_iff.mp found with ⟨⟨run, behind⟩, isRun, more⟩
  rcases Option.bind_eq_some_iff.mp more with ⟨-, -, shape⟩
  cases shape
  exact (digits?_spec isRun).1

/-- Both counts of a cycle are numerals of the text, whatever is passed over between the halves. -/
theorem isNumeralIn_of_onOffBy? {skip : List Char → List Char} (skips : ∀ rest, skip rest <:+ rest)
    {text on off : List Char} (found : onOffBy? skip text = some (on, off)) :
    IsNumeralIn text on ∧ IsNumeralIn text off := by
  rcases Option.bind_eq_some_iff.mp found with ⟨⟨first, rest⟩, isFirst, more⟩
  rcases Option.bind_eq_some_iff.mp more with ⟨behind, isBehind, more⟩
  rcases Option.bind_eq_some_iff.mp more with ⟨⟨second, last⟩, isSecond, more⟩
  rcases Option.bind_eq_some_iff.mp more with ⟨-, -, shape⟩
  cases shape
  rcases digits?_spec isFirst with ⟨firstNumeral, restInside⟩
  refine ⟨firstNumeral, (digits?_spec isSecond).1.mono ?_⟩
  exact (skips behind).trans ((afterWord?_suffix isBehind).trans
    ((trimLeft_suffix rest).trans restInside))

theorem skipComma_suffix (text : List Char) : skipComma text <:+ text := by
  unfold skipComma
  split
  · exact (trimLeft_suffix _).trans (List.suffix_cons _ _)
  · exact trimLeft_suffix text

/-! ## Spacing -/

section Spacing

variable {clause : List Char}

theorem count_succeeds (short : clause.length ≤ Text.digitLimit) {digits : List Char}
    (numeral : IsNumeralIn clause digits) : ∃ n, count digits = .ok n := by
  have read := Text.decimalNumeral_of_isDecimal numeral.decimal numeral.nonempty
    (numeral.short.trans short)
  rw [count, read]
  exact ⟨_, rfl⟩

theorem spelledSpacing_succeeds (short : clause.length ≤ Text.digitLimit) :
    ∃ rule, spelledSpacing clause = .ok rule := by
  unfold spelledSpacing
  split
  · rename_i interval isFound
    rcases exists_suffix_of_search isFound with ⟨place, inside, scanned⟩
    rcases count_succeeds short ((isNumeralIn_of_interval? scanned).mono inside) with ⟨n, counted⟩
    exact ⟨_, map_eq_ok_iff.mpr ⟨n, counted, rfl⟩⟩
  · split
    · rename_i on off isFound
      rcases exists_suffix_of_search isFound with ⟨place, inside, scanned⟩
      rcases isNumeralIn_of_onOffBy? trimLeft_suffix scanned with ⟨onNumeral, offNumeral⟩
      rcases count_succeeds short (onNumeral.mono inside) with ⟨lit, isLit⟩
      rcases count_succeeds short (offNumeral.mono inside) with ⟨dark, isDark⟩
      rw [isLit, ok_bind, isDark, ok_bind]
      exact ⟨_, rfl⟩
    · split
      · rename_i lights isFound
        rcases exists_suffix_of_search isFound with ⟨place, inside, scanned⟩
        obtain ⟨n, counted⟩ :=
          count_succeeds short ((isNumeralIn_of_spacedCount? scanned).mono inside)
        exact ⟨_, map_eq_ok_iff.mpr ⟨n, counted, rfl⟩⟩
      · exact ⟨none, rfl⟩

theorem spacing_succeeds (short : clause.length ≤ Text.digitLimit) (usual : Int) :
    ∃ rule, spacing clause usual = .ok rule := by
  unfold spacing
  split
  · exact ⟨_, rfl⟩
  · split
    · rename_i lights isFound
      rcases exists_suffix_of_search isFound with ⟨place, inside, scanned⟩
      obtain ⟨n, counted⟩ :=
        count_succeeds short ((isNumeralIn_of_spacedCount? scanned).mono inside)
      exact ⟨_, map_eq_ok_iff.mpr ⟨n, counted, rfl⟩⟩
    · exact ⟨_, rfl⟩
  · exact spelledSpacing_succeeds short

end Spacing

/-! ## Clauses -/

theorem understand_succeeds {clause : List Char} (short : clause.length ≤ Text.digitLimit)
    (index : Int) (roofline : Option Roofline) (settings : ParserSettings) :
    ∃ understood, understand clause index roofline settings = .ok understood := by
  rcases spacing_succeeds short settings.defaultCount.val with ⟨rule, isRule⟩
  exact ⟨_, bind_eq_ok_iff.mpr ⟨rule, isRule, rfl⟩⟩

theorem understandFrom_succeeds (roofline : Option Roofline) (settings : ParserSettings)
    {clauses : List (List Char)} (short : ∀ clause ∈ clauses, clause.length ≤ Text.digitLimit)
    (start : Nat) :
    ∃ understood, understandFrom roofline settings start clauses = .ok understood := by
  induction clauses generalizing start with
  | nil => exact ⟨[], rfl⟩
  | cons clause rest ih =>
      obtain ⟨first, firstRead⟩ :=
        understand_succeeds (short clause List.mem_cons_self) start roofline settings
      obtain ⟨others, othersRead⟩ :=
        ih (fun other mem => short other (List.mem_cons_of_mem _ mem)) (start + 1)
      rw [understandFrom, firstRead, ok_bind, othersRead]
      exact ⟨_, rfl⟩

/-- A clause is no longer than the text it is cut from. -/
theorem length_le_of_mem_clauses {text clause : List Char} (mem : clause ∈ clauses text) :
    clause.length ≤ text.length := by
  rcases List.mem_filter.mp mem with ⟨trimmed, -⟩
  rcases List.mem_map.mp trimmed with ⟨piece, pieceMem, rfl⟩
  have room := Text.length_lt_extent_of_mem pieceMem
  have bound := extent_pieces_le text
  have shorter := Text.length_trim_le piece
  omega

/-! ## Confidence -/

theorem penalty_succeeds (each : Binary64) {times : Nat} (small : times ≤ 2 ^ 250) :
    ∃ total, penalty each times = .ok total := by
  have bound : |(times : Int)| ≤ 2 ^ 250 := by
    rw [Nat.abs_cast]
    exact_mod_cast small
  exact ⟨_, map_eq_ok_iff.mpr ⟨_, by rw [Binary64.ofInt_eq bound]; rfl, rfl⟩⟩

theorem confidence_succeeds (settings : ParserSettings) {layers : List Layer}
    {flags : List Ambiguity} (fewLayers : layers.length ≤ 2 ^ 250)
    (fewFlags : flags.length ≤ 2 ^ 250) :
    ∃ score, confidence (tally layers flags) settings = .ok score := by
  rcases penalty_succeeds settings.ambiguityPenalty fewFlags with ⟨forFlags, isForFlags⟩
  obtain ⟨forWhole, isForWhole⟩ :=
    penalty_succeeds settings.allZonePenalty (List.countP_le_length.trans fewLayers)
  obtain ⟨forWhite, isForWhite⟩ :=
    penalty_succeeds settings.whitePenalty (List.countP_le_length.trans fewLayers)
  unfold confidence
  split
  · exact ⟨_, rfl⟩
  · dsimp only [tally]
    rw [isForFlags, ok_bind, isForWhole, ok_bind, isForWhite, ok_bind]
    exact ⟨_, rfl⟩

/-! ## Prompts -/

/-- A prompt whose normal form is no longer than the digits that are read of a number is
read. -/
theorem parse_succeeds {text : String} (roofline : Option Roofline) (settings : ParserSettings)
    (short : (normalize text.toList).length ≤ Text.digitLimit) :
    ∃ intent, parse text roofline settings = .ok intent := by
  have clausesShort : ∀ clause ∈ clauses (normalize text.toList),
      clause.length ≤ Text.digitLimit :=
    fun clause mem => (length_le_of_mem_clauses mem).trans short
  rcases understandFrom_succeeds roofline settings clausesShort 0 with ⟨understood, read⟩
  rcases length_understood read with ⟨layers, flags⟩
  have fewClauses := (length_clauses_le (normalize text.toList)).trans (Nat.succ_le_succ short)
  have fewFlags := flags.trans (Nat.mul_le_mul fewClauses (Nat.add_le_add_right fewClauses 6))
  have fewLayers : (understood.map Understanding.layer).length ≤ 2 ^ 250 := by
    rw [List.length_map, layers]
    exact fewClauses.trans (by decide)
  obtain ⟨score, scored⟩ :=
    confidence_succeeds settings fewLayers (fewFlags.trans (by decide))
  rw [parse, read, ok_bind]
  dsimp only
  rw [scored]
  exact ⟨_, rfl⟩

end Eaves.Prompt
