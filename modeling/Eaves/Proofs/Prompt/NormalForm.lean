import Eaves.Prompt.Normal
import Eaves.Proofs.Text.Lowercase
import Eaves.Proofs.Text.Words

/-!
# The normal form of prompts

A text in normal form has no quotes and no blanks at its ends, no blank follows a blank,
and colour is spelled in one way.  The words of a text are spelled one by one, and
quotes are dropped from the words last, when blanks have been collapsed and the spelling
has been replaced.  So two things may be left over: a spelling that quotes kept apart,
and the two spaces around a word of quotes alone.  Nothing else is, and as the result
has no quotes, normalizing it once more leaves a normal form.
-/

namespace Eaves.Prompt

open Text

/-- One of the two quotes. -/
def isQuote (c : Char) : Bool :=
  c == doubleQuote || c == apostrophe

/-- A text without its quotes. -/
def unquoted (cs : List Char) : List Char :=
  without doubleQuote (without apostrophe cs)

/-- A text with one spelling of colour, without its quotes. -/
def spell (cs : List Char) : List Char :=
  unquoted (replace "colour".toList "color".toList cs)

/-- A text in normal form. -/
structure IsNormal (text : List Char) : Prop where
  quoteless : ∀ c ∈ text, isQuote c = false
  spelled : ¬"colour".toList <:+: text
  spaced : ¬HasRun text
  trimmed : trim text = text

/-- The spelling that is replaced, with quotes between its letters. -/
structure IsBroken (piece : List Char) : Prop where
  spells : unquoted piece = "colour".toList
  starts : piece.head? = some 'c'
  ends : piece.getLast? = some 'r'
  broken : ∃ c ∈ piece, isQuote c = true

/-- Between two words that are more than quotes stands one that is not. -/
def QuotesApart (ws : List (List Char)) : Prop :=
  ∃ left quotes right, ws = left ++ quotes :: right ∧ unquoted quotes = [] ∧
    (∃ word ∈ left, unquoted word ≠ []) ∧ ∃ word ∈ right, unquoted word ≠ []

variable {text word piece : List Char} {c : Char}

/-! ## Quotes -/

theorem unquoted_eq (cs : List Char) : unquoted cs = cs.filter fun c => !isQuote c := by
  simp only [unquoted, without, List.filter_filter, isQuote, Bool.not_or, bne]

theorem mem_unquoted_iff : c ∈ unquoted text ↔ c ∈ text ∧ isQuote c = false := by
  rw [unquoted_eq, List.mem_filter, Bool.not_eq_true']

theorem unquoted_eq_self (none : ∀ c ∈ text, isQuote c = false) : unquoted text = text := by
  rw [unquoted_eq, List.filter_eq_self]
  simpa using none

theorem unquoted_append (before after : List Char) :
    unquoted (before ++ after) = unquoted before ++ unquoted after := by
  simp only [unquoted_eq, List.filter_append]

/-- What starts a text still starts it without quotes. -/
theorem unquoted_starts {start : List Char} (starts : start <+: text) :
    unquoted start <+: unquoted text := by
  simp only [unquoted_eq]
  exact starts.filter _

theorem unquoted_eq_nil_iff : unquoted text = [] ↔ ¬∃ c ∈ text, isQuote c = false := by
  rw [unquoted_eq, List.filter_eq_nil_iff]
  simp

/-! ## Spelling -/

theorem isSolid_colour : IsSolid "colour".toList := by
  simp [IsSolid, isBlank]

theorem isSolid_color : IsSolid "color".toList := by
  simp [IsSolid, isBlank]

theorem isQuote_of_mem_colour (mem : c ∈ "colour".toList) : isQuote c = false := by
  have letters : ("colour".toList.all fun d => !isQuote d) = true := rfl
  simpa using List.all_eq_true.mp letters c mem

theorem isSmall_of_mem_color (mem : c ∈ "color".toList) : IsSmall c := by
  have letters : ("color".toList.all fun d => decide (IsSmall d)) = true := by decide +kernel
  simpa using List.all_eq_true.mp letters c mem

theorem spell_append (before after : List Char) :
    spell (before ++ ' ' :: after) = spell before ++ ' ' :: spell after := by
  rw [spell, replace_append_cons (by decide) (by decide), unquoted_append]
  rfl

theorem isSolid_spell (solid : IsSolid word) : IsSolid (spell word) := by
  intro c mem
  rcases mem_of_mem_replace (by decide) (mem_unquoted_iff.mp mem).1 with old | new
  · exact solid c old
  · exact isSolid_color c new

/-- A word disappears where it is made of quotes. -/
theorem spell_eq_nil_iff : spell word = [] ↔ unquoted word = [] := by
  have some : "colour".toList ≠ [] := by decide
  have visible : (∃ c ∈ replace "colour".toList "color".toList word, isQuote c = false) ↔
      ∃ c ∈ word, isQuote c = false := by
    induction word using occurrence_induction some with
    | nil => simp
    | occurs rest ih =>
        rw [replace_append some]
        exact ⟨fun _ => ⟨'c', by simp, by decide⟩, fun _ => ⟨'c', by simp, by decide⟩⟩
    | passes d ds notHere ih =>
        rw [replace_cons notHere]
        simp only [List.mem_cons, exists_eq_or_imp]
        exact or_congr_right ih
  rw [spell, unquoted_eq_nil_iff, unquoted_eq_nil_iff, visible]

theorem not_starts_replacement (spells : unquoted piece = "colour".toList) (behind : List Char) :
    ¬piece <+: "color".toList ++ behind := by
  intro starts
  rcases List.prefix_or_prefix_of_prefix starts (List.prefix_append _ behind) with inside | longer
  · have kept := (unquoted_starts inside).length_le
    rw [spells] at kept
    exact absurd kept (by decide)
  · have kept := unquoted_starts longer
    rw [spells] at kept
    exact absurd kept (by decide)

/-- A piece that spells the replaced word begins with its only letter c. -/
theorem exists_cons_of_spells (spells : unquoted piece = "colour".toList)
    (starts : piece.head? = some 'c') : ∃ rest, piece = 'c' :: rest ∧ 'c' ∉ rest := by
  obtain ⟨rest, rfl⟩ := List.head?_eq_some_iff.mp starts
  refine ⟨rest, rfl, fun mem => ?_⟩
  have kept : unquoted rest = "olour".toList := by
    rw [← List.singleton_append, unquoted_append] at spells
    exact (List.cons_eq_cons.mp spells).2
  have inside := mem_unquoted_iff.mpr ⟨mem, by decide⟩
  rw [kept] at inside
  exact absurd inside (by decide)

/-- Replacing leaves a piece where the replaced word does not start with it. -/
theorem infix_spelled_iff (spells : unquoted piece = "colour".toList)
    (starts : piece.head? = some 'c') (text : List Char) :
    piece <:+: replace "colour".toList "color".toList text ↔
      ∃ place, place <:+ text ∧ piece <+: place ∧ ¬"colour".toList <+: place := by
  obtain ⟨rest, rfl, single⟩ := exists_cons_of_spells spells starts
  exact infix_replace_iff (by decide) (by decide) single (not_starts_replacement spells) text

/-- Nothing is left of the replaced word as it stands. -/
theorem not_infix_spelled (text : List Char) :
    ¬"colour".toList <:+: replace "colour".toList "color".toList text := by
  rw [infix_spelled_iff (by decide) (by decide)]
  rintro ⟨place, -, starts, notHere⟩
  exact notHere starts

namespace IsBroken

theorem not_starts (isBroken : IsBroken piece) {place : List Char} (starts : piece <+: place) :
    ¬"colour".toList <+: place := by
  intro here
  obtain ⟨c, mem, quote⟩ := isBroken.broken
  rcases List.prefix_or_prefix_of_prefix starts here with inside | ⟨more, rfl⟩
  · have plain := isQuote_of_mem_colour (inside.subset mem)
    simp [quote] at plain
  · have spells := isBroken.spells
    rw [unquoted_append] at spells
    have allQuotes : unquoted more = [] := List.append_right_eq_self.mp spells
    rcases List.eq_nil_or_concat more with rfl | ⟨init, d, rfl⟩
    · rw [List.append_nil] at mem
      have plain := isQuote_of_mem_colour mem
      simp [quote] at plain
    · have isLast := isBroken.ends
      rw [List.concat_eq_append, ← List.append_assoc, List.getLast?_concat,
        Option.some_inj] at isLast
      exact unquoted_eq_nil_iff.mp allQuotes ⟨d, by simp, isLast ▸ by decide⟩

/-- Replacing leaves a broken spelling as it is. -/
theorem infix_replace_iff (isBroken : IsBroken piece) (text : List Char) :
    piece <:+: replace "colour".toList "color".toList text ↔ piece <:+: text := by
  rw [infix_spelled_iff isBroken.spells isBroken.starts, List.infix_iff_prefix_suffix]
  constructor
  · rintro ⟨place, inside, starts, -⟩
    exact ⟨place, starts, inside⟩
  · rintro ⟨place, starts, inside⟩
    exact ⟨place, inside, starts, isBroken.not_starts starts⟩

theorem ne_nil (isBroken : IsBroken piece) : piece ≠ [] := by
  rintro rfl
  cases isBroken.starts

theorem isSolid (isBroken : IsBroken piece) : IsSolid piece := by
  intro c mem
  cases quote : isQuote c with
  | true =>
      simp only [isQuote, Bool.or_eq_true, beq_iff_eq] at quote
      rcases quote with rfl | rfl <;> decide
  | false =>
      have kept := mem_unquoted_iff.mpr ⟨mem, quote⟩
      rw [isBroken.spells] at kept
      exact isSolid_colour c kept

end IsBroken

/-- Quotes at the ends of a piece can be left away. -/
theorem exists_tight (spells : unquoted piece = "colour".toList) : ∃ tight, tight <:+: piece ∧
    unquoted tight = "colour".toList ∧ tight.head? = some 'c' ∧ tight.getLast? = some 'r' := by
  have letters : unquoted piece = 'c' :: ("olou".toList ++ ['r']) := spells
  rw [unquoted_eq] at letters
  obtain ⟨before, behind, rfl, quotesBefore, -, isBehind⟩ := List.filter_eq_cons_iff.mp letters
  obtain ⟨middle, final, rfl, isMiddle, isFinal⟩ := List.filter_eq_append_iff.mp isBehind
  obtain ⟨gap, after, rfl, quotesGap, -, quotesAfter⟩ := List.filter_eq_cons_iff.mp isFinal
  refine ⟨'c' :: (middle ++ gap) ++ ['r'], ⟨before, after, by simp⟩, ?_, rfl,
    List.getLast?_concat⟩
  rw [unquoted_eq, List.filter_append, List.filter_cons_of_pos (by decide), List.filter_append,
    isMiddle, List.filter_eq_nil_iff.mpr quotesGap]
  rfl

/-- The spelled word holds the replaced spelling where the word holds it with quotes inside. -/
theorem colour_infix_spell_iff :
    "colour".toList <:+: spell word ↔ ∃ piece, IsBroken piece ∧ piece <:+: word := by
  rw [spell, unquoted_eq, List.infix_filter_iff]
  constructor
  · rintro ⟨piece, inside, spells⟩
    rw [← unquoted_eq] at spells
    obtain ⟨tight, isTight, spellsTight, starts, ends⟩ := exists_tight spells.symm
    have inWord := isTight.trans inside
    have broken : ∃ c ∈ tight, isQuote c = true := by
      by_contra whole
      have plain : unquoted tight = tight := unquoted_eq_self (by simpa using whole)
      rw [← plain, spellsTight] at inWord
      exact not_infix_spelled word inWord
    have isBroken : IsBroken tight := ⟨spellsTight, starts, ends, broken⟩
    exact ⟨tight, isBroken, (isBroken.infix_replace_iff word).mp inWord⟩
  · rintro ⟨piece, isBroken, inside⟩
    refine ⟨piece, (isBroken.infix_replace_iff word).mpr inside, ?_⟩
    rw [← unquoted_eq, isBroken.spells]

/-! ## The normalized text -/

/-- The words of a text are spelled one by one, and single spaces are put between them. -/
theorem normalize_eq (text : List Char) :
    normalize text = trim (sentence ((words (lower text)).map spell)) := by
  have spelled := map_sentence (f := spell) rfl spell_append (words (lower text))
  rw [← spelled, ← collapse_trim]
  rfl

theorem isSolid_of_mem_spelled (mem : word ∈ (words text).map spell) : IsSolid word := by
  obtain ⟨old, known, rfl⟩ := List.mem_map.mp mem
  exact isSolid_spell (isSolid_of_mem_words known)

theorem isQuote_of_mem_normalize (mem : c ∈ normalize text) : isQuote c = false := by
  have kept : c ∈ unquoted (replace "colour".toList "color".toList
      (collapse (trim (lower text)))) := (isInfix_trim _).subset mem
  exact (mem_unquoted_iff.mp kept).2

/-- A character of a normalized text is a space, or a small one that is no blank. -/
theorem of_mem_normalize (mem : c ∈ normalize text) :
    c = ' ' ∨ isBlank c = false ∧ IsSmall c := by
  rw [normalize_eq] at mem
  rcases mem_sentence ((isInfix_trim _).subset mem) with isSpace | ⟨word, known, inside⟩
  · exact .inl isSpace
  · refine .inr ⟨isSolid_of_mem_spelled known c inside, ?_⟩
    obtain ⟨old, knownOld, rfl⟩ := List.mem_map.mp known
    rcases mem_of_mem_replace (by decide) (mem_unquoted_iff.mp inside).1 with isOld | isNew
    · exact isSmall_of_mem_lower (mem_of_mem_words knownOld isOld)
    · exact isSmall_of_mem_color isNew

theorem isSmall_of_written (written : c = ' ' ∨ isBlank c = false ∧ IsSmall c) : IsSmall c := by
  rcases written with rfl | ⟨-, small⟩
  · decide +kernel
  · exact small

theorem lower_normalize (text : List Char) : lower (normalize text) = normalize text :=
  lower_eq_self fun _ mem => isSmall_of_written (of_mem_normalize mem)

/-- The replaced spelling is left over where quotes kept its letters apart. -/
theorem colour_infix_normalize_iff : "colour".toList <:+: normalize text ↔
    ∃ piece, IsBroken piece ∧ piece <:+: lower text := by
  rw [infix_iff_exists_words isSolid_colour (by decide), normalize_eq, words_trim,
    words_sentence fun word mem => isSolid_of_mem_spelled mem]
  constructor
  · rintro ⟨whole, mem, inside⟩
    obtain ⟨word, known, rfl⟩ := List.mem_map.mp (List.mem_filter.mp mem).1
    obtain ⟨piece, isBroken, inWord⟩ := colour_infix_spell_iff.mp inside
    exact ⟨piece, isBroken, (infix_iff_exists_words isBroken.isSolid isBroken.ne_nil).mpr
      ⟨word, known, inWord⟩⟩
  · rintro ⟨piece, isBroken, inText⟩
    obtain ⟨word, known, inWord⟩ :=
      (infix_iff_exists_words isBroken.isSolid isBroken.ne_nil).mp inText
    have inside := colour_infix_spell_iff.mpr ⟨piece, isBroken, inWord⟩
    refine ⟨spell word, List.mem_filter.mpr ⟨List.mem_map_of_mem known, ?_⟩, inside⟩
    cases isSpelled : spell word with
    | nil =>
        rw [isSpelled] at inside
        exact absurd (List.infix_nil.mp inside) (by decide)
    | cons c cs => rfl

/-- A space follows a space where a word of quotes stood between others. -/
theorem hasRun_normalize_iff : HasRun (normalize text) ↔ QuotesApart (words (lower text)) := by
  rw [normalize_eq, hasRun_trim_sentence_iff fun word mem => isSolid_of_mem_spelled mem]
  have kept (ws : List (List Char)) :
      (∃ word ∈ ws.map spell, word ≠ []) ↔ ∃ word ∈ ws, unquoted word ≠ [] := by
    simp only [List.mem_map, exists_exists_and_eq_and, ne_eq, spell_eq_nil_iff]
  constructor
  · rintro ⟨left, right, whole, someLeft, someRight⟩
    obtain ⟨before, rest, isWhole, rfl, isRest⟩ := List.map_eq_append_iff.mp whole
    obtain ⟨quotes, after, rfl, isGone, rfl⟩ := List.map_eq_cons_iff.mp isRest
    exact ⟨before, quotes, after, isWhole, spell_eq_nil_iff.mp isGone, (kept before).mp someLeft,
      (kept after).mp someRight⟩
  · rintro ⟨left, quotes, right, whole, isGone, someLeft, someRight⟩
    refine ⟨left.map spell, right.map spell, ?_, (kept left).mpr someLeft,
      (kept right).mpr someRight⟩
    rw [whole, List.map_append, List.map_cons, spell_eq_nil_iff.mpr isGone]

/-- A text in normal form is normalized to itself. -/
theorem IsNormal.normalize_eq_self (isNormal : IsNormal text)
    (written : ∀ c ∈ text, c = ' ' ∨ isBlank c = false ∧ IsSmall c) : normalize text = text := by
  have spaces : ∀ c ∈ text, isBlank c = true → c = ' ' := fun c mem blank =>
    (written c mem).resolve_right fun inWord => by simp [inWord.1] at blank
  have small : lower text = text :=
    lower_eq_self fun c mem => isSmall_of_written (written c mem)
  change trim (unquoted (replace "colour".toList "color".toList
    (collapse (trim (lower text))))) = text
  rw [small, isNormal.trimmed, collapse_eq_self spaces isNormal.spaced,
    replace_eq_self isNormal.spelled, unquoted_eq_self isNormal.quoteless, isNormal.trimmed]

theorem isNormal_normalize_iff : IsNormal (normalize text) ↔
    ¬"colour".toList <:+: normalize text ∧ ¬HasRun (normalize text) :=
  ⟨fun isNormal => ⟨isNormal.spelled, isNormal.spaced⟩, fun ⟨spelled, spaced⟩ =>
    ⟨fun _ mem => isQuote_of_mem_normalize mem, spelled, spaced, trim_trim _⟩⟩

/-- A text without quotes in it is brought into normal form. -/
theorem isNormal_normalize_of_unquoted (none : ∀ c ∈ lower text, isQuote c = false) :
    IsNormal (normalize text) := by
  rw [isNormal_normalize_iff, colour_infix_normalize_iff, hasRun_normalize_iff]
  constructor
  · rintro ⟨piece, isBroken, inside⟩
    obtain ⟨c, mem, quote⟩ := isBroken.broken
    simp [none c (inside.subset mem)] at quote
  · rintro ⟨left, quotes, right, whole, allQuotes, -, -⟩
    have known : quotes ∈ words (lower text) := by simp [whole]
    obtain ⟨c, mem⟩ := List.exists_mem_of_ne_nil _ (ne_nil_of_mem_words known)
    have kept : c ∈ unquoted quotes :=
      mem_unquoted_iff.mpr ⟨mem, none c (mem_of_mem_words known mem)⟩
    simp [allQuotes] at kept

/-- What is left of the normal form of any text.  Its normalized form has no quotes and no blanks
at its ends; it holds the replaced spelling exactly where quotes kept the letters of one apart,
and a blank follows a blank exactly where a word of quotes stood between others.  It is normalized
to itself just where neither is the case, and normalizing it once more leaves a normal form. -/
theorem normalize_reaches_normal_form (text : List Char) :
    (∀ c ∈ normalize text, isQuote c = false) ∧
    trim (normalize text) = normalize text ∧
    ("colour".toList <:+: normalize text ↔ ∃ piece, IsBroken piece ∧ piece <:+: lower text) ∧
    (HasRun (normalize text) ↔ QuotesApart (words (lower text))) ∧
    (normalize (normalize text) = normalize text ↔ IsNormal (normalize text)) ∧
    IsNormal (normalize (normalize text)) := by
  have again : IsNormal (normalize (normalize text)) :=
    isNormal_normalize_of_unquoted fun c mem =>
      isQuote_of_mem_normalize (lower_normalize text ▸ mem)
  refine ⟨fun c mem => isQuote_of_mem_normalize mem, trim_trim _, colour_infix_normalize_iff,
    hasRun_normalize_iff, ⟨fun same => ?_, fun isNormal => ?_⟩, again⟩
  · rwa [same] at again
  · exact isNormal.normalize_eq_self fun c mem => of_mem_normalize mem

/-- A quote inside the word keeps the old spelling; normalizing twice replaces it. -/
theorem quoted_colour_keeps_its_spelling :
    normalize "Col'our".toList = "colour".toList ∧
      normalize (normalize "Col'our".toList) = "color".toList := by
  decide +kernel

end Eaves.Prompt
