import Eaves.Text.Blank
import Eaves.Text.Search
import Mathlib.Data.List.DropRight
import Mathlib.Data.List.Infix

/-!
# Occurrences, pieces and trimming

A text occurs at a position where what is left from there starts with it.  Splitting at
a separator cuts from the left at places where it occurs, so the pieces joined by the
separator are the text again, and a piece holds no separator: while a piece is read, no
separator starts at any character of it that has been passed.  Replacing reads on behind
an occurrence and steps over any other character, so a text of which the start is known
is replaced piece by piece.

Trimming takes blanks from both ends and stops at the first character that is not one.
-/

namespace Eaves.Text

variable {needle separator text piece : List Char}

/-! ## Occurrences -/

theorem startsWith_iff : startsWith needle text = true ↔ needle <+: text :=
  List.isPrefixOf_iff_prefix

theorem occursIn_iff : occursIn needle text = true ↔ needle <:+: text := by
  induction text with
  | nil => simp [occursIn]
  | cons c cs ih => rw [occursIn, Bool.or_eq_true, startsWith_iff, ih, List.infix_cons_iff]

theorem mem_occurrencesFrom_iff (nonempty : needle ≠ []) {start position : Nat} :
    position ∈ occurrencesFrom needle start text ↔
      start ≤ position ∧ needle <+: text.drop (position - start) := by
  induction text generalizing start with
  | nil => simp [occurrencesFrom, nonempty]
  | cons c cs ih =>
      have later : (start + 1 ≤ position ∧ needle <+: cs.drop (position - (start + 1))) ↔
          start ≠ position ∧ start ≤ position ∧ needle <+: (c :: cs).drop (position - start) := by
        constructor
        · rintro ⟨behind, occurs⟩
          refine ⟨by omega, by omega, ?_⟩
          rwa [show position - start = position - (start + 1) + 1 by omega, List.drop_succ_cons]
        · rintro ⟨other, behind, occurs⟩
          refine ⟨by omega, ?_⟩
          rwa [show position - start = position - (start + 1) + 1 by omega,
            List.drop_succ_cons] at occurs
      rw [occurrencesFrom]
      split
      · rename_i here
        rw [List.mem_cons, ih, later]
        constructor
        · rintro (rfl | ⟨-, occurs⟩)
          · rw [Nat.sub_self]
            exact ⟨Nat.le_refl _, startsWith_iff.mp here⟩
          · exact occurs
        · intro occurs
          by_cases isStart : position = start
          · exact .inl isStart
          · exact .inr ⟨Ne.symm isStart, occurs⟩
      · rename_i notHere
        rw [ih, later]
        constructor
        · rintro ⟨-, occurs⟩
          exact occurs
        · rintro ⟨behind, occurs⟩
          refine ⟨?_, behind, occurs⟩
          rintro rfl
          rw [Nat.sub_self] at occurs
          exact notHere (startsWith_iff.mpr occurs)

/-- A text occurs at the positions from which on the other text starts with it. -/
theorem mem_occurrences_iff (nonempty : needle ≠ []) {position : Nat} :
    position ∈ occurrences needle text ↔ needle <+: text.drop position := by
  rw [occurrences, mem_occurrencesFrom_iff nonempty, Nat.sub_zero, and_iff_right (Nat.zero_le _)]

/-- What a text lacks ends the part of another that it can start. -/
theorem prefix_append_cons_iff {c : Char} (absent : c ∉ needle) (before after : List Char) :
    needle <+: before ++ c :: after ↔ needle <+: before := by
  refine ⟨fun starts => ?_, fun starts => starts.trans (List.prefix_append _ _)⟩
  rcases List.prefix_or_prefix_of_prefix starts (List.prefix_append before (c :: after)) with
    inside | ⟨rest, rfl⟩
  · exact inside
  · rw [List.prefix_append_right_inj] at starts
    cases rest with
    | nil => simp
    | cons d ds =>
        obtain rfl : d = c := (List.cons_prefix_cons.mp starts).1
        exact absurd (by simp) absent

theorem infix_append_cons_iff {c : Char} (nonempty : needle ≠ []) (absent : c ∉ needle)
    {before after : List Char} :
    needle <:+: before ++ c :: after ↔ needle <:+: before ∨ needle <:+: after := by
  induction before with
  | nil =>
      rw [List.nil_append, List.infix_cons_iff, ← List.nil_append (c :: after),
        prefix_append_cons_iff absent]
      simp [nonempty]
  | cons d ds ih =>
      rw [List.cons_append, List.infix_cons_iff, ← List.cons_append,
        prefix_append_cons_iff absent, ih, List.infix_cons_iff, or_assoc]

/-! ## Pieces -/

theorem splitFrom_ne_nil (separator pending : List Char) (skip : Nat) (text : List Char) :
    splitFrom separator pending skip text ≠ [] := by
  induction text generalizing pending skip with
  | nil => cases skip <;> simp [splitFrom]
  | cons c cs ih =>
      cases skip with
      | succ skip =>
          rw [splitFrom]
          exact ih pending skip
      | zero =>
          rw [splitFrom]
          split
          · exact List.cons_ne_nil _ _
          · exact ih (c :: pending) 0

theorem intercalate_splitFrom (nonempty : separator ≠ []) (pending : List Char) (skip : Nat)
    (text : List Char) :
    separator.intercalate (splitFrom separator pending skip text) =
      pending.reverse ++ text.drop skip := by
  induction text generalizing pending skip with
  | nil => cases skip <;> simp [splitFrom]
  | cons c cs ih =>
      cases skip with
      | succ skip =>
          rw [splitFrom, List.drop_succ_cons]
          exact ih pending skip
      | zero =>
          rw [splitFrom]
          split
          · rename_i here
            have some := List.length_pos_of_ne_nil nonempty
            obtain ⟨rest, whole⟩ := startsWith_iff.mp here
            have isRest : cs.drop (separator.length - 1) = rest := by
              have dropped := congrArg (List.drop separator.length) whole
              rwa [List.drop_left, ← Nat.sub_add_cancel some, List.drop_succ_cons,
                eq_comm] at dropped
            rw [List.intercalate_cons_of_ne_nil (splitFrom_ne_nil _ _ _ _), ih, isRest,
              List.reverse_nil, List.nil_append, List.drop_zero, ← whole, List.append_assoc]
          · rw [ih, List.reverse_cons, List.append_assoc]
            rfl

/-- The pieces of a text, joined by the separator, are the text again. -/
theorem intercalate_splitOn (nonempty : separator ≠ []) (text : List Char) :
    separator.intercalate (splitOn separator text) = text :=
  intercalate_splitFrom nonempty [] 0 text

/-- What has been read of a piece holds no separator where none starts in it. -/
theorem not_infix_of_clear (nonempty : separator ≠ []) {pending rest : List Char}
    (clear : ∀ i < pending.length, ¬separator <+: (pending.reverse ++ rest).drop i) :
    ¬separator <:+: pending.reverse := by
  rintro ⟨before, after, whole⟩
  have some := List.length_pos_of_ne_nil nonempty
  have lengths := congrArg List.length whole
  rw [List.length_append, List.length_append, List.length_reverse] at lengths
  apply clear before.length (by omega)
  rw [← whole, List.append_assoc, List.append_assoc, List.drop_left]
  exact List.prefix_append _ _

theorem not_infix_of_mem_splitFrom (nonempty : separator ≠ []) {pending : List Char} {skip : Nat}
    (clear : ∀ i < pending.length, ¬separator <+: (pending.reverse ++ text.drop skip).drop i)
    (mem : piece ∈ splitFrom separator pending skip text) : ¬separator <:+: piece := by
  induction text generalizing pending skip with
  | nil =>
      have isRead : piece = pending.reverse := by
        cases skip <;> simpa [splitFrom] using mem
      exact isRead ▸ not_infix_of_clear nonempty clear
  | cons c cs ih =>
      cases skip with
      | succ skip =>
          rw [splitFrom] at mem
          exact ih clear mem
      | zero =>
          rw [splitFrom] at mem
          split at mem
          · rcases List.mem_cons.mp mem with isRead | later
            · exact isRead ▸ not_infix_of_clear nonempty clear
            · exact ih (fun _ inside => absurd inside (Nat.not_lt_zero _)) later
          · rename_i notHere
            refine ih (fun i inside => ?_) mem
            rw [List.reverse_cons, List.append_assoc, List.singleton_append, List.drop_zero]
            rcases Nat.lt_succ_iff_lt_or_eq.mp inside with before | rfl
            · exact clear i before
            · rw [← List.length_reverse, List.drop_left, ← startsWith_iff]
              exact notHere

/-- No piece of a text holds the separator it was split at. -/
theorem not_infix_of_mem_splitOn (nonempty : separator ≠ [])
    (mem : piece ∈ splitOn separator text) : ¬separator <:+: piece :=
  not_infix_of_mem_splitFrom nonempty (fun _ inside => absurd inside (Nat.not_lt_zero _)) mem

theorem splitFrom_eq_singleton (absent : ¬separator <:+: text) (pending : List Char) :
    splitFrom separator pending 0 text = [pending.reverse ++ text] := by
  induction text generalizing pending with
  | nil => simp [splitFrom]
  | cons c cs ih =>
      have notHere : ¬startsWith separator (c :: cs) = true :=
        fun here => absent (startsWith_iff.mp here).isInfix
      have notLater : ¬separator <:+: cs := fun later => absent (List.infix_cons later)
      rw [splitFrom, if_neg notHere, ih notLater, List.reverse_cons, List.append_assoc]
      rfl

/-- A text without the separator is one piece. -/
theorem splitOn_eq_singleton (absent : ¬separator <:+: text) : splitOn separator text = [text] :=
  splitFrom_eq_singleton absent []

theorem infix_intercalate_of_mem {pieces : List (List Char)} (mem : piece ∈ pieces) :
    piece <:+: separator.intercalate pieces := by
  induction pieces with
  | nil => cases mem
  | cons first rest ih =>
      cases rest with
      | nil =>
          rw [List.mem_singleton] at mem
          rw [mem, List.intercalate_singleton]
      | cons next others =>
          rw [List.intercalate_cons_cons]
          rcases List.mem_cons.mp mem with rfl | later
          · rw [List.append_assoc]
            exact (List.prefix_append _ _).isInfix
          · exact (ih later).trans (List.suffix_append _ _).isInfix

/-- A piece stands in the text that it was cut from. -/
theorem infix_of_mem_splitOn (nonempty : separator ≠ []) (mem : piece ∈ splitOn separator text) :
    piece <:+: text := by
  rw [← intercalate_splitOn nonempty text]
  exact infix_intercalate_of_mem mem

/-! ## Replacing -/

theorem splitFrom_pending (pending : List Char) (skip : Nat) (text : List Char) :
    splitFrom separator pending skip text =
      (splitFrom separator [] skip text).modifyHead (pending.reverse ++ ·) := by
  induction text generalizing pending skip with
  | nil => cases skip <;> simp [splitFrom]
  | cons c cs ih =>
      cases skip with
      | succ skip => exact ih pending skip
      | zero =>
          rw [splitFrom, splitFrom]
          split
          · simp
          · rw [ih (c :: pending), ih [c], List.modifyHead_modifyHead]
            congr 1
            funext piece
            simp

theorem splitFrom_skip (pending : List Char) (skip : Nat) (text : List Char) :
    splitFrom separator pending skip text = splitFrom separator pending 0 (text.drop skip) := by
  induction text generalizing skip with
  | nil => cases skip <;> rfl
  | cons c cs ih =>
      cases skip with
      | zero => rfl
      | succ skip => exact ih skip

theorem intercalate_modifyHead (before : List Char) {pieces : List (List Char)}
    (some : pieces ≠ []) : separator.intercalate (pieces.modifyHead (before ++ ·)) =
      before ++ separator.intercalate pieces := by
  cases pieces with
  | nil => exact absurd rfl some
  | cons first rest =>
      cases rest with
      | nil => simp
      | cons next others => simp [List.intercalate_cons_cons]

@[simp]
theorem replace_nil (needle replacement : List Char) : replace needle replacement [] = [] := by
  simp [replace, splitOn, splitFrom]

/-- Where the searched text starts, its replacement takes its place. -/
theorem replace_append (nonempty : needle ≠ []) (replacement text : List Char) :
    replace needle replacement (needle ++ text) =
      replacement ++ replace needle replacement text := by
  obtain ⟨c, cs, rfl⟩ := List.exists_cons_of_ne_nil nonempty
  have here : startsWith (c :: cs) (c :: (cs ++ text)) = true :=
    startsWith_iff.mpr (List.prefix_append (c :: cs) text)
  rw [replace, splitOn, List.cons_append, splitFrom, if_pos here, splitFrom_skip,
    List.length_cons, Nat.add_sub_cancel, List.drop_left, List.reverse_nil,
    List.intercalate_cons_of_ne_nil (splitFrom_ne_nil _ _ _ _)]
  rfl

/-- Where it does not start, the character stays. -/
theorem replace_cons {c : Char} {cs : List Char} (notHere : ¬needle <+: c :: cs)
    (replacement : List Char) :
    replace needle replacement (c :: cs) = c :: replace needle replacement cs := by
  have other : ¬startsWith needle (c :: cs) = true := fun here => notHere (startsWith_iff.mp here)
  rw [replace, splitOn, splitFrom, if_neg other, splitFrom_pending,
    intercalate_modifyHead _ (splitFrom_ne_nil _ _ _ _)]
  rfl

/-- A text is read from the left, past occurrences of another and past single characters where it
does not occur. -/
@[elab_as_elim]
theorem occurrence_induction {motive : List Char → Prop} (nonempty : needle ≠ []) (nil : motive [])
    (occurs : ∀ rest, motive rest → motive (needle ++ rest))
    (passes : ∀ c cs, ¬needle <+: c :: cs → motive cs → motive (c :: cs)) (text : List Char) :
    motive text := by
  induction hn : text.length using Nat.strongRecOn generalizing text with
  | ind length ih =>
    by_cases here : needle <+: text
    · obtain ⟨rest, rfl⟩ := here
      have some := List.length_pos_of_ne_nil nonempty
      rw [List.length_append] at hn
      exact occurs rest (ih _ (by omega) rest rfl)
    · cases text with
      | nil => exact nil
      | cons c cs =>
          rw [List.length_cons] at hn
          exact passes c cs here (ih _ (by omega) cs rfl)

/-- A text stays where the searched text does not occur. -/
theorem replace_eq_self (absent : ¬needle <:+: text) (replacement : List Char) :
    replace needle replacement text = text := by
  rw [replace, splitOn_eq_singleton absent, List.intercalate_singleton]

/-- Replacing brings in nothing but the replacement. -/
theorem mem_of_mem_replace {c : Char} (nonempty : needle ≠ [])
    (mem : c ∈ replace needle replacement text) : c ∈ text ∨ c ∈ replacement := by
  induction text using occurrence_induction nonempty with
  | nil => simp at mem
  | occurs rest ih =>
      rw [replace_append nonempty, List.mem_append] at mem
      rcases mem with isNew | later
      · exact .inr isNew
      · exact (ih later).imp_left (List.mem_append_right _)
  | passes d ds notHere ih =>
      rw [replace_cons notHere, List.mem_cons] at mem
      rcases mem with rfl | later
      · exact .inl List.mem_cons_self
      · exact (ih later).imp_left (List.mem_cons_of_mem _)

/-- On either side of a character that the searched text lacks, the text is replaced on its own. -/
theorem replace_append_cons {c : Char} (nonempty : needle ≠ []) (absent : c ∉ needle)
    (replacement before after : List Char) :
    replace needle replacement (before ++ c :: after) =
      replace needle replacement before ++ c :: replace needle replacement after := by
  induction before using occurrence_induction nonempty with
  | nil =>
      rw [replace_nil, List.nil_append, List.nil_append, replace_cons]
      intro here
      exact nonempty (List.prefix_nil.mp ((prefix_append_cons_iff absent [] after).mp here))
  | occurs rest ih =>
      rw [List.append_assoc, replace_append nonempty, replace_append nonempty, ih,
        List.append_assoc]
  | passes d ds notHere ih =>
      have stillNot : ¬needle <+: d :: (ds ++ c :: after) :=
        fun here => notHere ((prefix_append_cons_iff absent (d :: ds) after).mp here)
      rw [List.cons_append, replace_cons stillNot, replace_cons notHere, ih, List.cons_append]

section Initial

/-! ### A character that only starts the searched text and its replacement -/

variable {a : Char} {rest other : List Char}

/-- A text without the character starts the one exactly when it starts the other. -/
theorem prefix_replace_iff {start : List Char} (absent : a ∉ start) (text : List Char) :
    start <+: replace (a :: rest) (a :: other) text ↔ start <+: text := by
  induction start generalizing text with
  | nil => simp
  | cons d ds ih =>
      rw [List.mem_cons, not_or] at absent
      obtain ⟨differ, later⟩ := absent
      by_cases here : a :: rest <+: text
      · obtain ⟨behind, rfl⟩ := here
        rw [replace_append (List.cons_ne_nil _ _)]
        simp [List.cons_prefix_cons, Ne.symm differ]
      · cases text with
        | nil => simp
        | cons c cs =>
            rw [replace_cons here, List.cons_prefix_cons, List.cons_prefix_cons, ih later]

theorem cons_infix_append_iff {before : List Char} (absent : a ∉ before) (text : List Char) :
    a :: piece <:+: before ++ text ↔ a :: piece <:+: text := by
  induction before with
  | nil => rfl
  | cons c cs ih =>
      rw [List.mem_cons, not_or] at absent
      rw [List.cons_append, List.infix_cons_iff, ih absent.2, List.cons_prefix_cons]
      simp [absent.1]

/-- A piece that starts with the character, holds it nowhere else and does not start where a
replacement was put in, occurs in the new text just where it occurred in the old one without the
searched text starting there. -/
theorem infix_replace_iff (single : a ∉ rest) (singleOther : a ∉ other) (singlePiece : a ∉ piece)
    (notReplaced : ∀ behind, ¬a :: piece <+: a :: other ++ behind) (text : List Char) :
    a :: piece <:+: replace (a :: rest) (a :: other) text ↔
      ∃ place, place <:+ text ∧ a :: piece <+: place ∧ ¬a :: rest <+: place := by
  induction text using occurrence_induction (List.cons_ne_nil a rest) with
  | nil => simp
  | occurs behind ih =>
      rw [replace_append (List.cons_ne_nil _ _), List.cons_append, List.infix_cons_iff,
        ← List.cons_append, cons_infix_append_iff singleOther, ih]
      simp only [notReplaced, false_or]
      constructor
      · rintro ⟨place, inside, starts, notHere⟩
        exact ⟨place, inside.trans (List.suffix_append _ _), starts, notHere⟩
      · rintro ⟨place, inside, starts, notHere⟩
        refine ⟨place, ?_, starts, notHere⟩
        rcases List.suffix_or_suffix_of_suffix inside (List.suffix_append _ behind) with
          isLater | ⟨front, rfl⟩
        · exact isLater
        · rcases List.suffix_cons_iff.mp (List.suffix_append_self_iff.mp inside) with rfl | isRest
          · exact absurd (List.prefix_append _ _) notHere
          · cases front with
            | nil => exact List.suffix_rfl
            | cons d ds =>
                obtain ⟨rfl, -⟩ := List.cons_prefix_cons.mp starts
                exact absurd (isRest.subset List.mem_cons_self) single
  | passes c cs notHere ih =>
      rw [replace_cons notHere, List.infix_cons_iff, List.cons_prefix_cons,
        prefix_replace_iff singlePiece, ← List.cons_prefix_cons, ih]
      constructor
      · rintro (starts | ⟨place, inside, starts, notThere⟩)
        · exact ⟨c :: cs, List.suffix_rfl, starts, notHere⟩
        · exact ⟨place, inside.trans (List.suffix_cons _ _), starts, notThere⟩
      · rintro ⟨place, inside, starts, notThere⟩
        rcases List.suffix_cons_iff.mp inside with rfl | later
        · exact .inl starts
        · exact .inr ⟨place, later, starts, notThere⟩

end Initial

/-! ## Trimming -/

theorem trim_eq (text : List Char) : trim text = (text.dropWhile isBlank).rdropWhile isBlank := rfl

/-- A text is its trimmed form with blanks around it. -/
theorem exists_blanks_trim (text : List Char) :
    ∃ before after, text = before ++ (trim text ++ after) ∧ (∀ c ∈ before, isBlank c = true) ∧
      ∀ c ∈ after, isBlank c = true := by
  refine ⟨text.takeWhile isBlank, (text.dropWhile isBlank).rtakeWhile isBlank, ?_, ?_, ?_⟩
  · rw [trim_eq, List.rdropWhile_append_rtakeWhile, List.takeWhile_append_dropWhile]
  · exact fun c mem => List.mem_takeWhile_imp mem
  · exact fun c mem => List.mem_rtakeWhile_imp mem

theorem isInfix_trim (text : List Char) : trim text <:+: text := by
  obtain ⟨before, after, whole, -⟩ := exists_blanks_trim text
  exact ⟨before, after, by rw [List.append_assoc, ← whole]⟩

/-- A trimmed text starts with no blank. -/
theorem head?_trim {c : Char} (first : (trim text).head? = some c) : isBlank c = false := by
  obtain ⟨rest, same⟩ := List.rdropWhile_prefix isBlank (l := text.dropWhile isBlank)
  have starts : (text.dropWhile isBlank).head? = some c := by
    rw [← same, List.head?_append, ← trim_eq, first]
    rfl
  have stops := List.head?_dropWhile_not isBlank text
  rwa [starts] at stops

/-- A trimmed text ends with no blank. -/
theorem getLast?_trim {c : Char} (last : (trim text).getLast? = some c) : isBlank c = false := by
  have stops := List.head?_dropWhile_not isBlank (text.dropWhile isBlank).reverse
  rw [trim_eq, List.rdropWhile, List.getLast?_reverse] at last
  rwa [last] at stops

/-- A text that neither starts nor ends with a blank is its own trimmed form. -/
theorem trim_eq_self (first : ∀ c ∈ text.head?, isBlank c = false)
    (last : ∀ c ∈ text.getLast?, isBlank c = false) : trim text = text := by
  have starts : text.dropWhile isBlank = text := by
    cases text with
    | nil => rfl
    | cons c rest => rw [List.dropWhile_cons_of_neg (by simp [first c rfl])]
  rw [trim_eq, starts, List.rdropWhile_eq_self_iff]
  intro nonempty
  rw [last _ (List.getLast?_eq_some_getLast nonempty)]
  decide

/-- Trimming twice is trimming once. -/
theorem trim_trim (text : List Char) : trim (trim text) = trim text :=
  trim_eq_self (fun _ first => head?_trim first) (fun _ last => getLast?_trim last)

end Eaves.Text
