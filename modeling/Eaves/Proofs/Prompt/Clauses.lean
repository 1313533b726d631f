import Eaves.Prompt.Normal
import Eaves.Proofs.Text.Search

/-!
# What clauses are cut from

The separators are applied one after the other, and each one cuts pieces into smaller
ones.  A piece that lacks a separator keeps lacking it however it is cut and trimmed,
so in the end no clause holds any separator, and splitting a clause again changes
nothing.

What is cut away between clauses are the separators themselves, and trimming cuts away
blanks.  So a text is its clauses in order, with nothing but separators and blanks
between them.
-/

namespace Eaves.Prompt

open Text

variable {text rest : List Char} {parts : List (List Char)}

/-! ## Between clauses -/

/-- A text made of separators and blanks. -/
inductive IsJoint : List Char → Prop
  | nil : IsJoint []
  | blank {c : Char} {rest : List Char} :
      isBlank c = true → IsJoint rest → IsJoint (c :: rest)
  | separator {separator : String} {rest : List Char} :
      separator ∈ separators → IsJoint rest → IsJoint (separator.toList ++ rest)

namespace IsJoint

theorem append (first : IsJoint text) (second : IsJoint rest) : IsJoint (text ++ rest) := by
  induction first with
  | nil => exact second
  | blank isBlank _ ih => exact .blank isBlank ih
  | separator known _ ih =>
      rw [List.append_assoc]
      exact .separator known ih

theorem ofBlanks (blanks : ∀ c ∈ text, isBlank c = true) : IsJoint text := by
  induction text with
  | nil => exact .nil
  | cons c rest ih =>
      exact .blank (blanks c List.mem_cons_self)
        (ih fun d mem => blanks d (List.mem_cons_of_mem _ mem))

theorem ofSeparator {separator : String} (known : separator ∈ separators) :
    IsJoint separator.toList := by
  have joint := IsJoint.separator known .nil
  rwa [List.append_nil] at joint

end IsJoint

/-- A text is pieces in order, with separators and blanks around them. -/
inductive Joins : List (List Char) → List Char → Prop
  | nil {joint : List Char} : IsJoint joint → Joins [] joint
  | cons {joint piece rest : List Char} {parts : List (List Char)} :
      IsJoint joint → Joins parts rest → Joins (piece :: parts) (joint ++ (piece ++ rest))

namespace Joins

theorem prepend {joint : List Char} (isJoint : IsJoint joint) (joins : Joins parts text) :
    Joins parts (joint ++ text) := by
  cases joins with
  | nil other => exact .nil (isJoint.append other)
  | cons other joins =>
      rw [← List.append_assoc]
      exact .cons (isJoint.append other) joins

theorem append {others : List (List Char)} (first : Joins parts text) (second : Joins others rest) :
    Joins (parts ++ others) (text ++ rest) := by
  induction first with
  | nil isJoint => exact second.prepend isJoint
  | cons isJoint _ ih =>
      rw [List.append_assoc, List.append_assoc]
      exact .cons isJoint ih

/-- A text is itself, as one piece. -/
theorem single (piece : List Char) : Joins [piece] piece := by
  have joins : Joins [piece] ([] ++ (piece ++ [])) := .cons .nil (.nil .nil)
  rwa [List.nil_append, List.append_nil] at joins

/-- Pieces that are cut further leave the text what it is. -/
theorem flatMap {cut : List Char → List (List Char)}
    (cuts : ∀ piece ∈ parts, Joins (cut piece) piece) (joins : Joins parts text) :
    Joins (parts.flatMap cut) text := by
  induction joins with
  | nil isJoint => exact .nil isJoint
  | cons isJoint _ ih =>
      rw [List.flatMap_cons]
      apply prepend isJoint
      apply append (cuts _ List.mem_cons_self)
      exact ih fun piece mem => cuts piece (List.mem_cons_of_mem _ mem)

theorem intercalate {separator : String} (known : separator ∈ separators)
    (parts : List (List Char)) : Joins parts (separator.toList.intercalate parts) := by
  induction parts with
  | nil => exact .nil .nil
  | cons piece rest ih =>
      cases rest with
      | nil =>
          rw [List.intercalate_singleton]
          exact single piece
      | cons next others =>
          rw [List.intercalate_cons_cons, List.append_assoc]
          exact (single piece).append (ih.prepend (.ofSeparator known))

/-- The joints of a text, one more than there are pieces. -/
theorem exists_joints (joins : Joins parts text) :
    ∃ first others, IsJoint first ∧ (∀ joint ∈ others, IsJoint joint) ∧
      others.length = parts.length ∧
      text = first ++ (List.zipWith (· ++ ·) parts others).flatten := by
  induction joins with
  | nil isJoint => exact ⟨_, [], isJoint, by simp, rfl, by simp⟩
  | cons isJoint _ ih =>
      obtain ⟨next, others, nextIsJoint, areJoints, lengths, rfl⟩ := ih
      refine ⟨_, next :: others, isJoint, ?_,
        by rw [List.length_cons, lengths, List.length_cons], ?_⟩
      · intro joint mem
        rcases List.mem_cons.mp mem with rfl | later
        · exact nextIsJoint
        · exact areJoints joint later
      · rw [List.zipWith_cons_cons, List.flatten_cons, List.append_assoc]

end Joins

/-! ## Cutting at separators -/

theorem toList_ne_nil_of_mem_separators : ∀ separator ∈ separators, separator.toList ≠ [] := by
  decide +kernel

theorem joins_splitOn {separator : String} (known : separator ∈ separators) (piece : List Char) :
    Joins (splitOn separator.toList piece) piece := by
  have joins := Joins.intercalate known (splitOn separator.toList piece)
  rwa [intercalate_splitOn (toList_ne_nil_of_mem_separators separator known)] at joins

theorem joins_foldl {names : List String} (known : names ⊆ separators) (joins : Joins parts text) :
    Joins (names.foldl splitPieces parts) text := by
  induction names generalizing parts with
  | nil => exact joins
  | cons name rest ih =>
      rw [List.cons_subset] at known
      exact ih known.2 (joins.flatMap fun piece _ => joins_splitOn known.1 piece)

/-- Cutting brings nothing in that the pieces lacked. -/
theorem not_infix_of_mem_foldl {names : List String} (known : names ⊆ separators)
    {needle : List Char} (lack : ∀ piece ∈ parts, ¬needle <:+: piece) :
    ∀ piece ∈ names.foldl splitPieces parts, ¬needle <:+: piece := by
  induction names generalizing parts with
  | nil => exact lack
  | cons name rest ih =>
      rw [List.cons_subset] at known
      apply ih known.2
      intro piece mem holds
      obtain ⟨whole, isPiece, cut⟩ := List.mem_flatMap.mp mem
      have nonempty := toList_ne_nil_of_mem_separators name known.1
      exact lack whole isPiece (holds.trans (infix_of_mem_splitOn nonempty cut))

/-- After cutting at separators no piece holds any of them. -/
theorem separator_not_infix_of_mem_foldl {names : List String} (known : names ⊆ separators)
    {separator : String} (used : separator ∈ names) :
    ∀ piece ∈ names.foldl splitPieces parts, ¬separator.toList <:+: piece := by
  induction names generalizing parts with
  | nil => cases used
  | cons name rest ih =>
      rw [List.cons_subset] at known
      rcases List.mem_cons.mp used with rfl | later
      · apply not_infix_of_mem_foldl known.2
        intro piece mem
        obtain ⟨whole, -, cut⟩ := List.mem_flatMap.mp mem
        exact not_infix_of_mem_splitOn (toList_ne_nil_of_mem_separators _ known.1) cut
      · exact ih known.2 later

theorem foldl_splitPieces_eq_self {names : List String}
    (lacks : ∀ name ∈ names, ¬name.toList <:+: text) : names.foldl splitPieces [text] = [text] := by
  induction names with
  | nil => rfl
  | cons name rest ih =>
      have once : splitPieces [text] name = [text] := by
        rw [splitPieces, List.flatMap_singleton]
        exact splitOn_eq_singleton (lacks name List.mem_cons_self)
      rw [List.foldl_cons, once]
      exact ih fun other mem => lacks other (List.mem_cons_of_mem _ mem)

/-! ## Trimming pieces -/

/-- The clause that is left of a piece when it is trimmed, if anything is. -/
def clauseOf (piece : List Char) : List (List Char) :=
  if trim piece = [] then [] else [trim piece]

theorem clauses_eq (text : List Char) : clauses text = (pieces text).flatMap clauseOf := by
  rw [clauses]
  induction pieces text with
  | nil => rfl
  | cons piece rest ih =>
      rw [List.map_cons, List.flatMap_cons, ← ih, clauseOf]
      by_cases nothing : trim piece = []
      · rw [nothing, if_pos rfl]
        rfl
      · rw [if_neg nothing, List.filter_cons_of_pos (by simpa using nothing)]
        rfl

theorem joins_clauseOf (piece : List Char) : Joins (clauseOf piece) piece := by
  obtain ⟨before, after, whole, blanksBefore, blanksAfter⟩ := exists_blanks_trim piece
  have first := IsJoint.ofBlanks blanksBefore
  have last := IsJoint.ofBlanks blanksAfter
  unfold clauseOf
  split
  · rename_i nothing
    rw [nothing, List.nil_append] at whole
    rw [whole]
    exact .nil (first.append last)
  · have joins : Joins [trim piece] (before ++ (trim piece ++ after)) := .cons first (.nil last)
    rwa [← whole] at joins

/-- A clause is a trimmed piece, and not empty. -/
theorem exists_piece_of_mem_clauses {clause : List Char} (mem : clause ∈ clauses text) :
    ∃ piece ∈ pieces text, clause = trim piece ∧ clause ≠ [] := by
  rw [clauses_eq] at mem
  obtain ⟨piece, isPiece, left⟩ := List.mem_flatMap.mp mem
  unfold clauseOf at left
  split at left
  · cases left
  · rename_i something
    rw [List.mem_singleton] at left
    exact ⟨piece, isPiece, left, left ▸ something⟩

/-- A text that is trimmed, not empty and free of separators is its own only clause. -/
theorem clauses_eq_singleton (nonempty : text ≠ []) (trimmed : trim text = text)
    (lacks : ∀ separator ∈ separators, ¬separator.toList <:+: text) : clauses text = [text] := by
  rw [clauses_eq, pieces, foldl_splitPieces_eq_self lacks, List.flatMap_singleton, clauseOf,
    trimmed, if_neg nonempty]

/-- Clauses are not empty, start and end with no blank, hold none of the separators and are not
split any further.  The text is its clauses in order, with separators and blanks in front of them,
between them and behind them. -/
theorem clauses_lose_nothing (text : List Char) :
    (∀ clause ∈ clauses text, clause ≠ [] ∧ (∀ c ∈ clause.head?, isBlank c = false) ∧
      (∀ c ∈ clause.getLast?, isBlank c = false) ∧
      (∀ separator ∈ separators, ¬separator.toList <:+: clause) ∧
      clauses clause = [clause]) ∧
    ∃ first others, IsJoint first ∧ (∀ joint ∈ others, IsJoint joint) ∧
      others.length = (clauses text).length ∧
      text = first ++ (List.zipWith (· ++ ·) (clauses text) others).flatten := by
  constructor
  · intro clause mem
    obtain ⟨piece, isPiece, rfl, nonempty⟩ := exists_piece_of_mem_clauses mem
    have starts : ∀ c ∈ (trim piece).head?, isBlank c = false := fun c first => head?_trim first
    have ends : ∀ c ∈ (trim piece).getLast?, isBlank c = false := fun c last => getLast?_trim last
    have lacks : ∀ separator ∈ separators, ¬separator.toList <:+: trim piece := by
      intro separator known holds
      exact separator_not_infix_of_mem_foldl (List.Subset.refl _) known piece isPiece
        (holds.trans (isInfix_trim piece))
    exact ⟨nonempty, starts, ends, lacks,
      clauses_eq_singleton nonempty (trim_eq_self starts ends) lacks⟩
  · have joins : Joins (clauses text) text := by
      rw [clauses_eq]
      exact (joins_foldl (List.Subset.refl _) (Joins.single text)).flatMap
        fun piece _ => joins_clauseOf piece
    exact joins.exists_joints

end Eaves.Prompt
