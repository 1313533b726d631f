import Eaves.Answer.Layer
import Eaves.Design.Intent
import Eaves.Proofs.Outcome
import Eaves.Proofs.Prompt.Flags
import Eaves.Proofs.Text.Numeral

/-!
# Flags of conflicting pairs

The choices of a conflict name a layer by its position.  Reading such an id gives the
position back, whatever the number, as long as it has no more digits than are read.

There is one flag for every pair of conflicting layers, and the flags stand in the order
of the positions of their pairs.  They are the only flags of a prompt that are about a
conflict.
-/

namespace Eaves

open Outcome

/-! ## Winners that are named -/

/-- Digits in front of something else are found, all of them and no more. -/
theorem Prompt.digits?_append {digits rest : List Char} (nonempty : digits ≠ [])
    (latin : ∀ c ∈ digits, c.isDigit) (stops : ∀ c ∈ rest.head?, Text.isDecimal c = false) :
    digits? (digits ++ rest) = some (digits, rest) := by
  have decimal : ∀ c ∈ digits, Text.isDecimal c = true :=
    fun c mem => Text.isDecimal_of_isDigit (latin c mem)
  have restKept : rest.takeWhile Text.isDecimal = [] ∧ rest.dropWhile Text.isDecimal = rest := by
    cases rest with
    | nil => exact ⟨rfl, rfl⟩
    | cons c cs =>
        have isOther := stops c rfl
        simp [isOther]
  rw [digits?, List.takeWhile_append_of_pos decimal, List.dropWhile_append_of_pos decimal,
    restKept.1, restKept.2, List.append_nil, if_neg (by simpa using nonempty)]

theorem winnerDigits?_winnerId (position : Nat) :
    winnerDigits? (winnerId position) = some (toString position).toList := by
  have shape : (winnerId position).toList =
      "layer_".toList ++ ((toString position).toList ++ "_wins".toList) := by
    rw [winnerId, String.toList_append, String.toList_append, List.append_assoc]
  have after : Prompt.afterWord? "layer_" (winnerId position).toList =
      some ((toString position).toList ++ "_wins".toList) := by
    rw [Prompt.afterWord?, shape, Text.startsWith, if_pos (List.isPrefixOf_iff_prefix.mpr
      (List.prefix_append _ _)), List.drop_left]
  have digits : Prompt.digits? ((toString position).toList ++ "_wins".toList) =
      some ((toString position).toList, "_wins".toList) := by
    apply Prompt.digits?_append (Text.toString_ne_nil position)
      (fun c mem => Text.isDigit_of_mem_toString mem)
    intro c isFirst
    have underscore : c = '_' := by simpa using isFirst.symm
    subst underscore
    decide
  rw [winnerDigits?, after, Option.bind_eq_bind, Option.bind_some, digits,
    Option.bind_eq_bind, Option.bind_some]
  exact if_pos rfl

/-- A position with no more digits than are read is the winner that its id names. -/
theorem winner?_winnerId {position : Nat} (short : position < 10 ^ Text.digitLimit) :
    winner? (winnerId position) = .ok (some (position : Int)) := by
  rw [winner?, winnerDigits?_winnerId]
  dsimp only
  rw [Prompt.count, Text.decimalNumeral_toString short]
  rfl

/-- The winner that an option's id names, where it can be read. -/
theorem eq_of_winner?_winnerId {position : Nat} {found : Option Int}
    (read : winner? (winnerId position) = .ok found) : found = some (position : Int) := by
  rw [winner?, winnerDigits?_winnerId] at read
  rcases map_eq_ok_iff.mp read with ⟨number, counted, rfl⟩
  rcases map_eq_ok_iff.mp counted with ⟨_, lifted, rfl⟩
  rcases bind_eq_ok_iff.mp lifted with ⟨value, numeral, shape⟩
  rw [liftNumeral_eq_ok_iff] at numeral
  rw [pure_eq_ok_iff, Text.eq_of_decimalNumeral_toString numeral] at shape
  rw [← shape]

theorem winner?_blend : winner? "blend" = .ok none := by
  rfl

/-- Different positions are named by different ids. -/
theorem winnerId_inj {position other : Nat} :
    winnerId position = winnerId other ↔ position = other := by
  constructor
  · intro same
    have digits := winnerDigits?_winnerId position
    rw [same, winnerDigits?_winnerId] at digits
    exact (Text.toString_injective (Option.some.inj digits)).symm
  · rintro rfl
    rfl

theorem winnerId_ne_of_winnerDigits? {id : String} (noDigits : winnerDigits? id = none)
    (position : Nat) : winnerId position ≠ id := by
  intro same
  rw [← same, winnerDigits?_winnerId] at noDigits
  cases noDigits

theorem winnerId_ne_merge (position : Nat) : winnerId position ≠ "merge" :=
  winnerId_ne_of_winnerDigits? rfl position

theorem winnerId_ne_blend (position : Nat) : winnerId position ≠ "blend" :=
  winnerId_ne_of_winnerDigits? rfl position

/-! ## Pairs in conflict -/

/-- The layers at two positions conflict, and the first position is the lower one. -/
def ConflictAt (layers : List Layer) (i j : Nat) : Prop :=
  i < j ∧ ∃ first second, layers[i]? = some first ∧ layers[j]? = some second ∧
    first.conflictsWith second = true

/-- A flag is about the conflict of the layers at two positions. -/
def Ambiguity.IsBetween (flag : Ambiguity) (i j : Nat) : Prop :=
  ∃ first second, flag = conflictFlag i j first second

/-- A flag is about the conflict of two layers that do conflict. -/
def Ambiguity.IsConflict (flag : Ambiguity) (layers : List Layer) (i j : Nat) : Prop :=
  ∃ first second, i < j ∧ layers[i]? = some first ∧ layers[j]? = some second ∧
    first.conflictsWith second = true ∧ flag = conflictFlag i j first second

theorem Ambiguity.IsBetween.positions_eq {flag : Ambiguity} {i j k l : Nat}
    (between : flag.IsBetween i j) (other : flag.IsBetween k l) : i = k ∧ j = l := by
  rcases between with ⟨first, second, rfl⟩
  rcases other with ⟨third, fourth, same⟩
  simp only [conflictFlag, Ambiguity.mk.injEq, List.cons.injEq, Choice.mk.injEq,
    Value.int.injEq, Int.natCast_inj] at same
  exact ⟨by tauto, by tauto⟩

/-- The flags of one layer against those that follow it from a position on. -/
theorem mem_conflictsOf_iff {i start : Nat} {first : Layer} {layers : List Layer}
    {flag : Ambiguity} :
    flag ∈ conflictsOf i first start layers ↔
      ∃ offset second, layers[offset]? = some second ∧ first.conflictsWith second = true ∧
        flag = conflictFlag i (start + offset) first second := by
  induction layers generalizing start with
  | nil => simp [conflictsOf]
  | cons second rest ih =>
      -- a layer stands first, or one further behind among the rest
      have split : (∃ offset other, (second :: rest)[offset]? = some other ∧
            first.conflictsWith other = true ∧
            flag = conflictFlag i (start + offset) first other) ↔
          (first.conflictsWith second = true ∧ flag = conflictFlag i start first second) ∨
            ∃ offset other, rest[offset]? = some other ∧ first.conflictsWith other = true ∧
              flag = conflictFlag i (start + 1 + offset) first other := by
        constructor
        · rintro ⟨offset, other, there, conflicts, same⟩
          cases offset with
          | zero =>
              cases there
              exact .inl ⟨conflicts, same⟩
          | succ offset =>
              exact .inr ⟨offset, other, there, conflicts, by rw [same]; congr 1; omega⟩
        · rintro (⟨conflicts, same⟩ | ⟨offset, other, there, conflicts, same⟩)
          · exact ⟨0, second, rfl, conflicts, same⟩
          · exact ⟨offset + 1, other, there, conflicts, by rw [same]; congr 1; omega⟩
      rw [split, conflictsOf]
      by_cases conflicts : first.conflictsWith second = true
      · rw [if_pos conflicts, List.mem_cons, ih]
        simp only [conflicts, true_and]
      · rw [if_neg conflicts, ih]
        exact (or_iff_right fun here => conflicts here.1).symm

theorem mem_conflictsFrom_iff {start : Nat} {layers : List Layer} {flag : Ambiguity} :
    flag ∈ conflictsFrom start layers ↔
      ∃ i j first second, i < j ∧ layers[i]? = some first ∧ layers[j]? = some second ∧
        first.conflictsWith second = true ∧
        flag = conflictFlag (start + i) (start + j) first second := by
  induction layers generalizing start with
  | nil => simp [conflictsFrom]
  | cons layer rest ih =>
      rw [conflictsFrom, List.mem_append, mem_conflictsOf_iff, ih]
      constructor
      · rintro (⟨offset, second, there, conflicts, same⟩ |
          ⟨i, j, first, second, before, isFirst, isSecond, conflicts, same⟩)
        · exact ⟨0, offset + 1, layer, second, by omega, rfl, there, conflicts,
            by rw [same]; congr 1; omega⟩
        · exact ⟨i + 1, j + 1, first, second, by omega, isFirst, isSecond, conflicts,
            by rw [same]; congr 1 <;> omega⟩
      · rintro ⟨i, j, first, second, before, isFirst, isSecond, conflicts, same⟩
        obtain ⟨k, rfl⟩ := Nat.exists_eq_succ_of_ne_zero (Nat.ne_zero_of_lt before)
        cases i with
        | zero =>
            cases isFirst
            exact .inl ⟨k, second, isSecond, conflicts, by rw [same]; congr 1; omega⟩
        | succ i =>
            exact .inr ⟨i, k, first, second, by omega, isFirst, isSecond, conflicts,
              by rw [same]; congr 1 <;> omega⟩

/-- There is a flag for every conflicting pair, and no other. -/
theorem mem_conflicts_iff {layers : List Layer} {flag : Ambiguity} :
    flag ∈ conflicts layers ↔ ∃ i j, flag.IsConflict layers i j := by
  rw [conflicts, mem_conflictsFrom_iff]
  simp only [Nat.zero_add, Ambiguity.IsConflict, exists_and_left]

/-- The flags stand in the order in which their pairs are asked about. -/
theorem pairwise_conflictsFrom (start : Nat) (layers : List Layer) :
    (conflictsFrom start layers).Pairwise fun flag other => ∀ i j k l,
      flag.IsBetween i j → other.IsBetween k l → i < k ∨ i = k ∧ j < l := by
  induction layers generalizing start with
  | nil => exact .nil
  | cons layer rest ih =>
      have sameFirst : ∀ (behind : List Layer) (position : Nat),
          (conflictsOf start layer position behind).Pairwise fun flag other => ∀ i j k l,
            flag.IsBetween i j → other.IsBetween k l → i < k ∨ i = k ∧ j < l := by
        intro behind
        induction behind with
        | nil => exact fun _ => .nil
        | cons second others ihBehind =>
            intro position
            rw [conflictsOf]
            split
            · refine .cons ?_ (ihBehind (position + 1))
              intro other mem i j k l between otherBetween
              obtain ⟨offset, third, -, -, isOther⟩ := mem_conflictsOf_iff.mp mem
              have here := between.positions_eq ⟨layer, second, rfl⟩
              have there := otherBetween.positions_eq ⟨layer, third, isOther⟩
              omega
            · exact ihBehind (position + 1)
      rw [conflictsFrom, List.pairwise_append]
      refine ⟨sameFirst rest (start + 1), ih (start + 1), ?_⟩
      intro flag mem other otherMem i j k l between otherBetween
      obtain ⟨offset, second, -, -, isFlag⟩ := mem_conflictsOf_iff.mp mem
      obtain ⟨m, n, third, fourth, -, -, -, -, isOther⟩ := mem_conflictsFrom_iff.mp otherMem
      have here := between.positions_eq ⟨layer, second, isFlag⟩
      have there := otherBetween.positions_eq ⟨third, fourth, isOther⟩
      omega

/-- The flags stand for the conflicting pairs, each once and in lexicographic order. -/
theorem exists_pairs_of_conflicts (layers : List Layer) : ∃ pairs : List (Nat × Nat),
    (pairs.Pairwise fun a b => a.1 < b.1 ∨ a.1 = b.1 ∧ a.2 < b.2) ∧
      (∀ i j, (i, j) ∈ pairs ↔ ConflictAt layers i j) ∧
      List.Forall₂ (fun flag pair => flag.IsConflict layers pair.1 pair.2)
        (conflicts layers) pairs := by
  have placed : ∀ flag ∈ conflicts layers, ∃ pair : Nat × Nat,
      flag.IsConflict layers pair.1 pair.2 := by
    intro flag mem
    rcases mem_conflicts_iff.mp mem with ⟨i, j, isConflict⟩
    exact ⟨(i, j), isConflict⟩
  obtain ⟨pairs, related⟩ := exists_partners placed
  refine ⟨pairs, ?_, ?_, related⟩
  · refine pairwise_partners ?_ related (pairwise_conflictsFrom 0 layers)
    rintro flag other ⟨i, j⟩ ⟨k, l⟩ ⟨first, second, -, -, -, -, isFlag⟩
      ⟨third, fourth, -, -, -, -, isOther⟩ ordered
    exact ordered i j k l ⟨first, second, isFlag⟩ ⟨third, fourth, isOther⟩
  · intro i j
    constructor
    · intro mem
      rcases exists_partner related.flip mem with
        ⟨flag, -, first, second, before, isFirst, isSecond, conflicts, -⟩
      exact ⟨before, first, second, isFirst, isSecond, conflicts⟩
    · rintro ⟨before, first, second, isFirst, isSecond, conflicts⟩
      have isConflict : (conflictFlag i j first second).IsConflict layers i j :=
        ⟨first, second, before, isFirst, isSecond, conflicts, rfl⟩
      obtain ⟨⟨k, l⟩, together, third, fourth, -, -, -, -, same⟩ :=
        exists_partner related (mem_conflicts_iff.mpr ⟨i, j, isConflict⟩)
      have positions := Ambiguity.IsBetween.positions_eq ⟨first, second, rfl⟩ ⟨third, fourth, same⟩
      obtain ⟨rfl, rfl⟩ := positions
      exact (List.of_mem_zip together).2

/-- The flags of a prompt: those of its clauses, none of which is about a conflict, and those of
its conflicting pairs. -/
theorem Prompt.exists_flags_of_parse {text : String} {roofline : Option Roofline}
    {settings : ParserSettings} {intent : Intent}
    (parsed : parse text roofline settings = .ok intent) :
    ∃ own, intent.ambiguities = own ++ conflicts intent.layers ∧
      ∀ flag ∈ own, flag.kind ≠ .conflict := by
  rcases bind_eq_ok_iff.mp parsed with ⟨understood, read, rest⟩
  rcases bind_eq_ok_iff.mp rest with ⟨confidence, -, shape⟩
  rw [pure_eq_ok_iff] at shape
  subst shape
  refine ⟨_, rfl, ?_⟩
  intro flag mem
  rcases List.mem_flatMap.mp mem with ⟨result, resultMem, inside⟩
  rcases exists_partner (understandFrom_eq_ok read).flip resultMem with ⟨clause, -, readOne⟩
  exact ((understand_spec readOne).2.2 flag inside).no_conflict

end Eaves
