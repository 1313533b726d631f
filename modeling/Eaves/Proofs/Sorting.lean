import Mathlib.Data.List.Permutation
import Mathlib.Data.List.Sort
import Mathlib.Order.Defs.LinearOrder

/-!
# Sorting by a key

Layers are painted by priority and questions are asked by kind.  Both are sorted by one
key, and the order they had is kept where the keys agree; so whatever held of earlier
and later members before still holds of those of one key.
-/

namespace Eaves.Sorting

variable {α κ : Type} [LinearOrder κ] (key : α → κ)

/-- The order by a key, as a test. -/
def before (a b : α) : Bool :=
  decide (key a ≤ key b)

theorem before_trans (a b c : α) (ab : before key a b = true) (bc : before key b c = true) :
    before key a c = true := by
  rw [before, decide_eq_true_eq] at ab bc ⊢
  exact le_trans ab bc

theorem before_total (a b : α) : (before key a b || before key b a) = true := by
  rw [Bool.or_eq_true, before, before, decide_eq_true_eq, decide_eq_true_eq]
  exact le_total _ _

/-- After sorting, no earlier member has a higher key than a later one. -/
theorem pairwise_le_mergeSort (members : List α) :
    (members.mergeSort (before key)).Pairwise fun a b => key a ≤ key b :=
  (List.pairwise_mergeSort (before_trans key) (before_total key) members).imp of_decide_eq_true

/-- Sorting keeps the order of the members of one key. -/
theorem filter_mergeSort (members : List α) (own : κ) :
    (members.mergeSort (before key)).filter (fun a => decide (key a = own)) =
      members.filter fun a => decide (key a = own) := by
  -- Equals form a sorted sublist, so sorting keeps them in place; both sides are then of one
  -- length, since sorting only permutes.
  have equals : (members.filter fun a => decide (key a = own)).Pairwise
      fun a b => before key a b = true := by
    apply List.pairwise_of_forall_mem_list
    intro a aMem b bMem
    have aKey := of_decide_eq_true (List.mem_filter.mp aMem).2
    have bKey := of_decide_eq_true (List.mem_filter.mp bMem).2
    rw [before, decide_eq_true_eq]
    exact le_of_eq (aKey.trans bKey.symm)
  have kept := (List.sublist_mergeSort (before_trans key) (before_total key) equals
    List.filter_sublist).filter fun a => decide (key a = own)
  rw [List.filter_filter] at kept
  simp only [Bool.and_self] at kept
  refine (kept.eq_of_length ?_).symm
  exact ((List.mergeSort_perm members _).filter _).length_eq.symm

/-- The first of the sorted members is the first among those of the lowest key: those in front of it
have a higher key, those behind it no lower one. -/
theorem exists_of_mergeSort_eq_cons {members rest : List α} {first : α}
    (sorted : members.mergeSort (before key) = first :: rest) :
    ∃ front back, members = front ++ first :: back ∧
      (∀ a ∈ front, key first < key a) ∧ ∀ a ∈ back, key first ≤ key a := by
  have increasing := pairwise_le_mergeSort key members
  rw [sorted, List.pairwise_cons] at increasing
  have lowest : ∀ a ∈ members, key first ≤ key a := by
    intro a mem
    have isSorted : a ∈ members.mergeSort (before key) := List.mem_mergeSort.mpr mem
    rw [sorted] at isSorted
    rcases List.mem_cons.mp isSorted with rfl | later
    · exact le_rfl
    · exact increasing.1 a later
  have equals := filter_mergeSort key members (key first)
  rw [sorted, List.filter_cons_of_pos (by simp)] at equals
  obtain ⟨front, back, rfl, others, -⟩ := List.filter_eq_cons_iff.mp equals.symm
  refine ⟨front, back, rfl, ?_, ?_⟩
  · intro a mem
    have other : key a ≠ key first := fun same => others a mem (decide_eq_true same)
    exact lt_of_le_of_ne (lowest a (List.mem_append_left _ mem)) other.symm
  · intro a mem
    exact lowest a (List.mem_append_right _ (List.mem_cons_of_mem _ mem))

/-- A list sorted by a key, with the members of each key as they were. -/
structure IsStableSort (members arranged : List α) : Prop where
  increasing : arranged.Pairwise fun a b => key a ≤ key b
  kept : ∀ own, arranged.filter (fun a => decide (key a = own)) =
    members.filter fun a => decide (key a = own)

theorem isStableSort_mergeSort (members : List α) :
    IsStableSort key members (members.mergeSort (before key)) :=
  ⟨pairwise_le_mergeSort key members, filter_mergeSort key members⟩

/-- After sorting, an earlier member has a lower key than a later one, or the same key and then
they are related as they were before. -/
theorem pairwise_mergeSort {R : α → α → Prop} {members : List α} (related : members.Pairwise R) :
    (members.mergeSort (before key)).Pairwise fun a b =>
      key a < key b ∨ key a = key b ∧ R a b := by
  apply List.pairwise_of_forall_sublist
  intro a b pair
  have ordered : key a ≤ key b := (pairwise_le_mergeSort key members).forall_sublist pair
  rcases lt_or_eq_of_le ordered with lower | equal
  · exact .inl lower
  · refine .inr ⟨equal, ?_⟩
    have equals := pair.filter fun member => decide (key member = key b)
    rw [filter_mergeSort] at equals
    simp only [equal, decide_true, List.filter_cons_of_pos, List.filter_nil] at equals
    exact (related.filter _).forall_sublist equals

/-- A member is put behind those of a lower key and in front of the others. -/
theorem orderedInsert_append {a : α} {front back : List α} (lower : ∀ b ∈ front, ¬key a ≤ key b)
    (others : ∀ b ∈ back, key a ≤ key b) :
    (front ++ back).orderedInsert (fun a b => key a ≤ key b) a = front ++ a :: back := by
  induction front with
  | nil =>
      cases back with
      | nil => rfl
      | cons b rest => exact List.orderedInsert_cons_of_le _ _ (others b List.mem_cons_self)
  | cons b rest ih =>
      have behind := List.orderedInsert_of_not_le (fun a b => key a ≤ key b) (rest ++ back)
        (lower b List.mem_cons_self)
      rw [List.cons_append, behind, ih fun c mem => lower c (List.mem_cons_of_mem _ mem)]
      rfl

/-- Sorting puts one member after the other where it belongs, from the last one on. -/
theorem mergeSort_eq_insertionSort (members : List α) :
    members.mergeSort (before key) = members.insertionSort fun a b => key a ≤ key b := by
  induction members with
  | nil => rw [List.mergeSort_nil, List.insertionSort_nil]
  | cons a rest ih =>
      obtain ⟨front, back, both, without, lower⟩ :=
        List.mergeSort_cons (before_trans key) (before_total key) a rest
      have increasing := pairwise_le_mergeSort key (a :: rest)
      rw [both] at increasing
      have others := (List.pairwise_append.mp increasing).2.1
      rw [both, List.insertionSort_cons, ← ih, without, orderedInsert_append key]
      · intro b mem
        have isLower := lower b mem
        rwa [Bool.not_eq_true', before, decide_eq_false_iff_not] at isLower
      · exact (List.pairwise_cons.mp others).1

end Eaves.Sorting
