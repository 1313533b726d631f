import Eaves.Proofs.Check.Suggestions
import Eaves.Proofs.Sorting

/-!
# What a neighbourhood search finds

A count or an interval that does not fit is looked for again in a neighbourhood, whose
numbers are gone over in order.  At each of them one suggestion is found, or none, so
what is found is a list of numbers, each with its suggestion, and these are the numbers
that meet the check.

Ranking sorts by the deviation alone, but keeps the order of the search where that is
equal; there the smaller number comes first.
-/

namespace Eaves.Check

open Number (Binary64)
open Outcome

/-! ## What is found -/

section Found

variable {rule : Int → Spacing} {wanted : Int} {Meets : Int → Prop} {settings : CheckSettings}

/-- Suggestions that come from a search: the numbers found are those that meet the check, each with
a suggestion of its own.  They stand in order of deviation, and of two that deviate equally the
smaller one comes first.  The suggestions are the first of them, as many as may be made. -/
structure IsSearch (settings : CheckSettings) (rule : Int → Spacing) (wanted : Int)
    (Meets : Int → Prop) (found : List (Int × Suggestion)) (suggestions : List Suggestion) :
    Prop where
  complete : ∀ candidate, candidate ∈ found.map Prod.fst ↔ Meets candidate
  suggests : ∀ pair ∈ found, SuggestsFor rule wanted pair.1 pair.2
  nearest : found.Pairwise fun a b => a.2.deviation.lt b.2.deviation = true ∨
    a.2.deviation = b.2.deviation ∧ a.1 < b.1
  cut : suggestions = (found.take settings.maxAlternatives.val).map Prod.snd

section Deviation

variable {candidate other : Int} {suggestion next : Suggestion}
  (suggests : SuggestsFor rule wanted candidate suggestion)
  (suggestsNext : SuggestsFor rule wanted other next)

include suggests

/-- How far a suggestion deviates is a finite number. -/
theorem SuggestsFor.exists_finite : ∃ share, suggestion.deviation = .finite share :=
  Binary64.exists_finite_of_quotient (liftNumber_eq_ok_iff.mp suggests.deviation_eq)

include suggestsNext

theorem SuggestsFor.lt_eq : suggestion.deviation.lt next.deviation =
    decide (suggestion.deviation.toRat < next.deviation.toRat) := by
  obtain ⟨share, isShare⟩ := suggests.exists_finite
  obtain ⟨nextShare, isNextShare⟩ := suggestsNext.exists_finite
  rw [isShare, isNextShare]
  rfl

theorem SuggestsFor.deviation_eq_of_toRat_eq
    (same : suggestion.deviation.toRat = next.deviation.toRat) :
    suggestion.deviation = next.deviation := by
  obtain ⟨share, isShare⟩ := suggests.exists_finite
  obtain ⟨nextShare, isNextShare⟩ := suggestsNext.exists_finite
  rw [isShare, isNextShare] at same ⊢
  exact congrArg Binary64.finite same

end Deviation

/-- Searching numbers in order finds those that meet the check, in order. -/
theorem exists_found_of_mapM {suggest : Int → Outcome (List Suggestion)}
    (each : ∀ candidate given, suggest candidate = .ok given →
      FoundAt rule wanted Meets candidate given)
    {candidates : List Int} (ascending : candidates.Pairwise (· < ·))
    {lists : List (List Suggestion)} (searched : candidates.mapM suggest = .ok lists) :
    ∃ found : List (Int × Suggestion), lists.flatten = found.map Prod.snd ∧
      (found.Pairwise fun a b => a.1 < b.1) ∧
      (∀ candidate, candidate ∈ found.map Prod.fst ↔ candidate ∈ candidates ∧ Meets candidate) ∧
      ∀ pair ∈ found, SuggestsFor rule wanted pair.1 pair.2 := by
  rw [mapM_eq_ok_iff] at searched
  induction searched with
  | nil => exact ⟨[], rfl, .nil, by simp, by simp⟩
  | @cons candidate given candidates lists first _ ih =>
      obtain ⟨before, ascending⟩ := List.pairwise_cons.mp ascending
      obtain ⟨found, flat, ordered, complete, suggests⟩ := ih ascending
      -- later numbers are greater, so this one comes first if it is found
      cases each _ _ first with
      | none unmet =>
          refine ⟨found, flat, ordered, ?_, suggests⟩
          intro other
          rw [complete, List.mem_cons]
          constructor
          · rintro ⟨mem, meets⟩
            exact ⟨.inr mem, meets⟩
          · rintro ⟨rfl | mem, meets⟩
            · exact absurd meets unmet
            · exact ⟨mem, meets⟩
      | @one suggestion meets suggested =>
          refine ⟨(candidate, suggestion) :: found, ?_, List.pairwise_cons.mpr ⟨?_, ordered⟩,
            ?_, ?_⟩
          · rw [List.flatten_cons, flat, List.map_cons, List.singleton_append]
          · intro pair mem
            exact before _ ((complete pair.1).mp (List.mem_map_of_mem mem)).1
          · intro other
            rw [List.map_cons, List.mem_cons, complete, List.mem_cons]
            constructor
            · rintro (rfl | ⟨mem, isMet⟩)
              · exact ⟨.inl rfl, meets⟩
              · exact ⟨.inr mem, isMet⟩
            · rintro ⟨rfl | mem, isMet⟩
              · exact .inl rfl
              · exact .inr ⟨mem, isMet⟩
          · exact List.forall_mem_cons.mpr ⟨suggested, suggests⟩

theorem IsSearch.congr {Other : Int → Prop} {found : List (Int × Suggestion)}
    {suggestions : List Suggestion} (search : IsSearch settings rule wanted Meets found suggestions)
    (same : ∀ candidate, Meets candidate ↔ Other candidate) :
    IsSearch settings rule wanted Other found suggestions :=
  { search with complete := fun candidate => (search.complete candidate).trans (same candidate) }

/-- Numbers that are found in order are ranked by deviation, and the smaller one comes first where
that is equal. -/
theorem exists_isSearch_of_found {found : List (Int × Suggestion)}
    (ordered : found.Pairwise fun a b => a.1 < b.1)
    (complete : ∀ candidate, candidate ∈ found.map Prod.fst ↔ Meets candidate)
    (suggests : ∀ pair ∈ found, SuggestsFor rule wanted pair.1 pair.2) :
    ∃ arranged, IsSearch settings rule wanted Meets arranged
      (ranked settings (found.map Prod.snd)) := by
  -- all deviations are finite, so ranking compares the rationals that they stand for
  let key : Int × Suggestion → Rat := fun pair => pair.2.deviation.toRat
  let arranged := found.mergeSort (Sorting.before key)
  have same : arranged.Perm found := List.mergeSort_perm found _
  have sorted : arranged.map Prod.snd =
      (found.map Prod.snd).mergeSort fun a b => !b.deviation.lt a.deviation := by
    apply List.map_mergeSort
    intro a aMem b bMem
    change decide (a.2.deviation.toRat ≤ b.2.deviation.toRat) = _
    rw [(suggests b bMem).lt_eq (suggests a aMem), ← decide_not]
    exact decide_eq_decide.mpr not_lt.symm
  refine ⟨arranged, ?_, ?_, ?_, ?_⟩
  · intro candidate
    rw [← complete]
    exact (same.map Prod.fst).mem_iff
  · intro pair mem
    exact suggests pair (same.subset mem)
  · apply (Sorting.pairwise_mergeSort key ordered).imp_of_mem
    intro a b aMem bMem related
    have suggestsA := suggests a (same.subset aMem)
    have suggestsB := suggests b (same.subset bMem)
    rcases related with less | ⟨equal, smaller⟩
    · rw [suggestsA.lt_eq suggestsB]
      exact .inl (decide_eq_true less)
    · exact .inr ⟨suggestsA.deviation_eq_of_toRat_eq suggestsB equal, smaller⟩
  · rw [ranked, ← sorted, List.map_take]

/-- A search of a neighbourhood, ranked and cut: it finds the numbers of the neighbourhood that meet
the check. -/
theorem exists_isSearch_of_mapM (settings : CheckSettings)
    {suggest : Int → Outcome (List Suggestion)}
    (each : ∀ candidate given, suggest candidate = .ok given →
      FoundAt rule wanted Meets candidate given)
    {radius : Nat} {lists : List (List Suggestion)}
    (searched : (neighbours wanted radius).mapM suggest = .ok lists) :
    ∃ found, IsSearch settings rule wanted
      (fun candidate => |candidate - wanted| ≤ radius ∧ Meets candidate) found
      (ranked settings lists.flatten) := by
  obtain ⟨found, flat, ordered, complete, suggests⟩ :=
    exists_found_of_mapM each (pairwise_neighbours wanted radius) searched
  rw [flat]
  apply exists_isSearch_of_found ordered _ suggests
  intro candidate
  rw [complete, mem_neighbours_iff]

end Found

/-! ## Counts and intervals -/

section Searches

variable {n : Int} {settings : CheckSettings} {layerId : Option String}

/-- Where a rule does not fit, what is suggested is what was found against it. -/
theorem exists_misfit_of_unsatisfied {rule : Spacing} {verdict : Verdict}
    (checked : spacing n rule settings layerId = .ok verdict)
    (unsatisfied : verdict.satisfied = false) :
    ∃ found, misfit n rule settings = .ok (some found) ∧
      verdict.suggestions = found.suggestions := by
  rcases bind_eq_ok_iff.mp checked with ⟨found, isFound, shape⟩
  rw [pure_eq_ok_iff] at shape
  subst shape
  cases found with
  | none => cases unsatisfied
  | some found => exact ⟨found, isFound, rfl⟩

/-- An interval does not fit where more than half of it remains and one of the neighbourhood leaves
less. -/
theorem not_fits_everyNth_iff {interval : Int} (positive : 0 < interval) :
    ¬Fits n (.everyNth interval) settings layerId ↔
      interval / 2 < n % interval ∧ ∃ candidate,
        |candidate - interval| ≤ settings.intervalRadius.val ∧ LeavesLess n interval candidate := by
  rw [fits_iff, misfit, everyNth, if_neg (by omega)]
  by_cases leaves : n % interval ≤ interval / 2
  · rw [if_pos leaves]
    exact iff_of_false (fun fits => fits rfl) (fun unfit => by omega)
  rw [if_neg leaves, and_iff_right (by omega)]
  constructor
  · intro unfit
    by_contra nothing
    push Not at nothing
    apply unfit
    have searched : (neighbours interval settings.intervalRadius.val).mapM
        (otherInterval n interval) = .ok (List.map (fun _ => [])
          (neighbours interval settings.intervalRadius.val)) := by
      apply mapM_eq_ok_map
      intro candidate mem
      exact otherInterval_of_not_leavesLess (nothing candidate (mem_neighbours_iff.mp mem))
    rw [searched]
    simp
  · rintro ⟨candidate, near, less⟩ nothing
    rcases bind_eq_ok_iff.mp nothing with ⟨lists, searched, rest⟩
    obtain ⟨found, flat, -, complete, -⟩ :=
      exists_found_of_mapM (fun _ _ => foundAt_otherInterval) (pairwise_neighbours _ _) searched
    have inside := (complete candidate).mpr ⟨mem_neighbours_iff.mpr near, less⟩
    dsimp only at rest
    split at rest
    · rename_i empty
      rw [List.isEmpty_iff, flat, List.map_eq_nil_iff] at empty
      rw [empty] at inside
      cases inside
    · cases rest

/-- Ranking leaves something of what there is. -/
theorem ranked_ne_nil {suggestions : List Suggestion} (something : suggestions ≠ []) :
    ranked settings suggestions ≠ [] := by
  intro nothing
  rw [ranked, List.take_eq_nil_iff] at nothing
  rcases nothing with none | empty
  · exact absurd none settings.maxAlternatives.property.ne'
  · apply something
    rw [← List.length_eq_zero_iff, ← List.length_mergeSort, empty, List.length_nil]

/-- Intervals can be checked against any number of lights, as long as the neighbourhood is not out
of all bounds. -/
theorem everyNth_succeeds {interval : Int} (positive : 0 < interval)
    (near : settings.intervalRadius.val ≤ 2 ^ 250) :
    ∃ verdict, spacing n (.everyNth interval) settings layerId = .ok verdict := by
  have each : ∀ candidate ∈ neighbours interval settings.intervalRadius.val,
      ∃ given, otherInterval n interval candidate = .ok given := by
    intro candidate mem
    by_cases less : LeavesLess n interval candidate
    · have distance : ((candidate - interval).natAbs : Int) ≤ 2 ^ 250 := by
        have := mem_neighbours_iff.mp mem
        rw [← Int.abs_eq_natAbs]
        omega
      have small : |(((candidate - interval).natAbs : Int) : Rat) / interval| ≤ 2 ^ 250 := by
        apply (Binary64.abs_ratio_le positive.ne').trans
        rw [abs_of_nonneg (by positivity)]
        exact_mod_cast distance
      rw [otherInterval_of_leavesLess less, deviation, Binary64.quotient_eq positive.ne' small]
      exact ⟨_, rfl⟩
    · exact ⟨[], otherInterval_of_not_leavesLess less⟩
  obtain ⟨lists, searched⟩ := mapM_succeeds each
  have returned : ∃ found, misfit n (.everyNth interval) settings = .ok found := by
    rw [misfit, everyNth, if_neg (by omega)]
    split
    · exact ⟨none, rfl⟩
    · rw [searched, ok_bind]
      dsimp only
      split
      · exact ⟨none, rfl⟩
      · exact ⟨_, rfl⟩
  obtain ⟨found, isFound⟩ := returned
  rw [spacing, isFound]
  exact ⟨_, rfl⟩

end Searches

end Eaves.Check
