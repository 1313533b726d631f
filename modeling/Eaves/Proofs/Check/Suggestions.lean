import Eaves.Proofs.Check.Validation

/-!
# Suggested rules put to the check

What a failed check of a spacing rule suggests instead comes from two sources.  Counts
and intervals that are searched for in a neighbourhood have passed the check that
failed, so each of them fits.  The other suggestions come from formulas, which do not
look at the check again: a wider or tighter gap leaves what its own cycle leaves, and
all lights or half of them are spread over as many lights as there are, evenly or not.

A search has guards of its own for numbers that are no counts or intervals, and for the
one that was asked for.  What it finds at a number is settled here once: one suggestion
where that number meets the check, and else none.  For each suggestion it is then said
whether it fits.
-/

namespace Eaves.Check

open Number (Binary64)
open Outcome

/-- The rule fits `n` lights: its check is satisfied. -/
def Fits (n : Int) (rule : Spacing) (settings : CheckSettings) (layerId : Option String) : Prop :=
  ∃ verdict, spacing n rule settings layerId = .ok verdict ∧ verdict.satisfied = true

/-- `n` lights divided by the gaps is nearly whole. -/
def DividesNearly (n gaps : Int) (settings : CheckSettings) : Prop :=
  ∃ step, ratio n gaps = .ok step ∧ nearInteger step settings.spacingTolerance = .ok true

/-- When a rule that is suggested instead of another fits `n` lights: a cycle where what it leaves
is at most its lit part, a count that there were too few lights for where it is one or divides them
nearly, and any other count and any interval always. -/
def FitsInstead (n : Int) (settings : CheckSettings) : (asked other : Spacing) → Prop
  | .pattern on _ _, .pattern lit gap _ => lit = on ∧ n % (on + gap) ≤ on
  | .equallySpaced count, .equallySpaced lights =>
      n < count → lights = 1 ∨ DividesNearly n (lights - 1) settings
  | .everyNth _, .everyNth _ => True
  | _, _ => False

/-! ## Rules that fit -/

section Fitting

variable {n : Int} {settings : CheckSettings} {layerId : Option String}

theorem fits_iff {rule : Spacing} :
    Fits n rule settings layerId ↔ misfit n rule settings = .ok none :=
  spacing_satisfied_iff

/-- A count that there are enough lights for fits where it is one or divides them nearly. -/
theorem fits_equallySpaced_iff {count : Int} (some : 0 < count) (enough : count ≤ n) :
    Fits n (.equallySpaced count) settings layerId ↔
      count = 1 ∨ DividesNearly n (count - 1) settings := by
  rw [fits_iff, misfit, equallySpaced, if_neg (by omega), if_neg (by omega)]
  by_cases one : count = 1
  · simp [one]
  rw [if_neg one]
  simp only [one, false_or]
  constructor
  · intro nothing
    rcases bind_eq_ok_iff.mp nothing with ⟨step, isStep, rest⟩
    rcases bind_eq_ok_iff.mp rest with ⟨near, isNear, last⟩
    cases near with
    | true => exact ⟨step, isStep, isNear⟩
    | false =>
        rcases bind_eq_ok_iff.mp last with ⟨suggestions, -, shape⟩
        rw [pure_eq_ok_iff] at shape
        cases shape
  · rintro ⟨step, isStep, isNear⟩
    rw [isStep, ok_bind, isNear, ok_bind]
    rfl

/-- A count that fits is positive, and there are enough lights for it. -/
theorem bounds_of_fits {count : Int} (fits : Fits n (.equallySpaced count) settings layerId) :
    0 < count ∧ count ≤ n := by
  rw [fits_iff, misfit, equallySpaced] at fits
  split at fits
  · cases fits
  · split at fits
    · cases fits
    · omega

/-- An interval fits where it leaves at most half of itself. -/
theorem fits_everyNth {interval : Int} (some : 0 < interval)
    (leaves : n % interval ≤ interval / 2) :
    Fits n (.everyNth interval) settings layerId := by
  rw [fits_iff, misfit, everyNth, if_neg (by omega), if_pos leaves]

theorem fits_pattern_iff {on off : Int} (lit : 0 < on) (dark : 0 ≤ off) {startLit : Bool} :
    Fits n (.pattern on off startLit) settings layerId ↔ n % (on + off) ≤ on :=
  fits_iff.trans (pattern_eq_none_iff lit dark startLit settings)

end Fitting

/-! ## The numbers of a neighbourhood -/

theorem mem_neighbours_iff {center candidate : Int} {radius : Nat} :
    candidate ∈ neighbours center radius ↔ |candidate - center| ≤ radius := by
  rw [neighbours, List.mem_map, abs_le]
  simp only [List.mem_range]
  constructor
  · rintro ⟨i, inside, rfl⟩
    omega
  · rintro ⟨low, high⟩
    exact ⟨(candidate - (center - radius)).toNat, by omega, by omega⟩

theorem pairwise_neighbours (center : Int) (radius : Nat) :
    (neighbours center radius).Pairwise (· < ·) := by
  rw [neighbours, List.pairwise_map]
  apply List.pairwise_lt_range.imp
  intro i j less
  omega

/-! ## What is found at one number -/

/-- A suggestion of the rule with another number than the one that was asked for. -/
structure SuggestsFor (rule : Int → Spacing) (wanted candidate : Int) (suggestion : Suggestion) :
    Prop where
  value_eq : suggestion.value = .spacing (rule candidate)
  deviation_eq : deviation candidate wanted = .ok suggestion.deviation

/-- What is found at one number: a suggestion where it meets the check, and nothing else. -/
inductive FoundAt (rule : Int → Spacing) (wanted : Int) (Meets : Int → Prop) (candidate : Int) :
    List Suggestion → Prop
  | one {suggestion : Suggestion} : Meets candidate →
      SuggestsFor rule wanted candidate suggestion →
      FoundAt rule wanted Meets candidate [suggestion]
  | none : ¬Meets candidate → FoundAt rule wanted Meets candidate []

/-- What is suggested at a number is suggested for it, and it meets the check. -/
theorem FoundAt.of_mem {rule : Int → Spacing} {wanted candidate : Int} {Meets : Int → Prop}
    {given : List Suggestion} (found : FoundAt rule wanted Meets candidate given)
    {suggestion : Suggestion} (mem : suggestion ∈ given) :
    Meets candidate ∧ SuggestsFor rule wanted candidate suggestion := by
  cases found with
  | one meets suggests =>
      rw [List.mem_singleton] at mem
      exact ⟨meets, mem ▸ suggests⟩
  | none => cases mem

section Searched

variable {n : Int} {settings : CheckSettings}

/-- Another count is suggested where it is one of several lights, there are enough for it, and it
divides them nearly. -/
theorem foundAt_otherCount {count candidate : Int} {given : List Suggestion}
    (isGiven : otherCount n count candidate settings = .ok given) :
    FoundAt .equallySpaced count (fun candidate => candidate ≠ count ∧ 2 ≤ candidate ∧
      candidate ≤ n ∧ DividesNearly n (candidate - 1) settings) candidate given := by
  unfold otherCount at isGiven
  split at isGiven
  · cases isGiven
    exact .none fun meets => by omega
  · rename_i inRange
    rcases bind_eq_ok_iff.mp isGiven with ⟨step, isStep, rest⟩
    rcases bind_eq_ok_iff.mp rest with ⟨near, isNear, last⟩
    cases near with
    | true =>
        rcases bind_eq_ok_iff.mp last with ⟨rounded, -, others⟩
        rcases bind_eq_ok_iff.mp others with ⟨share, isShare, shape⟩
        rw [pure_eq_ok_iff] at shape
        subst shape
        exact .one ⟨by omega, by omega, by omega, step, isStep, isNear⟩ ⟨rfl, isShare⟩
    | false =>
        cases last
        apply FoundAt.none
        rintro ⟨-, -, -, same, isSame, isNearToo⟩
        cases isStep.symm.trans isSame
        cases isNear.symm.trans isNearToo

/-- Another interval leaves less than the one asked for, and at most half of itself. -/
def LeavesLess (n interval candidate : Int) : Prop :=
  candidate ≠ interval ∧ 1 ≤ candidate ∧ n % candidate < n % interval ∧
    n % candidate ≤ candidate / 2

/-- The suggestion of another interval. -/
theorem otherInterval_of_leavesLess {interval candidate : Int}
    (less : LeavesLess n interval candidate) :
    otherInterval n interval candidate = (deviation candidate interval).map fun share =>
      [{ id := "interval_" ++ toString candidate
         label := "Every " ++ toString candidate ++ " pixels"
         deviation := share
         value := .spacing (.everyNth candidate) }] := by
  obtain ⟨other, positive, leaves⟩ := less
  rw [otherInterval, if_neg (by omega), if_pos leaves]
  cases deviation candidate interval <;> rfl

theorem otherInterval_of_not_leavesLess {interval candidate : Int}
    (notLess : ¬LeavesLess n interval candidate) :
    otherInterval n interval candidate = .ok [] := by
  unfold LeavesLess at notLess
  unfold otherInterval
  split
  · rfl
  · exact if_neg fun leaves => notLess ⟨by omega, by omega, leaves⟩

/-- Another interval is suggested where it leaves less. -/
theorem foundAt_otherInterval {interval candidate : Int} {given : List Suggestion}
    (isGiven : otherInterval n interval candidate = .ok given) :
    FoundAt .everyNth interval (LeavesLess n interval) candidate given := by
  by_cases less : LeavesLess n interval candidate
  · rw [otherInterval_of_leavesLess less] at isGiven
    cases isShare : deviation candidate interval with
    | error failure =>
        rw [isShare] at isGiven
        cases isGiven
    | ok share =>
        rw [isShare] at isGiven
        cases isGiven
        exact .one less ⟨rfl, isShare⟩
  · rw [otherInterval_of_not_leavesLess less] at isGiven
    cases isGiven
    exact .none less

end Searched

/-! ## What is suggested -/

section Suggested

variable {n : Int} {settings : CheckSettings} {suggestion : Suggestion}

/-- Ranking drops suggestions and adds none. -/
theorem mem_of_mem_ranked {suggestions : List Suggestion}
    (mem : suggestion ∈ ranked settings suggestions) : suggestion ∈ suggestions :=
  List.mem_mergeSort.mp (List.mem_of_mem_take mem)

/-- The suggestions of a verdict are those of what is found against the rule. -/
theorem exists_misfit_of_suggestion {rule : Spacing} {layerId : Option String} {verdict : Verdict}
    (checked : spacing n rule settings layerId = .ok verdict)
    (mem : suggestion ∈ verdict.suggestions) :
    ∃ found, misfit n rule settings = .ok (some found) ∧ suggestion ∈ found.suggestions := by
  rcases bind_eq_ok_iff.mp checked with ⟨found, isFound, shape⟩
  rw [pure_eq_ok_iff] at shape
  subst shape
  cases found with
  | none => cases mem
  | some found => exact ⟨found, isFound, mem⟩

/-- Another gap is suggested only where there is one, with the id asked for. -/
theorem mem_otherGap {id description : String} {on off gap : Int} {suggestions : List Suggestion}
    (given : otherGap id description on off gap = .ok suggestions)
    (mem : suggestion ∈ suggestions) :
    0 < gap ∧ suggestion.id = id ∧ suggestion.value = .spacing (.pattern on gap true) := by
  unfold otherGap at given
  split at given
  · rename_i other
    rcases bind_eq_ok_iff.mp given with ⟨share, -, shape⟩
    rw [pure_eq_ok_iff] at shape
    subst shape
    rw [List.mem_singleton] at mem
    subst mem
    exact ⟨other.1, rfl, rfl⟩
  · cases given
    cases mem

/-- A cycle is kept, or another gap is suggested for it: a wider one, or the one that fits one
cycle more. -/
theorem mem_cycleSuggestions {on off : Int} {startLit : Bool} {suggestions : List Suggestion}
    (given : cycleSuggestions n on off startLit settings = .ok suggestions)
    (mem : suggestion ∈ suggestions) :
    (suggestion.id = "original" ∧ suggestion.value = .spacing (.pattern on off startLit)) ∨
      ∃ gap, 0 < gap ∧ suggestion.value = .spacing (.pattern on gap true) ∧
        (suggestion.id = "stretch" ∨ suggestion.id = "compress" ∧
          gap = n.fdiv (n / (on + off) + 1) - on) := by
  -- with full cycles or without, the wider gaps come first and the tighter ones are added
  have added : ∃ wider kept,
      (kept.id = "original" ∧ kept.value = .spacing (.pattern on off startLit)) ∧
      (suggestion ∈ wider → ∃ gap, 0 < gap ∧ suggestion.id = "stretch" ∧
        suggestion.value = .spacing (.pattern on gap true)) ∧
      (do
        let gap ← compressed n on (n / (on + off))
        let tighter ← otherGap "compress" "Tighter gaps so the pattern ends cleanly" on off gap
        return wider ++ tighter ++ [kept]) = .ok suggestions := by
    simp only [cycleSuggestions] at given
    split at given
    · rcases bind_eq_ok_iff.mp given with ⟨gap, -, rest⟩
      rcases bind_eq_ok_iff.mp rest with ⟨wider, isWider, tighten⟩
      exact ⟨wider, _, ⟨rfl, rfl⟩, fun inside => ⟨gap, mem_otherGap isWider inside⟩, tighten⟩
    · exact ⟨[], _, ⟨rfl, rfl⟩, by simp, given⟩
  rcases added with ⟨wider, kept, isKept, stretches, rest⟩
  rcases bind_eq_ok_iff.mp rest with ⟨gap, isGap, others⟩
  rcases bind_eq_ok_iff.mp others with ⟨tighter, isTighter, shape⟩
  rw [pure_eq_ok_iff] at shape
  subst shape
  rw [List.mem_append, List.mem_append, List.mem_singleton] at mem
  rcases mem with (stretch | compress) | original
  · obtain ⟨wideGap, dark, isId, isValue⟩ := stretches stretch
    exact .inr ⟨wideGap, dark, isValue, .inl isId⟩
  · obtain ⟨dark, isId, isValue⟩ := mem_otherGap isTighter compress
    unfold compressed at isGap
    split at isGap
    · cases isGap
    · cases isGap
      exact .inr ⟨_, dark, isValue, .inr ⟨isId, rfl⟩⟩
  · exact .inl (original ▸ isKept)

/-- Where there are too few lights, all of them or half of them are suggested. -/
theorem mem_everyLight_or_halfTheLights
    (mem : suggestion ∈ everyLight n ++ halfTheLights n) :
    ∃ lights, 0 < lights ∧ lights ≤ n ∧ suggestion.value = .spacing (.equallySpaced lights) := by
  rcases List.mem_append.mp mem with all | half
  · unfold everyLight at all
    split at all
    · rw [List.mem_singleton] at all
      exact ⟨n, by omega, le_refl n, all ▸ rfl⟩
    · cases all
  · unfold halfTheLights at half
    split at half
    · rw [List.mem_singleton] at half
      exact ⟨n / 2, by omega, by omega, half ▸ rfl⟩
    · cases half

/-- What is suggested for one of some numbers is suggested for that number. -/
theorem exists_mem_of_mem_flatten {suggest : Int → Outcome (List Suggestion)}
    {candidates : List Int} {found : List (List Suggestion)}
    (computed : candidates.mapM suggest = .ok found) (mem : suggestion ∈ found.flatten) :
    ∃ candidate suggestions, suggest candidate = .ok suggestions ∧ suggestion ∈ suggestions := by
  rcases List.mem_flatten.mp mem with ⟨suggestions, isOne, inside⟩
  rcases exists_mem_of_mapM computed isOne with ⟨candidate, -, isFound⟩
  exact ⟨candidate, suggestions, isFound, inside⟩

/-- Instead of a cycle, another gap is suggested unless the cycle is kept. -/
theorem exists_gap_of_suggestion {on off : Int} (lit : 0 < on) (dark : 0 ≤ off) {startLit : Bool}
    {found : Misfit} (isFound : pattern n on off startLit settings = .ok (some found))
    (mem : suggestion ∈ found.suggestions) (changes : suggestion.id ≠ "original") :
    ∃ gap, 0 < gap ∧ suggestion.value = .spacing (.pattern on gap true) ∧
      (suggestion.id = "stretch" ∨ suggestion.id = "compress" ∧
        gap = n.fdiv (n / (on + off) + 1) - on) := by
  rw [pattern, if_neg (by omega)] at isFound
  split at isFound
  · cases isFound
  · rcases bind_eq_ok_iff.mp isFound with ⟨suggestions, given, shape⟩
    rw [pure_eq_ok_iff, Option.some.injEq] at shape
    subst shape
    exact (mem_cycleSuggestions given (mem_of_mem_ranked mem)).resolve_left
      fun kept => changes kept.1

/-- Where there are enough lights, what is suggested instead of a count comes from a search. -/
theorem exists_search_of_equallySpaced {count : Int} (positive : 0 < count) (enough : count ≤ n)
    {found : Misfit} (isFound : equallySpaced n count settings = .ok (some found)) :
    ∃ lists, (neighbours count settings.countRadius.val).mapM
        (fun candidate => otherCount n count candidate settings) = .ok lists ∧
      found.suggestions = ranked settings lists.flatten := by
  rw [equallySpaced, if_neg (by omega), if_neg (by omega)] at isFound
  split at isFound
  · cases isFound
  · rcases bind_eq_ok_iff.mp isFound with ⟨step, -, rest⟩
    rcases bind_eq_ok_iff.mp rest with ⟨near, -, last⟩
    split at last
    · cases last
    · rcases bind_eq_ok_iff.mp last with ⟨lists, searched, shape⟩
      rw [pure_eq_ok_iff, Option.some.injEq] at shape
      subst shape
      exact ⟨lists, searched, rfl⟩

/-- What is suggested instead of an interval comes from a search that found something. -/
theorem exists_search_of_everyNth {interval : Int} (positive : 0 < interval) {found : Misfit}
    (isFound : everyNth n interval settings = .ok (some found)) :
    ∃ lists, (neighbours interval settings.intervalRadius.val).mapM
        (otherInterval n interval) = .ok lists ∧
      lists.flatten ≠ [] ∧ found.suggestions = ranked settings lists.flatten := by
  rw [everyNth, if_neg (by omega)] at isFound
  split at isFound
  · cases isFound
  · rcases bind_eq_ok_iff.mp isFound with ⟨lists, searched, rest⟩
    dsimp only at rest
    split at rest
    · cases rest
    · rename_i something
      rw [pure_eq_ok_iff, Option.some.injEq] at rest
      subst rest
      exact ⟨lists, searched, fun nothing => something (List.isEmpty_iff.mpr nothing), rfl⟩

/-- Instead of a count, another one is suggested that there are enough lights for; if there were
enough for the first, the other divides them nearly. -/
theorem exists_count_of_suggestion {count : Int} (positive : 0 < count) {found : Misfit}
    (isFound : equallySpaced n count settings = .ok (some found))
    (mem : suggestion ∈ found.suggestions) :
    ∃ lights, 0 < lights ∧ lights ≤ n ∧ suggestion.value = .spacing (.equallySpaced lights) ∧
      (count ≤ n → DividesNearly n (lights - 1) settings) := by
  by_cases tooFew : n < count
  · rw [equallySpaced, if_neg (by omega), if_pos tooFew] at isFound
    cases isFound
    rcases mem_everyLight_or_halfTheLights (mem_of_mem_ranked mem) with
      ⟨lights, lit, enough, isValue⟩
    exact ⟨lights, lit, enough, isValue, fun enoughAsked => absurd tooFew (by omega)⟩
  · obtain ⟨lists, searched, isRanked⟩ :=
      exists_search_of_equallySpaced positive (by omega) isFound
    rw [isRanked] at mem
    rcases exists_mem_of_mem_flatten searched (mem_of_mem_ranked mem) with
      ⟨candidate, others, given, inside⟩
    obtain ⟨⟨-, several, enough, divides⟩, suggests⟩ := (foundAt_otherCount given).of_mem inside
    exact ⟨candidate, by omega, enough, suggests.value_eq, fun _ => divides⟩

/-- Instead of an interval, another one is suggested that leaves at most half of itself. -/
theorem exists_interval_of_suggestion {interval : Int} (positive : 0 < interval) {found : Misfit}
    (isFound : everyNth n interval settings = .ok (some found))
    (mem : suggestion ∈ found.suggestions) :
    ∃ candidate, 0 < candidate ∧ n % candidate ≤ candidate / 2 ∧
      suggestion.value = .spacing (.everyNth candidate) := by
  obtain ⟨lists, searched, -, isRanked⟩ := exists_search_of_everyNth positive isFound
  rw [isRanked] at mem
  rcases exists_mem_of_mem_flatten searched (mem_of_mem_ranked mem) with
    ⟨candidate, others, given, inside⟩
  obtain ⟨⟨-, some, -, leaves⟩, suggests⟩ := (foundAt_otherInterval given).of_mem inside
  exact ⟨candidate, some, leaves, suggests.value_eq⟩

/-- Whatever is suggested instead of a rule is a rule, also where the number of lights is out of
all bounds. -/
theorem exists_rule_of_suggestion {rule : Spacing} {found : Misfit}
    (isFound : misfit n rule settings = .ok (some found))
    (mem : suggestion ∈ found.suggestions) :
    ∃ other : Spacing, suggestion.value = .spacing other := by
  cases rule with
  | pattern on off startLit =>
      rw [misfit, pattern] at isFound
      split at isFound
      · cases isFound
        cases mem
      split at isFound
      · cases isFound
      · rcases bind_eq_ok_iff.mp isFound with ⟨suggestions, given, shape⟩
        rw [pure_eq_ok_iff, Option.some.injEq] at shape
        subst shape
        rcases mem_cycleSuggestions given (mem_of_mem_ranked mem) with
          ⟨-, isKept⟩ | ⟨gap, -, isValue, -⟩
        · exact ⟨_, isKept⟩
        · exact ⟨_, isValue⟩
  | equallySpaced count =>
      by_cases positive : 0 < count
      · rcases exists_count_of_suggestion positive isFound mem with ⟨lights, -, -, isValue, -⟩
        exact ⟨_, isValue⟩
      · rw [misfit, equallySpaced, if_pos (by omega)] at isFound
        cases isFound
        cases mem
  | everyNth interval =>
      by_cases positive : 0 < interval
      · rcases exists_interval_of_suggestion positive isFound mem with ⟨candidate, -, -, isValue⟩
        exact ⟨_, isValue⟩
      · rw [misfit, everyNth, if_pos (by omega)] at isFound
        cases isFound
        cases mem
  | anchorsOnly => cases isFound
  | continuous => cases isFound

/-- The choices of a flag that the checks raise are rules. -/
theorem Raises.exists_rule {roofline : Roofline} {present : Layer} {flag : Ambiguity}
    (raises : Raises roofline settings present flag) {choice : Choice}
    (mem : choice ∈ flag.choices) : ∃ rule : Spacing, choice.value = .spacing rule := by
  obtain ⟨n, rule, verdict, isVerdict, rfl⟩ := raises.exists_verdict
  rcases exists_suggestion_of_mem_choicesFor mem with ⟨suggestion, suggested, sameValue⟩
  rcases exists_misfit_of_suggestion isVerdict suggested with ⟨found, isFound, inside⟩
  rcases exists_rule_of_suggestion isFound inside with ⟨other, isValue⟩
  exact ⟨other, sameValue.trans isValue⟩

end Suggested

/-! ## Whether a suggestion fits -/

/-- Where a cycle is complete at most as often as it has lit lights, tightening it to fit once more
leaves no more than its lit part. -/
theorem compressed_leaves_le {n on cycle : Int} (nonneg : 0 ≤ n) (whole : 0 < cycle)
    (room : 0 < n.fdiv (n / cycle + 1) - on) (few : n / cycle ≤ on) :
    n % (on + (n.fdiv (n / cycle + 1) - on)) ≤ on := by
  have cycles : 0 ≤ n / cycle := Int.ediv_nonneg nonneg whole.le
  generalize n / cycle = full at *
  rw [Int.fdiv_eq_ediv_of_nonneg _ (by omega)] at room ⊢
  have left : n % (full + 1) < full + 1 := Int.emod_lt_of_pos n (by omega)
  have leftNonneg : 0 ≤ n % (full + 1) := Int.emod_nonneg n (by omega)
  have split := Int.emod_add_mul_ediv n (full + 1)
  generalize n / (full + 1) = length at *
  generalize n % (full + 1) = rest at *
  have remains : n % length = rest := by
    rw [← split, Int.add_mul_emod_self_right, Int.emod_eq_of_lt leftNonneg (by omega)]
  rw [add_sub_cancel, remains]
  omega

/-- Other than keeping a cycle that does not fit, what is suggested is a rule of the same kind that
a strip could satisfy.  Counts and intervals found by searching fit.  Another gap fits exactly where
its own cycle leaves at most the lit part, which a tighter one does if the cycle is complete at most
as often as it has lit lights; all lights, or half of them, fit exactly where that count is one or
divides the lights nearly. -/
theorem suggestions_fit_iff {n : Int} (nonneg : 0 ≤ n) {rule : Spacing}
    (valid : rule.hasValidParameters = true) {settings : CheckSettings}
    {layerId : Option String} {verdict : Verdict}
    (checked : spacing n rule settings layerId = .ok verdict) {suggestion : Suggestion}
    (mem : suggestion ∈ verdict.suggestions) (changes : suggestion.id ≠ "original") :
    ∃ other : Spacing, suggestion.value = .spacing other ∧ other.hasValidParameters = true ∧
      (Fits n other settings layerId ↔ FitsInstead n settings rule other) ∧
      ∀ on off startLit, rule = .pattern on off startLit → suggestion.id = "compress" →
        n / (on + off) ≤ on → Fits n other settings layerId := by
  rcases exists_misfit_of_suggestion checked mem with ⟨found, isFound, suggested⟩
  cases rule with
  | pattern on off startLit =>
      obtain ⟨lit, dark⟩ : 0 < on ∧ 0 ≤ off := of_decide_eq_true valid
      rcases exists_gap_of_suggestion lit dark isFound suggested changes with
        ⟨gap, some, isValue, isId⟩
      have fits : Fits n (.pattern on gap true) settings layerId ↔ n % (on + gap) ≤ on :=
        fits_pattern_iff lit some.le
      refine ⟨.pattern on gap true, isValue, decide_eq_true ⟨lit, some.le⟩, ?_, ?_⟩
      · rw [fits, FitsInstead, and_iff_right rfl]
      · rintro _ _ _ ⟨⟩ compress few
        rcases isId with stretch | ⟨-, rfl⟩
        · rw [stretch] at compress
          exact absurd compress (by decide)
        · exact fits.mpr (compressed_leaves_le nonneg (by omega) some few)
  | equallySpaced count =>
      rcases exists_count_of_suggestion (of_decide_eq_true valid) isFound suggested with
        ⟨lights, some, enough, isValue, divides⟩
      refine ⟨.equallySpaced lights, isValue, decide_eq_true some, ?_, by rintro _ _ _ ⟨⟩⟩
      rw [fits_equallySpaced_iff some enough, FitsInstead]
      constructor
      · intro fits _
        exact fits
      · intro fits
        by_cases tooFew : n < count
        · exact fits tooFew
        · exact .inr (divides (by omega))
  | everyNth interval =>
      rcases exists_interval_of_suggestion (of_decide_eq_true valid) isFound suggested with
        ⟨candidate, some, leaves, isValue⟩
      refine ⟨.everyNth candidate, isValue, decide_eq_true some, ?_, by rintro _ _ _ ⟨⟩⟩
      exact iff_of_true (fits_everyNth some leaves) trivial
  | anchorsOnly => cases isFound
  | continuous => cases isFound

/-! ## Gaps for eleven lights -/

/-- Ranking keeps the suggestions where they are no more than may be made. -/
theorem mem_ranked_iff_of_few {settings : CheckSettings} {suggestions : List Suggestion}
    (few : suggestions.length ≤ settings.maxAlternatives.val) {suggestion : Suggestion} :
    suggestion ∈ ranked settings suggestions ↔ suggestion ∈ suggestions := by
  rw [ranked, List.take_of_length_le (by rw [List.length_mergeSort]; exact few),
    List.mem_mergeSort]

/-- The rule that a value holds. -/
def ruleOf? : Value → Option Spacing
  | .spacing rule => some rule
  | _ => none

theorem ruleOf?_eq_some_iff {value : Value} {rule : Spacing} :
    ruleOf? value = some rule ↔ value = .spacing rule := by
  cases value <;> simp [ruleOf?]

/-- What is seen of a suggestion: its id, and its rule. -/
def viewed (suggestion : Suggestion) : String × Option Spacing :=
  (suggestion.id, ruleOf? suggestion.value)

theorem viewed_elevenLights :
    ((cycleSuggestions 11 1 2 true {}).map (List.map viewed)).toOption =
      some [("stretch", some (.pattern 1 3 true)), ("compress", some (.pattern 1 1 true)),
        ("original", some (.pattern 1 2 true))] := by
  decide +kernel

/-- One light on and two off leave two of eleven lights, and both a wider and a tighter gap are
suggested instead. -/
theorem exists_gaps_elevenLights :
    ∃ verdict, spacing 11 (.pattern 1 2 true) {} none = .ok verdict ∧ verdict.satisfied = false ∧
      (∃ suggestion ∈ verdict.suggestions, suggestion.id = "stretch" ∧
        suggestion.value = .spacing (.pattern 1 3 true)) ∧
      ∃ suggestion ∈ verdict.suggestions, suggestion.id = "compress" ∧
        suggestion.value = .spacing (.pattern 1 1 true) := by
  obtain ⟨suggestions, given, listed⟩ := exists_ok_of_toOption viewed_elevenLights
  have few : suggestions.length ≤ ({} : CheckSettings).maxAlternatives.val := by
    rw [← List.length_map viewed, listed]
    decide
  have suggests : ∀ id rule, (id, some rule) ∈ suggestions.map viewed →
      ∃ suggestion ∈ ranked {} suggestions,
        suggestion.id = id ∧ suggestion.value = .spacing rule := by
    intro id rule mem
    rcases List.mem_map.mp mem with ⟨suggestion, inside, isViewed⟩
    rcases Prod.mk.injEq .. ▸ isViewed with ⟨isId, isRule⟩
    exact ⟨suggestion, (mem_ranked_iff_of_few few).mpr inside, isId,
      ruleOf?_eq_some_iff.mp isRule⟩
  have checked : ∃ reason, misfit 11 (.pattern 1 2 true) {} =
      .ok (some ⟨reason, ranked {} suggestions⟩) := by
    rw [misfit, pattern, if_neg (by decide), if_neg (by decide), given]
    exact ⟨_, rfl⟩
  rcases checked with ⟨reason, checked⟩
  refine ⟨_, by rw [spacing, checked]; rfl, rfl, suggests "stretch" _ ?_,
    suggests "compress" _ ?_⟩
  · rw [listed]
    exact List.mem_cons_self
  · rw [listed]
    exact List.mem_cons_of_mem _ List.mem_cons_self

/-- Of the gaps suggested for one light on and two off over eleven lights, the tighter one fits: it
leaves one light. -/
theorem suggestions_fit_iff_elevenLights :
    (0 : Int) ≤ 11 ∧ (Spacing.pattern 1 2 true).hasValidParameters = true ∧
      ∃ verdict, spacing 11 (.pattern 1 2 true) {} none = .ok verdict ∧
        ∃ suggestion ∈ verdict.suggestions, suggestion.id ≠ "original" ∧
          suggestion.value = .spacing (.pattern 1 1 true) ∧
          Fits 11 (.pattern 1 1 true) {} none := by
  rcases exists_gaps_elevenLights with
    ⟨verdict, checked, -, -, suggestion, mem, isId, isValue⟩
  have changes : suggestion.id ≠ "original" := by
    rw [isId]
    decide
  rcases suggestions_fit_iff (by decide) (by decide) checked mem changes with
    ⟨other, otherValue, -, agrees, -⟩
  rw [isValue] at otherValue
  cases otherValue
  exact ⟨by decide, by decide, verdict, checked, suggestion, mem, changes, isValue,
    agrees.mpr ⟨rfl, by decide⟩⟩

/-- Stretching one light on and two off over eleven lights is suggested so that the pattern ends
cleanly, but it leaves three lights and the check refuses it. -/
theorem stretch_suggested_but_unfit :
    ∃ verdict, spacing 11 (.pattern 1 2 true) {} none = .ok verdict ∧
      (Spacing.pattern 1 2 true).hasValidParameters = true ∧
      ∃ suggestion ∈ verdict.suggestions, suggestion.id ≠ "original" ∧
        suggestion.value = .spacing (.pattern 1 3 true) ∧
        ¬Fits 11 (.pattern 1 3 true) {} none := by
  rcases exists_gaps_elevenLights with
    ⟨verdict, checked, -, ⟨suggestion, mem, isId, isValue⟩, -⟩
  refine ⟨verdict, checked, by decide, suggestion, mem, ?_, isValue, ?_⟩
  · rw [isId]
    decide
  · rw [fits_pattern_iff (by decide) (by decide)]
    decide

end Eaves.Check
