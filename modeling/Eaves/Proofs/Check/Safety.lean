import Eaves.Proofs.Check.Suggestions
import Eaves.Proofs.Number.Grid
import Eaves.Proofs.Sorting
import Mathlib.Order.WithBot

/-!
# Checks of spacing rules are safe

A check of a spacing rule divides by the length of a cycle, by its dark part, by the
number of full cycles and by one more, by a count, by the gaps between the lights of a
count, and by every number of a neighbourhood.  Each of these could be zero, were it not
for a guard some branches earlier; remainders are told here by a division that fails at
zero, and the checks written with it are the same.

No ratio is out of range either, so every rule gets a verdict.  What is suggested
deviates by a share that is not negative, since it is a distance divided by something
positive, or comes from settings that were checked.  Shares that are not negative can be
compared with each other, so ranking puts them in order.
-/

namespace Eaves.Check

open Number (Binary64)
open Outcome

/-! ## Divisions that can fail -/

/-- The floor of a ratio of integers; there is none where the divisor is zero. -/
def floorRatio (n d : Int) : Outcome Int :=
  if d = 0 then .error (.number .zeroDivisor) else .ok (n.fdiv d)

/-- What a floored ratio of integers leaves; it leaves nothing where the divisor is zero. -/
def floorRest (n d : Int) : Outcome Int :=
  if d = 0 then .error (.number .zeroDivisor) else .ok (n.fmod d)

theorem floorRatio_of_pos {n d : Int} (positive : 0 < d) : floorRatio n d = .ok (n / d) := by
  rw [floorRatio, if_neg positive.ne', Int.fdiv_eq_ediv_of_nonneg n positive.le]

theorem floorRest_of_pos {n d : Int} (positive : 0 < d) : floorRest n d = .ok (n % d) := by
  rw [floorRest, if_neg positive.ne', Int.fmod_eq_emod_of_nonneg n positive.le]

/-- The check of a cycle, by divisions that fail at zero. -/
def strictPattern (n on off : Int) (startLit : Bool) (settings : CheckSettings) :
    Outcome (Option Misfit) :=
  if on ≤ 0 ∨ off < 0 then
    .ok (some { reason := "Invalid spacing: " ++ cycleLabel on off })
  else do
    let fullCycles ← floorRatio n (on + off)
    let rest ← floorRest n (on + off)
    if rest ≤ on then return none
    else do
      let wider ←
        if 0 < fullCycles then do
          otherGap "stretch" "Wider gaps so the pattern ends cleanly" on off
            (← stretched n on fullCycles)
        else .ok []
      let length ← floorRatio n (fullCycles + 1)
      let tighter ← otherGap "compress" "Tighter gaps so the pattern ends cleanly" on off
        (length - on)
      let asAsked : Suggestion :=
        { id := "original"
          label := cycleLabel on off ++ " (with remainder)"
          description := "Keep the pattern; the last " ++ toString rest ++
            " pixels break the rhythm"
          deviation := settings.keepRemainder
          value := .spacing (.pattern on off startLit) }
      return some {
        reason := toString n ++ " pixels leave " ++ toString rest ++ " extra after " ++
          toString fullCycles ++ " cycles of " ++ cycleLabel on off
        suggestions := ranked settings (wider ++ tighter ++ [asAsked]) }

/-- The suggestion of an interval that leaves less than another, by divisions that fail at zero. -/
def strictInterval (n interval rest candidate : Int) : Outcome (List Suggestion) :=
  if candidate ≤ 0 ∨ candidate = interval then .ok []
  else do
    let left ← floorRest n candidate
    if left < rest ∧ left ≤ candidate / 2 then do
      let deviation ← deviation candidate interval
      return [{
        id := "interval_" ++ toString candidate
        label := "Every " ++ toString candidate ++ " pixels"
        deviation := deviation
        value := .spacing (.everyNth candidate) }]
    else return []

/-- The check of an interval, by divisions that fail at zero. -/
def strictEveryNth (n interval : Int) (settings : CheckSettings) : Outcome (Option Misfit) :=
  if interval ≤ 0 then
    .ok (some {
      reason := "Invalid spacing: interval must be positive, got " ++ toString interval })
  else do
    let rest ← floorRest n interval
    if rest ≤ interval / 2 then return none
    else do
      let suggestions := (← (neighbours interval settings.intervalRadius.val).mapM
        (strictInterval n interval rest)).flatten
      if suggestions.isEmpty then return none
      else
        return some {
          reason := "Every " ++ toString interval ++ " pixels leaves " ++ toString rest ++
            " unlit at the end"
          suggestions := ranked settings suggestions }

/-- The check of any rule, by divisions that fail at zero.  All those of equal spacing are ratios,
which do anyway. -/
def strictMisfit (n : Int) (rule : Spacing) (settings : CheckSettings) :
    Outcome (Option Misfit) :=
  match rule with
  | .pattern on off startLit => strictPattern n on off startLit settings
  | .equallySpaced count => equallySpaced n count settings
  | .everyNth interval => strictEveryNth n interval settings
  | .anchorsOnly | .continuous => .ok none

theorem strictPattern_eq {n : Int} (nonneg : 0 ≤ n) (on off : Int) (startLit : Bool)
    (settings : CheckSettings) :
    strictPattern n on off startLit settings = pattern n on off startLit settings := by
  unfold strictPattern pattern
  by_cases invalid : on ≤ 0 ∨ off < 0
  · rw [if_pos invalid, if_pos invalid]
  rw [if_neg invalid, if_neg invalid]
  have whole : 0 < on + off := by omega
  have cycles : 0 ≤ n / (on + off) := Int.ediv_nonneg nonneg whole.le
  rw [floorRatio_of_pos whole, floorRest_of_pos whole, ok_bind, ok_bind]
  split
  · rfl
  have next : floorRatio n (n / (on + off) + 1) = .ok (n / (n / (on + off) + 1)) :=
    floorRatio_of_pos (by omega)
  have isCompressed : compressed n on (n / (on + off)) = .ok (n / (n / (on + off) + 1) - on) := by
    rw [compressed, if_neg (by omega), Int.fdiv_eq_ediv_of_nonneg _ (by omega)]
  simp only [cycleSuggestions, next, isCompressed, ok_bind]
  split
  · simp only [bind_assoc, pure_bind]
  · simp only [bind_assoc, pure_bind]

theorem strictInterval_eq (n interval candidate : Int) :
    strictInterval n interval (n % interval) candidate = otherInterval n interval candidate := by
  unfold strictInterval otherInterval
  by_cases skipped : candidate ≤ 0 ∨ candidate = interval
  · rw [if_pos skipped, if_pos skipped]
  · rw [if_neg skipped, if_neg skipped, floorRest_of_pos (by omega), ok_bind]
    rfl

theorem strictEveryNth_eq (n interval : Int) (settings : CheckSettings) :
    strictEveryNth n interval settings = everyNth n interval settings := by
  unfold strictEveryNth everyNth
  by_cases invalid : interval ≤ 0
  · rw [if_pos invalid, if_pos invalid]
  have same : strictInterval n interval (n % interval) = otherInterval n interval :=
    funext (strictInterval_eq n interval)
  rw [if_neg invalid, if_neg invalid, floorRest_of_pos (by omega), ok_bind, same]
  rfl

/-- No check divides by zero: where divisions by zero fail, it is the same. -/
theorem strictMisfit_eq {n : Int} (nonneg : 0 ≤ n) (rule : Spacing) (settings : CheckSettings) :
    strictMisfit n rule settings = misfit n rule settings := by
  cases rule with
  | pattern on off startLit => exact strictPattern_eq nonneg on off startLit settings
  | equallySpaced count => rfl
  | everyNth interval => exact strictEveryNth_eq n interval settings
  | anchorsOnly => rfl
  | continuous => rfl

/-! ## Shares that are not negative -/

/-- The suggestions deviate by shares that are not negative. -/
def Measured (suggestions : List Suggestion) : Prop :=
  ∀ suggestion ∈ suggestions, (Binary64.finite 0).le suggestion.deviation = true

theorem Measured.append {suggestions more : List Suggestion} (first : Measured suggestions)
    (second : Measured more) : Measured (suggestions ++ more) :=
  List.forall_mem_append.mpr ⟨first, second⟩

/-- How far a number is from one that is positive is not negative. -/
theorem notNegative_deviation {candidate wanted : Int} (asked : 0 < wanted) {share : Binary64}
    (computed : deviation candidate wanted = .ok share) :
    (Binary64.finite 0).le share = true := by
  have isQuotient := liftNumber_eq_ok_iff.mp computed
  have nonneg : (0 : Rat) ≤ (((candidate - wanted).natAbs : Int) : Rat) / wanted :=
    div_nonneg (by positivity) (by exact_mod_cast asked.le)
  have rounded := Binary64.notNegative_ofRat nonneg
  rw [Binary64.quotient, if_neg asked.ne'] at isQuotient
  split at isQuotient
  · cases isQuotient
  · cases isQuotient
    exact rounded

theorem measured_otherGap {id description : String} {on off gap : Int} (dark : 0 < off)
    {suggestions : List Suggestion}
    (given : otherGap id description on off gap = .ok suggestions) : Measured suggestions := by
  unfold otherGap at given
  split at given
  · rcases bind_eq_ok_iff.mp given with ⟨share, isShare, shape⟩
    rw [pure_eq_ok_iff] at shape
    subst shape
    exact List.forall_mem_singleton.mpr (notNegative_deviation dark isShare)
  · cases given
    exact List.forall_mem_nil _

theorem measured_cycleSuggestions {n on off : Int} (dark : 0 < off) {startLit : Bool}
    {settings : CheckSettings} (kept : (Binary64.finite 0).le settings.keepRemainder = true)
    {suggestions : List Suggestion}
    (given : cycleSuggestions n on off startLit settings = .ok suggestions) :
    Measured suggestions := by
  -- with full cycles or without, tighter gaps and the cycle as it is are added behind
  have added : ∃ wider asAsked, Measured wider ∧ asAsked.deviation = settings.keepRemainder ∧
      (do
        let gap ← compressed n on (n / (on + off))
        let tighter ← otherGap "compress" "Tighter gaps so the pattern ends cleanly" on off gap
        return wider ++ tighter ++ [asAsked]) = .ok suggestions := by
    simp only [cycleSuggestions] at given
    split at given
    · rcases bind_eq_ok_iff.mp given with ⟨gap, -, rest⟩
      rcases bind_eq_ok_iff.mp rest with ⟨wider, isWider, tighten⟩
      exact ⟨wider, _, measured_otherGap dark isWider, rfl, tighten⟩
    · exact ⟨[], _, List.forall_mem_nil _, rfl, given⟩
  rcases added with ⟨wider, asAsked, widerMeasured, isKept, rest⟩
  rcases bind_eq_ok_iff.mp rest with ⟨gap, -, others⟩
  rcases bind_eq_ok_iff.mp others with ⟨tighter, isTighter, shape⟩
  rw [pure_eq_ok_iff] at shape
  subst shape
  exact (widerMeasured.append (measured_otherGap dark isTighter)).append
    (List.forall_mem_singleton.mpr (isKept ▸ kept))

/-- What a search finds against a positive number deviates by shares that are not negative. -/
theorem measured_search {rule : Int → Spacing} {wanted : Int} {Meets : Int → Prop}
    (asked : 0 < wanted) {suggest : Int → Outcome (List Suggestion)}
    (each : ∀ candidate given, suggest candidate = .ok given →
      FoundAt rule wanted Meets candidate given)
    {candidates : List Int} {lists : List (List Suggestion)}
    (searched : candidates.mapM suggest = .ok lists) : Measured lists.flatten := by
  intro suggestion mem
  rcases exists_mem_of_mem_flatten searched mem with ⟨candidate, given, isGiven, inside⟩
  exact notNegative_deviation asked ((each candidate given isGiven).of_mem inside).2.deviation_eq

/-- A decimal is not negative. -/
theorem notNegative_decimal (digits places : Nat) :
    (Binary64.finite 0).le (.decimal digits places) = true := by
  apply Binary64.notNegative_ofRat
  rw [Rat.mkRat_eq_div]
  positivity

theorem measured_everyLight (n : Int) : Measured (everyLight n) := by
  unfold everyLight
  split
  · exact List.forall_mem_singleton.mpr (notNegative_decimal 5 1)
  · exact List.forall_mem_nil _

theorem measured_halfTheLights (n : Int) : Measured (halfTheLights n) := by
  unfold halfTheLights
  split
  · exact List.forall_mem_singleton.mpr (notNegative_decimal 3 1)
  · exact List.forall_mem_nil _

/-! ## Ranking -/

/-- The place of a number that is not negative in an order with a greatest place. -/
def place (x : Binary64) : WithTop Rat :=
  if x.isFinite then (x.toRat : WithTop Rat) else ⊤

/-- Numbers that are not negative are in the order of their places. -/
theorem lt_eq_place {x y : Binary64} (xNotNegative : (Binary64.finite 0).le x = true)
    (yNotNegative : (Binary64.finite 0).le y = true) :
    x.lt y = decide (place x < place y) := by
  rw [Bool.eq_iff_iff, decide_eq_true_iff]
  rcases Binary64.notNegative_iff.mp xNotNegative with ⟨xFinite, -⟩ | rfl
  · rcases Binary64.notNegative_iff.mp yNotNegative with ⟨yFinite, -⟩ | rfl
    · rw [Binary64.lt_iff_of_isFinite xFinite yFinite, place, place, if_pos xFinite,
        if_pos yFinite, WithTop.coe_lt_coe]
    · rw [place, if_pos xFinite]
      refine iff_of_true ?_ (WithTop.coe_lt_top _)
      cases x <;> first | rfl | exact Bool.noConfusion xFinite
  · refine iff_of_false ?_ not_top_lt
    rcases Binary64.notNegative_iff.mp yNotNegative with ⟨yFinite, -⟩ | rfl
    · cases y <;> first | exact Bool.false_ne_true | exact Bool.noConfusion yFinite
    · exact Bool.false_ne_true

theorem le_of_place_le {x y : Binary64} (xNotNegative : (Binary64.finite 0).le x = true)
    (yNotNegative : (Binary64.finite 0).le y = true) (order : place x ≤ place y) :
    x.le y = true := by
  rcases Binary64.notNegative_iff.mp yNotNegative with ⟨yFinite, -⟩ | rfl
  · rcases Binary64.notNegative_iff.mp xNotNegative with ⟨xFinite, -⟩ | rfl
    · rw [place, place, if_pos xFinite, if_pos yFinite, WithTop.coe_le_coe] at order
      exact (Binary64.le_iff_of_isFinite xFinite yFinite).mpr order
    · rw [place, place, if_pos yFinite] at order
      exact absurd order (WithTop.coe_lt_top _).not_ge
  · exact Binary64.le_infinite xNotNegative

/-- The place of a suggestion among those that are ranked. -/
def rank (suggestion : Suggestion) : WithTop Rat :=
  place suggestion.deviation

/-- Ranking puts suggestions in order where their shares are not negative, and keeps no more than
may be made. -/
theorem ranked_spec {suggestions : List Suggestion} (measured : Measured suggestions)
    (settings : CheckSettings) :
    Measured (ranked settings suggestions) ∧
      (ranked settings suggestions).length ≤ settings.maxAlternatives.val ∧
      (ranked settings suggestions).Pairwise fun a b => a.deviation.le b.deviation = true := by
  have sorted : suggestions.mergeSort (Sorting.before rank) =
      suggestions.mergeSort fun a b => !b.deviation.lt a.deviation := by
    have same := List.map_mergeSort (f := id) (l := suggestions) (r := Sorting.before rank)
      (s := fun a b => !b.deviation.lt a.deviation) ?_
    · rwa [List.map_id, List.map_id] at same
    · intro a aMem b bMem
      rw [id, id, lt_eq_place (measured b bMem) (measured a aMem), ← decide_not]
      exact decide_eq_decide.mpr not_lt.symm
  have measuredRanked : Measured (ranked settings suggestions) := fun suggestion mem =>
    measured suggestion (mem_of_mem_ranked mem)
  refine ⟨measuredRanked, ?_, ?_⟩
  · rw [ranked, List.length_take]
    exact min_le_left _ _
  · have inOrder : (ranked settings suggestions).Pairwise fun a b => rank a ≤ rank b := by
      rw [ranked, ← sorted]
      exact (Sorting.pairwise_le_mergeSort rank suggestions).sublist (List.take_sublist _ _)
    apply inOrder.imp_of_mem
    intro a b aMem bMem order
    exact le_of_place_le (measuredRanked a aMem) (measuredRanked b bMem) order

/-! ## Verdicts -/

/-- What is suggested where a rule does not fit is ranked from shares that are not negative. -/
theorem exists_ranked_of_misfit {n : Int} {rule : Spacing} {settings : CheckSettings}
    (kept : (Binary64.finite 0).le settings.keepRemainder = true) {found : Misfit}
    (isFound : misfit n rule settings = .ok (some found)) :
    ∃ suggestions, Measured suggestions ∧ found.suggestions = ranked settings suggestions := by
  have nothing : [] = ranked settings [] := by rw [ranked, List.mergeSort_nil, List.take_nil]
  cases rule with
  | pattern on off startLit =>
      rw [misfit, pattern] at isFound
      split at isFound
      · cases isFound
        exact ⟨[], List.forall_mem_nil _, nothing⟩
      · split at isFound
        · cases isFound
        · rename_i valid unfit
          -- without dark lights a cycle is lit all along, and what it leaves as well
          have dark : 0 < off := by
            have := Int.emod_lt_of_pos n (by omega : 0 < on + off)
            omega
          rcases bind_eq_ok_iff.mp isFound with ⟨suggestions, given, shape⟩
          rw [pure_eq_ok_iff, Option.some.injEq] at shape
          subst shape
          exact ⟨suggestions, measured_cycleSuggestions dark kept given, rfl⟩
  | equallySpaced count =>
      by_cases positive : 0 < count
      · by_cases tooFew : n < count
        · rw [misfit, equallySpaced, if_neg (by omega), if_pos tooFew] at isFound
          cases isFound
          exact ⟨_, (measured_everyLight n).append (measured_halfTheLights n), rfl⟩
        · obtain ⟨lists, searched, isRanked⟩ :=
            exists_search_of_equallySpaced positive (by omega) isFound
          exact ⟨_, measured_search positive (fun _ _ => foundAt_otherCount) searched, isRanked⟩
      · rw [misfit, equallySpaced, if_pos (by omega)] at isFound
        cases isFound
        exact ⟨[], List.forall_mem_nil _, nothing⟩
  | everyNth interval =>
      by_cases positive : 0 < interval
      · obtain ⟨lists, searched, -, isRanked⟩ := exists_search_of_everyNth positive isFound
        exact ⟨_, measured_search positive (fun _ _ => foundAt_otherInterval) searched, isRanked⟩
      · rw [misfit, everyNth, if_pos (by omega)] at isFound
        cases isFound
        exact ⟨[], List.forall_mem_nil _, nothing⟩
  | anchorsOnly => cases isFound
  | continuous => cases isFound

/-- A rule that no strip could satisfy does not fit, and nothing is suggested instead. -/
theorem exists_misfit_of_invalid {rule : Spacing} (invalid : rule.hasValidParameters = false)
    (n : Int) (settings : CheckSettings) :
    ∃ reason, misfit n rule settings = .ok (some { reason := reason }) := by
  cases rule with
  | pattern on off startLit =>
      have outside := of_decide_eq_false invalid
      exact ⟨_, if_pos (by omega)⟩
  | equallySpaced count =>
      have outside := of_decide_eq_false invalid
      exact ⟨_, if_pos (by omega)⟩
  | everyNth interval =>
      have outside := of_decide_eq_false invalid
      exact ⟨_, if_pos (by omega)⟩
  | anchorsOnly => cases invalid
  | continuous => cases invalid

/-- A verdict whose suggestions deviate by shares that are not negative, in order, and are no more
than may be made; where the rule is satisfied there are none. -/
structure Verdict.IsInOrder (settings : CheckSettings) (verdict : Verdict) : Prop where
  measured : Measured verdict.suggestions
  few : verdict.suggestions.length ≤ settings.maxAlternatives.val
  ordered : verdict.suggestions.Pairwise fun a b => a.deviation.le b.deviation = true
  satisfied : verdict.satisfied = true → verdict.suggestions = []

end Eaves.Check
