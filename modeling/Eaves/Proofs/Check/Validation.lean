import Eaves.Check.Design
import Eaves.Check.Spacing
import Eaves.Proofs.Number.Finite
import Eaves.Proofs.Outcome
import Eaves.Proofs.Pixels.Offsets
import Eaves.Proofs.Zone.Ranges

/-!
# Designs are checked

Whatever a spacing rule asks for, checking it against a number of lights gives a result,
and what is suggested instead is again a rule, which spreads no more lights than
there are.  Parameters of any size are checked: a ratio is only formed where it is
small, since an alternative is never far beyond the lights there are.

So checking a design gives a result on every roofline of fewer than `2 ^ 53` lights.
The flags that checks raise are about the spacing of layers that are on, none about a
layer whose spacing is settled, and their choices are rules.
-/

namespace Eaves.Check

open Number (Binary64)
open Outcome

/-- The suggestions are rules, and spread at most `n` lights. -/
def SuggestRules (n : Int) (suggestions : List Suggestion) : Prop :=
  ∀ suggestion ∈ suggestions, ∃ rule : Spacing,
    suggestion.value = .spacing rule ∧ rule.SpreadsBelow (n + 1)

namespace SuggestRules

variable {n : Int} {suggestions more : List Suggestion}

theorem nil : SuggestRules n [] := by
  intro suggestion mem
  cases mem

theorem single {suggestion : Suggestion} {rule : Spacing}
    (isRule : suggestion.value = .spacing rule) (below : rule.SpreadsBelow (n + 1)) :
    SuggestRules n [suggestion] := by
  intro other mem
  rw [List.mem_singleton] at mem
  subst mem
  exact ⟨rule, isRule, below⟩

theorem append (first : SuggestRules n suggestions) (second : SuggestRules n more) :
    SuggestRules n (suggestions ++ more) := by
  intro suggestion mem
  rcases List.mem_append.mp mem with left | right
  · exact first suggestion left
  · exact second suggestion right

/-- Ranking drops suggestions and adds none. -/
theorem ranked (all : SuggestRules n suggestions) (settings : CheckSettings) :
    SuggestRules n (ranked settings suggestions) := by
  intro suggestion mem
  exact all suggestion (List.mem_mergeSort.mp (List.mem_of_mem_take mem))

/-- What is suggested for every one of some numbers are rules, where it is for each. -/
theorem ofEach {suggest : Int → Outcome (List Suggestion)} (candidates : List Int)
    (each : ∀ candidate, ∃ found, suggest candidate = .ok found ∧ SuggestRules n found) :
    ∃ found, candidates.mapM suggest = .ok found ∧ SuggestRules n found.flatten := by
  obtain ⟨found, computed⟩ :=
    mapM_succeeds fun candidate (_ : candidate ∈ candidates) =>
      (each candidate).imp fun _ => And.left
  refine ⟨found, computed, ?_⟩
  intro suggestion mem
  rcases List.mem_flatten.mp mem with ⟨suggestions, isOne, inside⟩
  rcases exists_mem_of_mapM computed isOne with ⟨candidate, -, isFound⟩
  rcases each candidate with ⟨same, isSame, rules⟩
  rw [isFound] at isSame
  cases isSame
  exact rules suggestion inside

end SuggestRules

/-! ## Ratios -/

/-- How far a small positive number is from what was asked for can be computed. -/
theorem deviation_succeeds (candidate : Int) {wanted : Int} {bits : Nat} (room : bits ≤ 1020)
    (positive : 0 < candidate) (small : candidate < 2 ^ bits) (asked : 0 < wanted) :
    ∃ share, deviation candidate wanted = .ok share := by
  have bound : |(((candidate - wanted).natAbs : Int) : Rat) / wanted| ≤ 2 ^ bits := by
    have wantedRat : (1 : Rat) ≤ wanted := by exact_mod_cast asked
    have distance : ((candidate - wanted).natAbs : Int) ≤ candidate * wanted := by
      have atLeast : candidate ≤ candidate * wanted := le_mul_of_one_le_right (by omega) asked
      have atLeastToo : wanted ≤ candidate * wanted := le_mul_of_one_le_left (by omega) positive
      omega
    have distanceRat : (((candidate - wanted).natAbs : Int) : Rat) ≤ candidate * wanted := by
      exact_mod_cast distance
    have candidateRat : (candidate : Rat) ≤ 2 ^ bits := by exact_mod_cast small.le
    have nonneg : (0 : Rat) ≤ (((candidate - wanted).natAbs : Int) : Rat) := by positivity
    rw [abs_of_nonneg (div_nonneg nonneg (by linarith)), div_le_iff₀ (by linarith)]
    calc (((candidate - wanted).natAbs : Int) : Rat) ≤ candidate * wanted := distanceRat
      _ ≤ 2 ^ bits * wanted := mul_le_mul_of_nonneg_right candidateRat (by linarith)
  exact ⟨_, by rw [deviation, Binary64.quotient_eq_of_le room (by omega) bound, liftNumber_ok]⟩

/-- The ratio of a small number to another is a finite number that is not much larger. -/
theorem ratio_succeeds {n d : Int} {bits : Nat} (room : bits ≤ 1000) (nonneg : 0 ≤ n)
    (small : n < 2 ^ bits) (nonzero : d ≠ 0) :
    ∃ step : Rat, Binary64.quotient n d = .ok (.finite step) ∧ |step| ≤ 2 * n + 1 := by
  have nRat : |(n : Rat)| = n := abs_of_nonneg (by exact_mod_cast nonneg)
  have bound := (Binary64.abs_ratio_le (n := n) nonzero)
  have smallRat : (n : Rat) ≤ 2 ^ bits := by exact_mod_cast small.le
  rw [nRat] at bound
  refine ⟨_, Binary64.quotient_eq_of_le (by omega) nonzero (bound.trans smallRat), ?_⟩
  have := Binary64.abs_nearest_le ((n : Rat) / d)
  linarith

/-- What is at most about twice a small number is below the next but one power of two. -/
theorem le_two_pow_add {n : Int} {bits : Nat} (small : n < 2 ^ bits) {step : Rat}
    (bound : |step| ≤ 2 * n + 1) : |step| ≤ 2 ^ (bits + 2) := by
  have smallRat : (n : Rat) + 1 ≤ 2 ^ bits := by exact_mod_cast small
  have positive : (0 : Rat) < 2 ^ bits := pow_pos two_pos bits
  rw [pow_add]
  linarith

/-- Whether a small number is nearly whole can be decided. -/
theorem nearInteger_succeeds {step : Rat} {bits : Nat} (room : bits ≤ 1010)
    (small : |step| ≤ 2 ^ bits) (tolerance : Binary64) :
    ∃ near, nearInteger (.finite step) tolerance = .ok near := by
  have moved := Number.roundEven_near step
  have apart := abs_sub_abs_le_abs_sub (Number.roundEven step : Rat) step
  have rounded : |(Number.roundEven step : Rat)| ≤ 2 ^ (bits + 1) := by
    have atLeast : (1 : Rat) ≤ 2 ^ bits := one_le_pow₀ one_le_two
    rw [pow_succ]
    linarith
  have isRounded : (Binary64.finite step).round = .ok (Number.roundEven step) := rfl
  have isWhole := Binary64.ofInt_eq_of_le (n := Number.roundEven step)
    (show bits + 1 ≤ 1020 by omega) (by exact_mod_cast rounded)
  rw [nearInteger, isRounded, ok_bind, isWhole, ok_bind]
  exact ⟨_, rfl⟩

/-! ## Rules that do not fit -/

/-- A check gives a result, and where the rule does not fit the suggestions are rules. -/
def Finds (n : Int) (checked : Outcome (Option Misfit)) : Prop :=
  ∃ found, checked = .ok found ∧ ∀ misfit ∈ found, SuggestRules n misfit.suggestions

theorem Finds.fit {n : Int} : Finds n (.ok none) :=
  ⟨none, rfl, by simp⟩

theorem Finds.misfit {n : Int} {misfit : Misfit} (rules : SuggestRules n misfit.suggestions) :
    Finds n (.ok (some misfit)) := by
  refine ⟨some misfit, rfl, ?_⟩
  rintro other ⟨⟩
  exact rules

/-- Another dark count is suggested, or none is. -/
theorem otherGap_succeeds (id description : String) (n on gap : Int) {off : Int} {bits : Nat}
    (room : bits ≤ 1020) (small : gap < 2 ^ bits) (dark : 0 < off) :
    ∃ suggestions, otherGap id description on off gap = .ok suggestions ∧
      SuggestRules n suggestions := by
  unfold otherGap
  split
  · rename_i other
    rcases deviation_succeeds _ room other.1 small dark with ⟨share, computed⟩
    rw [computed, ok_bind]
    exact ⟨_, rfl, .single rfl trivial⟩
  · exact ⟨[], rfl, .nil⟩

/-- The dark count that stretches full cycles is at most about twice the lights there are. -/
theorem stretched_succeeds {n fullCycles : Int} {bits : Nat} (on : Int) (room : bits ≤ 1000)
    (nonneg : 0 ≤ n) (small : n < 2 ^ bits) (some : 0 < fullCycles) :
    ∃ gap, stretched n on fullCycles = .ok gap ∧ gap ≤ 2 * n + 1 - on := by
  rcases ratio_succeeds room nonneg small (d := fullCycles) (by omega) with
    ⟨length, isLength, bound⟩
  refine ⟨length.ceil - on, ?_, ?_⟩
  · rw [stretched, isLength, ok_bind]
    rfl
  · have high := (abs_le.mp bound).2
    have ceiled : length.ceil ≤ 2 * n + 1 := Rat.ceil_le_iff.mpr (by exact_mod_cast high)
    omega

/-- The alternatives to a cycle can be worked out. -/
theorem cycleSuggestions_succeeds {n off : Int} {bits : Nat} (on : Int) (startLit : Bool)
    (settings : CheckSettings) (room : bits ≤ 1000) (nonneg : 0 ≤ n) (small : n < 2 ^ bits)
    (lit : 0 < on) (dark : 0 < off) :
    ∃ suggestions, cycleSuggestions n on off startLit settings = .ok suggestions ∧
      SuggestRules n suggestions := by
  have roomToo : bits + 2 ≤ 1020 := by omega
  have twice : (2 : Int) ^ (bits + 2) = 2 ^ bits * 4 := pow_add 2 bits 2
  have cycles : 0 ≤ n / (on + off) := Int.ediv_nonneg nonneg (by omega)
  have isCompressed : compressed n on (n / (on + off)) =
      .ok (n.fdiv (n / (on + off) + 1) - on) := if_neg (by omega)
  have gapSmall : n.fdiv (n / (on + off) + 1) ≤ n := by
    rw [Int.fdiv_eq_ediv_of_nonneg _ (by omega)]
    exact Int.ediv_le_self _ nonneg
  obtain ⟨tighter, isTighter, tighterRules⟩ :=
    otherGap_succeeds "compress" "Tighter gaps so the pattern ends cleanly" n on
      (n.fdiv (n / (on + off) + 1) - on) roomToo (by omega) dark
  simp only [cycleSuggestions]
  split
  · rename_i some
    rcases stretched_succeeds on room nonneg small some with ⟨gap, isGap, stretchedSmall⟩
    obtain ⟨wider, isWider, widerRules⟩ :=
      otherGap_succeeds "stretch" "Wider gaps so the pattern ends cleanly" n on gap roomToo
        (by omega) dark
    rw [isGap, ok_bind, isWider, ok_bind, isCompressed, ok_bind, isTighter, ok_bind]
    exact ⟨_, rfl, (widerRules.append tighterRules).append (.single rfl trivial)⟩
  · rw [ok_bind, isCompressed, ok_bind, isTighter, ok_bind]
    exact ⟨_, rfl, (SuggestRules.nil.append tighterRules).append (.single rfl trivial)⟩

theorem pattern_finds {n : Int} {bits : Nat} (on off : Int) (startLit : Bool)
    (settings : CheckSettings) (room : bits ≤ 1000) (nonneg : 0 ≤ n) (small : n < 2 ^ bits) :
    Finds n (pattern n on off startLit settings) := by
  unfold pattern
  split
  · exact .misfit .nil
  · split
    · exact .fit
    · rename_i valid unfit
      -- a cycle without dark lights leaves no more than its lit part
      have dark : 0 < off := by
        have := Int.emod_lt_of_pos n (by omega : 0 < on + off)
        omega
      obtain ⟨suggestions, computed, rules⟩ :=
        cycleSuggestions_succeeds on startLit settings room nonneg small (by omega) dark
      rw [computed, ok_bind]
      exact .misfit (rules.ranked settings)

/-- Another count is suggested, or none is. -/
theorem otherCount_succeeds {n count : Int} {bits : Nat} (candidate : Int)
    (settings : CheckSettings) (room : bits ≤ 1000) (nonneg : 0 ≤ n) (small : n < 2 ^ bits)
    (asked : 0 < count) :
    ∃ suggestions, otherCount n count candidate settings = .ok suggestions ∧
      SuggestRules n suggestions := by
  unfold otherCount
  split
  · exact ⟨[], rfl, .nil⟩
  · rename_i inRange
    rcases ratio_succeeds room nonneg small (d := candidate - 1) (by omega) with
      ⟨step, isStep, bound⟩
    rcases nearInteger_succeeds (show bits + 2 ≤ 1010 by omega) (le_two_pow_add small bound)
      settings.spacingTolerance with ⟨near, isNear⟩
    rw [ratio, isStep, liftNumber_ok, ok_bind, isNear, ok_bind]
    split
    · have isRounded : (Binary64.finite step).round = .ok (Number.roundEven step) := rfl
      rcases deviation_succeeds candidate (show bits ≤ 1020 by omega) (by omega) (by omega) asked
        with ⟨share, computed⟩
      rw [isRounded, liftNumber_ok, ok_bind, computed, ok_bind]
      refine ⟨_, rfl, .single rfl ?_⟩
      show candidate < n + 1
      omega
    · exact ⟨[], rfl, .nil⟩

theorem everyLight_rules (n : Int) : SuggestRules n (everyLight n) := by
  unfold everyLight
  split
  · exact .single rfl (Int.lt_succ n)
  · exact .nil

theorem halfTheLights_rules (n : Int) : SuggestRules n (halfTheLights n) := by
  unfold halfTheLights
  split
  · apply SuggestRules.single rfl
    show n / 2 < n + 1
    omega
  · exact .nil

theorem equallySpaced_finds {n : Int} {bits : Nat} (count : Int) (settings : CheckSettings)
    (room : bits ≤ 1000) (nonneg : 0 ≤ n) (small : n < 2 ^ bits) :
    Finds n (equallySpaced n count settings) := by
  unfold equallySpaced
  split
  · exact .misfit .nil
  · split
    · exact .misfit (((everyLight_rules n).append (halfTheLights_rules n)).ranked settings)
    · split
      · exact .fit
      · rcases ratio_succeeds room nonneg small (d := count - 1) (by omega) with
          ⟨step, isStep, bound⟩
        rcases nearInteger_succeeds (show bits + 2 ≤ 1010 by omega) (le_two_pow_add small bound)
          settings.spacingTolerance with ⟨near, isNear⟩
        rw [ratio, isStep, liftNumber_ok, ok_bind, isNear, ok_bind]
        split
        · exact .fit
        · obtain ⟨found, computed, rules⟩ :=
            SuggestRules.ofEach (neighbours count settings.countRadius.val) fun candidate =>
              otherCount_succeeds candidate settings room nonneg small (by omega : 0 < count)
          rw [computed, ok_bind]
          exact .misfit (rules.ranked settings)

/-- Another interval is suggested, or none is. -/
theorem otherInterval_succeeds {n interval : Int} {bits : Nat} (candidate : Int)
    (room : bits ≤ 1000) (nonneg : 0 ≤ n) (small : n < 2 ^ bits) (asked : 0 < interval) :
    ∃ suggestions, otherInterval n interval candidate = .ok suggestions ∧
      SuggestRules n suggestions := by
  unfold otherInterval
  split
  · exact ⟨[], rfl, .nil⟩
  · split
    · rename_i other leaves
      -- an interval longer than the strip leaves all of it, and so no less than another
      have within : candidate ≤ n := by
        by_contra beyond
        have leavesAll : n % candidate = n := Int.emod_eq_of_lt nonneg (by omega)
        have leavesSome : n % interval ≤ n := by
          have divided := Int.mul_ediv_add_emod n interval
          have whole := Int.mul_nonneg asked.le (Int.ediv_nonneg nonneg asked.le)
          omega
        omega
      rcases deviation_succeeds candidate (show bits ≤ 1020 by omega) (by omega) (by omega) asked
        with ⟨share, computed⟩
      rw [computed, ok_bind]
      exact ⟨_, rfl, .single rfl trivial⟩
    · exact ⟨[], rfl, .nil⟩

theorem everyNth_finds {n : Int} {bits : Nat} (interval : Int) (settings : CheckSettings)
    (room : bits ≤ 1000) (nonneg : 0 ≤ n) (small : n < 2 ^ bits) :
    Finds n (everyNth n interval settings) := by
  unfold everyNth
  split
  · exact .misfit .nil
  · split
    · exact .fit
    · obtain ⟨found, computed, rules⟩ :=
        SuggestRules.ofEach (neighbours interval settings.intervalRadius.val) fun candidate =>
          otherInterval_succeeds candidate room nonneg small (by omega : 0 < interval)
      rw [computed, ok_bind]
      dsimp only
      split
      · exact .fit
      · exact .misfit (rules.ranked settings)

/-- Every rule can be checked against every number of lights. -/
theorem misfit_finds {n : Int} {bits : Nat} (rule : Spacing) (settings : CheckSettings)
    (room : bits ≤ 1000) (nonneg : 0 ≤ n) (small : n < 2 ^ bits) :
    Finds n (misfit n rule settings) := by
  cases rule with
  | pattern on off startLit => exact pattern_finds on off startLit settings room nonneg small
  | equallySpaced count => exact equallySpaced_finds count settings room nonneg small
  | everyNth interval => exact everyNth_finds interval settings room nonneg small
  | anchorsOnly => exact .fit
  | continuous => exact .fit

end Eaves.Check

/-! ## Flags that are raised -/

namespace Eaves

/-- Whether the spacing of a layer is settled: it has no rule, or one that the user has
confirmed. -/
def Layer.IsSettled (layer : Layer) : Prop :=
  layer.coloring.spacing = none ∨ layer.coloring.spacingAccepted = true

namespace Check

open Outcome

/-- A flag that the checks raise about the spacing of a layer. -/
structure RaisedFor (layer : Layer) (flag : Ambiguity) : Prop where
  kind_eq : flag.kind = .spacingImpossible
  layerId_eq : flag.layerId = some layer.id
  unsettled : ¬layer.IsSettled
  choices_are_rules : ∀ choice ∈ flag.choices, ∃ rule : Spacing,
    choice.value = .spacing rule ∧ rule.SpreadsBelow (2 ^ 120)

/-- A rule gets a verdict, with suggestions that are rules, where the lights are fewer than the
greatest finite number by a few powers of two. -/
theorem spacing_succeeds_of_lt {n : Int} {bits : Nat} (rule : Spacing) (settings : CheckSettings)
    (layerId : Option String) (room : bits ≤ 1000) (nonneg : 0 ≤ n) (small : n < 2 ^ bits) :
    ∃ verdict, spacing n rule settings layerId = .ok verdict ∧
      SuggestRules n verdict.suggestions := by
  rcases misfit_finds rule settings room nonneg small with ⟨found, computed, rules⟩
  rw [spacing, computed, ok_bind]
  refine ⟨_, rfl, ?_⟩
  cases found with
  | none => exact .nil
  | some misfit => exact rules misfit rfl

/-- The verdict on a rule comes with suggestions that are rules. -/
theorem spacing_succeeds {n : Int} (rule : Spacing) (settings : CheckSettings)
    (layerId : Option String) (nonneg : 0 ≤ n) (small : n < 2 ^ 120) :
    ∃ verdict, spacing n rule settings layerId = .ok verdict ∧
      SuggestRules n verdict.suggestions :=
  spacing_succeeds_of_lt rule settings layerId (by decide) nonneg small

/-- The verdict on a rule is that it is satisfied exactly where nothing is found against it. -/
theorem spacing_satisfied_iff {n : Int} {rule : Spacing} {settings : CheckSettings}
    {layerId : Option String} :
    (∃ verdict, spacing n rule settings layerId = .ok verdict ∧ verdict.satisfied = true) ↔
      misfit n rule settings = .ok none := by
  unfold spacing
  constructor
  · rintro ⟨verdict, computed, satisfied⟩
    rcases bind_eq_ok_iff.mp computed with ⟨found, isFound, shape⟩
    rw [pure_eq_ok_iff] at shape
    subst shape
    rw [isFound, Option.isNone_iff_eq_none.mp satisfied]
  · intro nothing
    rw [nothing, ok_bind]
    exact ⟨_, rfl, rfl⟩

/-- The verdict on a rule is one on spacing, for the layer it was asked for. -/
theorem kind_of_spacing {n : Int} {rule : Spacing} {settings : CheckSettings}
    {layerId : Option String} {verdict : Verdict}
    (computed : spacing n rule settings layerId = .ok verdict) :
    verdict.kind = .spacing ∧ verdict.layerId = layerId := by
  rcases bind_eq_ok_iff.mp computed with ⟨found, -, shape⟩
  rw [pure_eq_ok_iff] at shape
  subst shape
  exact ⟨rfl, rfl⟩

/-- Nothing is found against a cycle exactly where what remains after the full cycles is at most
its lit part. -/
theorem pattern_eq_none_iff {n on off : Int} (lit : 0 < on) (dark : 0 ≤ off) (startLit : Bool)
    (settings : CheckSettings) :
    pattern n on off startLit settings = .ok none ↔ n % (on + off) ≤ on := by
  have valid : ¬(on ≤ 0 ∨ off < 0) := by omega
  rw [pattern, if_neg valid]
  by_cases fits : n % (on + off) ≤ on
  · simp [fits]
  · rw [if_neg fits]
    simp only [fits, iff_false]
    intro nothing
    rcases bind_eq_ok_iff.mp nothing with ⟨suggestions, -, shape⟩
    rw [pure_eq_ok_iff] at shape
    cases shape

/-- A choice is the value of a suggestion. -/
theorem exists_suggestion_of_mem_choicesFor {suggestions : List Suggestion}
    {settings : CheckSettings} {choice : Choice} (mem : choice ∈ choicesFor suggestions settings) :
    ∃ suggestion ∈ suggestions, choice.value = suggestion.value := by
  rcases List.mem_map.mp mem with ⟨⟨suggestion, rank⟩, inside, rfl⟩
  exact ⟨suggestion, List.fst_mem_of_mem_zipIdx inside, rfl⟩

/-- Checking a layer gives a result, and the flags of it are about the layer's spacing. -/
theorem layer_succeeds {present : Layer} (listed : present.zone.IsListed) {roofline : Roofline}
    (small : roofline.total < 2 ^ 53) {settings : CheckSettings} (shares : settings.HasShares) :
    ∃ validation, layer present roofline settings = .ok validation ∧
      ∀ flag ∈ validation.flags, RaisedFor present flag := by
  unfold layer
  cases hasRule : present.coloring.spacing with
  | none => exact ⟨_, rfl, by simp⟩
  | some rule =>
      rcases Zone.pixelCount_succeeds listed small shares with ⟨n, counted, few⟩
      obtain ⟨verdict, computed, rules⟩ :=
        spacing_succeeds (n := n) rule settings (some present.id) (by omega) (by omega)
      dsimp only
      rw [counted, ok_bind, computed, ok_bind]
      refine ⟨_, rfl, ?_⟩
      intro flag mem
      dsimp only at mem
      split at mem
      · rename_i asked
        rw [List.mem_singleton] at mem
        subst mem
        refine ⟨rfl, rfl, ?_, ?_⟩
        · rw [needsQuestion, Bool.and_eq_true, Bool.not_eq_true'] at asked
          rintro (noRule | confirmed)
          · rw [hasRule] at noRule
            cases noRule
          · rw [asked.2] at confirmed
            cases confirmed
        · intro choice inside
          rcases exists_suggestion_of_mem_choicesFor inside with ⟨suggestion, suggested, sameValue⟩
          rcases rules suggestion suggested with ⟨other, isRule, below⟩
          exact ⟨other, sameValue.trans isRule, below.mono (by omega)⟩
      · cases mem

/-- Whether checking a layer raises a flag. -/
def Raises (roofline : Roofline) (settings : CheckSettings) (present : Layer)
    (flag : Ambiguity) : Prop :=
  ∃ validation, layer present roofline settings = .ok validation ∧ flag ∈ validation.flags

/-- Checking a layer raises one flag at most, for a verdict on its spacing. -/
theorem exists_verdict_of_flags {present : Layer} {roofline : Roofline} {settings : CheckSettings}
    {validation : Validation} (checked : layer present roofline settings = .ok validation)
    {flag : Ambiguity} (mem : flag ∈ validation.flags) :
    ∃ (n : Nat) (rule : Spacing) (verdict : Verdict),
      spacing n rule settings (some present.id) = .ok verdict ∧
      validation.flags = [spacingFlag present verdict settings] := by
  unfold layer at checked
  dsimp only at checked
  split at checked
  · cases checked
    cases mem
  · rcases bind_eq_ok_iff.mp checked with ⟨n, -, rest⟩
    rcases bind_eq_ok_iff.mp rest with ⟨verdict, isVerdict, shape⟩
    rw [pure_eq_ok_iff] at shape
    subst shape
    by_cases asked : needsQuestion present.coloring verdict = true
    · exact ⟨n, _, verdict, isVerdict, if_pos asked⟩
    · rw [if_neg asked] at mem
      cases mem

namespace Raises

variable {roofline : Roofline} {settings : CheckSettings} {present : Layer} {flag : Ambiguity}

/-- A flag that is raised is the flag for a verdict on the layer's spacing. -/
theorem exists_verdict (raises : Raises roofline settings present flag) :
    ∃ (n : Nat) (rule : Spacing) (verdict : Verdict),
      spacing n rule settings (some present.id) = .ok verdict ∧
      flag = spacingFlag present verdict settings := by
  rcases raises with ⟨validation, checked, mem⟩
  obtain ⟨n, rule, verdict, isVerdict, flags_eq⟩ := exists_verdict_of_flags checked mem
  rw [flags_eq, List.mem_singleton] at mem
  exact ⟨n, rule, verdict, isVerdict, mem⟩

theorem kind_eq (raises : Raises roofline settings present flag) :
    flag.kind = .spacingImpossible := by
  obtain ⟨n, rule, verdict, -, rfl⟩ := raises.exists_verdict
  rfl

theorem layerId_eq (raises : Raises roofline settings present flag) :
    flag.layerId = some present.id := by
  obtain ⟨n, rule, verdict, -, rfl⟩ := raises.exists_verdict
  rfl

/-- A layer raises one flag at most. -/
theorem flag_eq {other : Ambiguity} (raises : Raises roofline settings present flag)
    (otherRaises : Raises roofline settings present other) : flag = other := by
  rcases raises with ⟨validation, checked, mem⟩
  rcases otherRaises with ⟨same, isSame, otherMem⟩
  rw [checked] at isSame
  cases isSame
  obtain ⟨n, rule, verdict, -, flags_eq⟩ := exists_verdict_of_flags checked mem
  rw [flags_eq, List.mem_singleton] at mem otherMem
  exact mem.trans otherMem.symm

end Raises

theorem raisedFor_of_raises {present : Layer} (listed : present.zone.IsListed)
    {roofline : Roofline} (small : roofline.total < 2 ^ 53) {settings : CheckSettings}
    (shares : settings.HasShares) {flag : Ambiguity}
    (raises : Raises roofline settings present flag) : RaisedFor present flag := by
  rcases raises with ⟨validation, checked, mem⟩
  rcases layer_succeeds listed small shares with ⟨same, isSame, raisedFor⟩
  rw [checked] at isSame
  cases isSame
  exact raisedFor flag mem

/-- The flags of a design are those that its layers raise. -/
theorem mem_flags_of_validate {intent : Intent} {roofline : Roofline} {settings : CheckSettings}
    {validation : Validation} (checked : validate intent roofline settings = .ok validation)
    (flag : Ambiguity) : flag ∈ validation.flags ↔
      ∃ present ∈ intent.enabledLayers, Raises roofline settings present flag := by
  rcases bind_eq_ok_iff.mp checked with ⟨single, computed, shape⟩
  rw [pure_eq_ok_iff] at shape
  subst shape
  rw [List.mem_flatMap]
  exact exists_result_iff_of_mapM computed

/-- Checking a design gives, among its verdicts, one on the rule of every layer that is on, for the
lights of the layer's zone. -/
theorem exists_verdict_of_validate {intent : Intent} {roofline : Roofline}
    {settings : CheckSettings} {validation : Validation}
    (checked : validate intent roofline settings = .ok validation) {present : Layer}
    (mem : present ∈ intent.layers) (enabled : present.enabled = true) {rule : Spacing}
    (hasRule : present.coloring.spacing = some rule) :
    ∃ n verdict, present.zone.pixelCount roofline settings = .ok n ∧
      spacing n rule settings (some present.id) = .ok verdict ∧
      verdict ∈ validation.verdicts := by
  rcases bind_eq_ok_iff.mp checked with ⟨single, computed, shape⟩
  rw [pure_eq_ok_iff] at shape
  subst shape
  rcases exists_partner (mapM_eq_ok_iff.mp computed) (List.mem_filter.mpr ⟨mem, enabled⟩) with
    ⟨own, together, isOwn⟩
  simp only [layer, hasRule] at isOwn
  rcases bind_eq_ok_iff.mp isOwn with ⟨n, counted, rest⟩
  rcases bind_eq_ok_iff.mp rest with ⟨verdict, isVerdict, shape⟩
  rw [pure_eq_ok_iff] at shape
  subst shape
  refine ⟨n, verdict, counted, isVerdict, List.mem_append_left _ ?_⟩
  rw [List.mem_flatMap]
  exact ⟨_, (List.of_mem_zip together).2, List.mem_append_right _ (List.mem_singleton_self _)⟩

/-- Checking a design gives a result, with the flags that its layers raise. -/
theorem validate_succeeds {intent : Intent}
    (listed : ∀ present ∈ intent.layers, present.zone.IsListed) {roofline : Roofline}
    (small : roofline.total < 2 ^ 53) {settings : CheckSettings} (shares : settings.HasShares) :
    ∃ validation, validate intent roofline settings = .ok validation ∧
      ∀ flag, flag ∈ validation.flags ↔
        ∃ present ∈ intent.enabledLayers, Raises roofline settings present flag := by
  obtain ⟨single, computed⟩ := mapM_succeeds fun present (mem : present ∈ intent.enabledLayers) =>
    (layer_succeeds (listed present (List.mem_filter.mp mem).1) small shares).imp
      fun _ => And.left
  have checked : ∃ validation, validate intent roofline settings = .ok validation := by
    unfold validate
    dsimp only
    rw [computed, ok_bind]
    exact ⟨_, rfl⟩
  rcases checked with ⟨validation, isChecked⟩
  exact ⟨validation, isChecked, mem_flags_of_validate isChecked⟩

end Check

end Eaves
