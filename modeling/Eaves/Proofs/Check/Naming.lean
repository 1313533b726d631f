import Eaves.Proofs.Check.Suggestions
import Eaves.Proofs.Value.Numeral
import Eaves.Question.Ask

/-!
# The names of suggestions

What is suggested instead of a rule is named by where it came from: a formula has a
name of its own, and a number that was searched for has its numeral in its name.  So
no two suggestions of one verdict share a name, also after they are ranked and cut,
and none has the name of the option to set a rule by hand.  The nearest suggestion is
the one that is recommended.
-/

namespace Eaves

open Outcome

/-- The name of a number that was searched for. -/
def Check.numbered (family : String) (n : Int) : String :=
  family ++ toString n

theorem Check.numbered_injective (family : String) {m n : Int}
    (same : numbered family m = numbered family n) : m = n := by
  have texts := congrArg String.toList same
  rw [numbered, numbered, String.toList_append, String.toList_append] at texts
  have read := (Json.number?_toString m).2
  rw [List.append_cancel_left texts, (Json.number?_toString n).2] at read
  exact (Value.int.inj (Option.some.inj read)).symm

/-- A name with a numeral is no name that does not begin as it does. -/
theorem Check.numbered_ne {family name : String} (otherStart : ¬family.toList <+: name.toList)
    (n : Int) : numbered family n ≠ name := by
  rintro rfl
  apply otherStart
  rw [numbered, String.toList_append]
  exact List.prefix_append _ _

namespace Check

/-- Suggestions whose names are some of those given, in that order. -/
def AreNamed (suggestions : List Suggestion) (names : List String) : Prop :=
  (suggestions.map Suggestion.id).Sublist names

section Suggested

variable {n : Int} {settings : CheckSettings}

theorem AreNamed.append {first second : List Suggestion} {names more : List String}
    (areNamed : AreNamed first names) (areToo : AreNamed second more) :
    AreNamed (first ++ second) (names ++ more) := by
  unfold AreNamed
  rw [List.map_append]
  exact List.Sublist.append areNamed areToo

theorem areNamed_otherGap {id description : String} {on off gap : Int}
    {suggestions : List Suggestion}
    (given : otherGap id description on off gap = .ok suggestions) :
    AreNamed suggestions [id] := by
  unfold otherGap at given
  split at given
  · rcases bind_eq_ok_iff.mp given with ⟨share, -, shape⟩
    rw [pure_eq_ok_iff] at shape
    subst shape
    exact List.Sublist.refl _
  · cases given
    exact List.nil_sublist _

theorem areNamed_cycleSuggestions {on off : Int} {startLit : Bool}
    {suggestions : List Suggestion}
    (given : cycleSuggestions n on off startLit settings = .ok suggestions) :
    AreNamed suggestions ["stretch", "compress", "original"] := by
  -- with full cycles or without, the wider gaps come first and the tighter ones are added
  have added : ∃ wider kept, AreNamed wider ["stretch"] ∧ kept.id = "original" ∧
      (do
        let gap ← compressed n on (n / (on + off))
        let tighter ← otherGap "compress" "Tighter gaps so the pattern ends cleanly" on off gap
        return wider ++ tighter ++ [kept]) = .ok suggestions := by
    simp only [cycleSuggestions] at given
    split at given
    · rcases bind_eq_ok_iff.mp given with ⟨gap, -, rest⟩
      rcases bind_eq_ok_iff.mp rest with ⟨wider, isWider, tighten⟩
      exact ⟨wider, _, areNamed_otherGap isWider, rfl, tighten⟩
    · exact ⟨[], _, List.nil_sublist _, rfl, given⟩
  rcases added with ⟨wider, kept, isWider, isKept, rest⟩
  rcases bind_eq_ok_iff.mp rest with ⟨gap, -, others⟩
  rcases bind_eq_ok_iff.mp others with ⟨tighter, isTighter, shape⟩
  rw [pure_eq_ok_iff] at shape
  subst shape
  have keptNamed : AreNamed [kept] ["original"] := isKept ▸ List.Sublist.refl _
  exact (isWider.append (areNamed_otherGap isTighter)).append keptNamed

theorem areNamed_everyLight_halfTheLights (n : Int) :
    AreNamed (everyLight n ++ halfTheLights n) ["max", "half"] := by
  have all : AreNamed (everyLight n) ["max"] := by
    unfold everyLight
    split
    · exact List.Sublist.refl _
    · exact List.nil_sublist _
  have half : AreNamed (halfTheLights n) ["half"] := by
    unfold halfTheLights
    split
    · exact List.Sublist.refl _
    · exact List.nil_sublist _
  exact all.append half

theorem areNamed_otherCount {count candidate : Int} {suggestions : List Suggestion}
    (given : otherCount n count candidate settings = .ok suggestions) :
    AreNamed suggestions [numbered "count_" candidate] := by
  unfold otherCount at given
  split at given
  · cases given
    exact List.nil_sublist _
  · rcases bind_eq_ok_iff.mp given with ⟨step, -, rest⟩
    rcases bind_eq_ok_iff.mp rest with ⟨near, -, last⟩
    cases near with
    | true =>
        rcases bind_eq_ok_iff.mp last with ⟨rounded, -, others⟩
        rcases bind_eq_ok_iff.mp others with ⟨share, -, shape⟩
        rw [pure_eq_ok_iff] at shape
        subst shape
        exact List.Sublist.refl _
    | false =>
        cases last
        exact List.nil_sublist _

theorem areNamed_otherInterval {interval candidate : Int} {suggestions : List Suggestion}
    (given : otherInterval n interval candidate = .ok suggestions) :
    AreNamed suggestions [numbered "interval_" candidate] := by
  unfold otherInterval at given
  split at given
  · cases given
    exact List.nil_sublist _
  · split at given
    · rcases bind_eq_ok_iff.mp given with ⟨share, -, shape⟩
      rw [pure_eq_ok_iff] at shape
      subst shape
      exact List.Sublist.refl _
    · cases given
      exact List.nil_sublist _

/-- What is found for each of some numbers is named after those numbers. -/
theorem areNamed_flatten {suggest : Int → Outcome (List Suggestion)} {name : Int → String}
    (each : ∀ candidate suggestions, suggest candidate = .ok suggestions →
      AreNamed suggestions [name candidate])
    {candidates : List Int} {found : List (List Suggestion)}
    (computed : candidates.mapM suggest = .ok found) :
    AreNamed found.flatten (candidates.map name) := by
  rw [mapM_eq_ok_iff] at computed
  induction computed with
  | nil => exact List.Sublist.refl _
  | cons first _ ih =>
      rw [List.flatten_cons, List.map_cons]
      exact (each _ _ first).append ih

/-- Suggestions of which no two share a name, and none is named as the option to set a rule by
hand. -/
structure WellNamed (suggestions : List Suggestion) : Prop where
  apart : (suggestions.map Suggestion.id).Nodup
  notByHand : setManually.id ∉ suggestions.map Suggestion.id

namespace WellNamed

theorem nil : WellNamed [] :=
  ⟨List.nodup_nil, List.not_mem_nil⟩

/-- Ranking and cutting keeps names apart. -/
theorem ranked {suggestions : List Suggestion} {names : List String}
    (areNamed : AreNamed suggestions names) (apart : names.Nodup)
    (others : setManually.id ∉ names) : WellNamed (ranked settings suggestions) := by
  have sorted := (List.mergeSort_perm suggestions
    fun a b => !b.deviation.lt a.deviation).map Suggestion.id
  have cut : ((Check.ranked settings suggestions).map Suggestion.id).Sublist
      ((suggestions.mergeSort fun a b => !b.deviation.lt a.deviation).map Suggestion.id) :=
    (List.take_sublist _ _).map _
  constructor
  · exact cut.nodup (sorted.nodup_iff.mpr (areNamed.nodup apart))
  · exact fun mem => others (areNamed.subset (sorted.subset (cut.subset mem)))

/-- What is found for the numbers of a neighbourhood, and named by their numerals, is well named
after ranking. -/
theorem searched {family : String} (otherStart : ¬family.toList <+: setManually.id.toList)
    {suggest : Int → Outcome (List Suggestion)}
    (each : ∀ candidate suggestions, suggest candidate = .ok suggestions →
      AreNamed suggestions [numbered family candidate])
    {center : Int} {radius : Nat} {found : List (List Suggestion)}
    (computed : (neighbours center radius).mapM suggest = .ok found) :
    WellNamed (Check.ranked settings found.flatten) := by
  apply ranked (areNamed_flatten each computed)
  · have apart : (neighbours center radius).Nodup :=
      (pairwise_neighbours center radius).imp Int.ne_of_lt
    exact apart.map fun _ _ => numbered_injective family
  · intro mem
    rcases List.mem_map.mp mem with ⟨candidate, -, same⟩
    exact numbered_ne otherStart candidate same

end WellNamed

/-- What is suggested instead of a rule is well named. -/
theorem wellNamed_of_misfit {rule : Spacing} {found : Misfit}
    (isFound : misfit n rule settings = .ok (some found)) : WellNamed found.suggestions := by
  cases rule with
  | pattern on off startLit =>
      rw [misfit, pattern] at isFound
      split at isFound
      · cases isFound
        exact .nil
      split at isFound
      · cases isFound
      · rcases bind_eq_ok_iff.mp isFound with ⟨suggestions, given, shape⟩
        rw [pure_eq_ok_iff, Option.some.injEq] at shape
        subst shape
        exact .ranked (areNamed_cycleSuggestions given) (by decide) (by decide)
  | equallySpaced count =>
      rw [misfit] at isFound
      by_cases searched : 0 < count ∧ count ≤ n
      · obtain ⟨lists, computed, isRanked⟩ :=
          exists_search_of_equallySpaced searched.1 searched.2 isFound
        rw [isRanked]
        exact .searched (by decide) (fun _ _ => areNamed_otherCount) computed
      rw [equallySpaced] at isFound
      split at isFound
      · cases isFound
        exact .nil
      · rw [if_pos (by omega)] at isFound
        cases isFound
        exact .ranked (areNamed_everyLight_halfTheLights n) (by decide) (by decide)
  | everyNth interval =>
      rw [misfit] at isFound
      by_cases positive : 0 < interval
      · obtain ⟨lists, computed, -, isRanked⟩ := exists_search_of_everyNth positive isFound
        rw [isRanked]
        exact .searched (by decide) (fun _ _ => areNamed_otherInterval) computed
      · rw [everyNth, if_pos (by omega)] at isFound
        cases isFound
        exact .nil
  | anchorsOnly => cases isFound
  | continuous => cases isFound

/-- The choice for the nearest suggestion is recommended, however far off it is. -/
theorem recommended_of_head_choicesFor {suggestions : List Suggestion} {first : Choice}
    (isFirst : first ∈ (choicesFor suggestions settings).head?) : first.recommended = true := by
  cases suggestions with
  | nil => cases isFirst
  | cons nearest rest =>
      cases isFirst
      rfl

/-- The flag that the checks raise for a layer: its choices are well named, and the first of them,
if there is any, is recommended. -/
theorem Raises.wellNamed {roofline : Roofline} {present : Layer} {flag : Ambiguity}
    (raises : Raises roofline settings present flag) :
    (flag.choices.map Choice.id).Nodup ∧ setManually.id ∉ flag.choices.map Choice.id ∧
      ∀ first ∈ flag.choices.head?, first.recommended = true := by
  obtain ⟨n, rule, verdict, isVerdict, rfl⟩ := raises.exists_verdict
  have named : WellNamed verdict.suggestions := by
    rcases bind_eq_ok_iff.mp isVerdict with ⟨found, isFound, shape⟩
    rw [pure_eq_ok_iff] at shape
    subst shape
    cases found with
    | none => exact .nil
    | some misfit => exact wellNamed_of_misfit isFound
  have ids : (choicesFor verdict.suggestions settings).map Choice.id =
      verdict.suggestions.map Suggestion.id := by
    rw [choicesFor, List.map_map, ← List.zipIdx_map_fst 0 verdict.suggestions, List.map_map,
      List.zipIdx_map_fst]
    rfl
  exact ⟨ids ▸ named.apart, ids ▸ named.notByHand, fun _ => recommended_of_head_choicesFor⟩

end Suggested

end Check

end Eaves
