import Eaves.Proofs.Design.Within
import Eaves.Proofs.Question.Asking

/-!
# What questions offer

Every question offers something: zone, spacing and conflict questions end with an
option that is always there, motion questions fall back on the usual ones, and a flag
about a colour names shades.  An option of a spacing question is a rule or the choice
to set it by hand; one of a conflict question is a choice of its flag or blends.

On a roofline of fewer than `2 ^ 53` lights, every flag within bounds becomes a
question: its lights are counted and its rules are shown light by light.  What a zone
question offers is again within bounds.
-/

namespace Eaves

open Outcome

namespace Preview

/-- A rule within bounds can be shown. -/
theorem ofSpacing_succeeds {rule : Spacing} (below : rule.SpreadsBelow (2 ^ 120))
    (coloring : Coloring) {n : Nat} (small : n < 2 ^ 116) (brightness : Int) :
    ∃ payload, ofSpacing rule coloring n brightness = .ok payload := by
  unfold ofSpacing
  split
  · exact ⟨_, rfl⟩
  · rename_i lit
    have short : (⟨0, (n : Int).toNat - 1, Nat.zero_le _⟩ : PixelRange).length < 2 ^ 120 := by
      simp only [PixelRange.length]
      omega
    rcases Spacing.paint_succeeds below .blank short coloring none with ⟨canvas, painted⟩
    rw [painted, ok_bind]
    exact ⟨_, rfl⟩

end Preview

section Strip

variable {intent : Intent} {roofline : Roofline} {settings : CheckSettings}

/-- The layer that an id names is one of the layers. -/
theorem mem_of_layer? {id : Option String} {layer : Layer} (found : intent.layer? id = some layer) :
    layer ∈ intent.layers := by
  rcases Option.bind_eq_some_iff.mp found with ⟨name, -, isFound⟩
  exact List.mem_of_find?_eq_some isFound

/-- The lights that a question is about can be counted. -/
theorem Subject.pixelCount_succeeds (listed : ∀ layer ∈ intent.layers, layer.zone.IsListed)
    (small : roofline.total < 2 ^ 53) (shares : settings.HasShares) (layerId : Option String) :
    ∃ n, Subject.pixelCount ⟨intent, some roofline, settings⟩ layerId = .ok n ∧ n < 2 ^ 116 := by
  rw [Subject.pixelCount]
  cases found : intent.layer? layerId with
  | none => exact ⟨roofline.total, rfl, by omega⟩
  | some layer => exact Zone.pixelCount_succeeds (listed layer (mem_of_layer? found)) small shares

/-- The option of a choice within bounds can be shown. -/
theorem spacingOffer_succeeds {choice : Choice} (within : choice.value.IsWithin (2 ^ 120))
    (coloring : Coloring) {n : Nat} (few : n < 2 ^ 116) (brightness : Int) :
    ∃ offer, spacingOffer coloring n brightness choice = .ok offer := by
  unfold spacingOffer
  dsimp only
  split
  · rename_i rule isRule
    obtain ⟨payload, shown⟩ :=
      Preview.ofSpacing_succeeds (within.rules rule isRule) coloring few brightness
    rw [shown, ok_bind]
    exact ⟨_, rfl⟩
  · exact ⟨_, rfl⟩

/-- A flag within bounds has a wording and options. -/
theorem wordingAndOffers_succeeds {subject : Subject} {flag : Ambiguity} {n : Nat}
    (counted : subject.pixelCount flag.layerId = .ok n) (few : n < 2 ^ 116)
    (within : flag.IsWithin (2 ^ 120)) :
    ∃ wording, wordingAndOffers subject flag = .ok wording := by
  unfold wordingAndOffers
  cases flag.kind with
  | zone => exact ⟨_, rfl⟩
  | color =>
      dsimp only
      rw [colorOffers, counted, ok_bind]
      exact ⟨_, rfl⟩
  | spacingImpossible =>
      let coloring := ((subject.intent.layer? flag.layerId).map Layer.coloring).getD {}
      obtain ⟨offers, offered⟩ := mapM_succeeds fun choice mem =>
        spacingOffer_succeeds (within choice mem) coloring few subject.brightness
      dsimp only
      rw [spacingOffers, counted, ok_bind]
      dsimp only
      rw [offered, ok_bind]
      exact ⟨_, rfl⟩
  | direction => exact ⟨_, rfl⟩
  | conflict => exact ⟨_, rfl⟩
  | effect => exact ⟨_, rfl⟩

/-- Flags within bounds can be asked about where their lights can be counted. -/
theorem ask_succeeds_of_counted {subject : Subject} {flags : List Ambiguity}
    (counted : ∀ flag ∈ flags, ∃ n, subject.pixelCount flag.layerId = .ok n ∧ n < 2 ^ 116)
    (within : ∀ flag ∈ flags, flag.IsWithin (2 ^ 120)) :
    ∃ questions, ask flags subject = .ok questions := by
  rw [exists_ask_iff]
  intro flag mem
  obtain ⟨n, isCount, few⟩ := counted flag mem
  obtain ⟨worded, isWorded⟩ := wordingAndOffers_succeeds isCount few (within flag mem)
  exact ⟨worded, n, isWorded, isCount⟩

/-- Flags within bounds can be asked about. -/
theorem ask_succeeds (listed : ∀ layer ∈ intent.layers, layer.zone.IsListed)
    (small : roofline.total < 2 ^ 53) (shares : settings.HasShares) {flags : List Ambiguity}
    (within : ∀ flag ∈ flags, flag.IsWithin (2 ^ 120)) :
    ∃ questions, ask flags ⟨intent, some roofline, settings⟩ = .ok questions :=
  ask_succeeds_of_counted
    (fun flag _ => Subject.pixelCount_succeeds listed small shares flag.layerId) within

end Strip

/-! ## What is offered -/

/-- An option with the texts, the mark and the value of a choice. -/
structure Offer.StandsFor (offer : Offer) (choice : Choice) : Prop where
  id_eq : offer.id = choice.id
  label_eq : offer.label = choice.label
  description_eq : offer.description = choice.description
  recommended_eq : offer.recommended = choice.recommended
  value_eq : offer.value = choice.value

theorem Offer.standsFor_ofChoice (icon : String) (choice : Choice) :
    (ofChoice icon choice).StandsFor choice :=
  ⟨rfl, rfl, rfl, rfl, rfl⟩

/-- The options with a last one are options that were there and the last one. -/
theorem Offer.mem_of_mem_withLast {offers : List Offer} {last offer : Offer}
    {aliases : List String} (mem : offer ∈ withLast offers last aliases) :
    offer ∈ offers ∨ offer = last := by
  unfold withLast at mem
  rcases List.mem_append.mp mem with front | back
  · exact .inl (List.mem_filter.mp (List.mem_of_mem_take front)).1
  · rw [List.mem_singleton] at back
    subst back
    cases found : offers.find? fun offer => offer.id == last.id || aliases.contains offer.id with
    | none => exact .inr (by rw [Option.getD_none])
    | some there =>
        rw [Option.getD_some]
        exact .inl (List.mem_of_find?_eq_some found)

/-- The options for the shapes of segments are zones of features. -/
theorem exists_features_of_mem_segmentOffers {roofline : Roofline} {offer : Offer}
    (mem : offer ∈ segmentOffers roofline) :
    ∃ named, offer.value = .zone (.features named) := by
  unfold segmentOffers countedOffer at mem
  simp only [List.mem_append] at mem
  rcases mem with ((peaks | corners) | both) | runs
  · split at peaks
    · cases peaks
    · rw [List.mem_singleton] at peaks
      exact peaks ▸ ⟨_, rfl⟩
  · split at corners
    · cases corners
    · rw [List.mem_singleton] at corners
      exact corners ▸ ⟨_, rfl⟩
  · split at both
    · rw [List.mem_singleton] at both
      exact both ▸ ⟨_, rfl⟩
    · cases both
  · split at runs
    · cases runs
    · rw [List.mem_singleton] at runs
      exact runs ▸ ⟨_, rfl⟩

/-- What a zone question offers is a choice of its flag, or has no plain ranges. -/
theorem isListed_of_mem_zoneOffers {subject : Subject} {most : Int} {flag : Ambiguity}
    (within : flag.IsWithin most) {offer : Offer} (mem : offer ∈ zoneOffers subject flag) :
    ∀ zone, offer.value.zone? = some zone → zone.IsListed := by
  have ownListed : ∀ own ∈ flag.choices.map fun choice =>
      Offer.ofChoice (Icon.forZone choice.label) choice,
      ∀ zone, own.value.zone? = some zone → zone.IsListed := by
    intro own inside
    rcases List.mem_map.mp inside with ⟨choice, choiceMem, rfl⟩
    exact (within choice choiceMem).zones
  rcases Offer.mem_of_mem_withLast mem with there | rfl
  · cases strip : subject.roofline with
    | none =>
        simp only [strip] at there
        exact ownListed offer there
    | some roofline =>
        simp only [strip, withSegmentOffers] at there
        rcases List.mem_append.mp there with own | added
        · exact ownListed offer own
        · rcases List.mem_map.mp added with ⟨plain, plainMem, rfl⟩
          obtain ⟨named, isFeatures⟩ :=
            exists_features_of_mem_segmentOffers (List.mem_filter.mp plainMem).1
          intro zone isZone
          simp only [isFeatures] at isZone
          cases isZone
          trivial
  · intro zone isZone
    cases isZone
    trivial

/-! ## Something is offered -/

theorem Offer.withLast_ne_nil (offers : List Offer) (last : Offer) (aliases : List String) :
    withLast offers last aliases ≠ [] := by
  unfold withLast
  intro empty
  cases List.append_eq_nil_iff.mp empty with
  | intro _ noLast => cases noLast

theorem directionOffers_ne_nil (flag : Ambiguity) : directionOffers flag ≠ [] := by
  unfold directionOffers
  split
  · exact List.cons_ne_nil _ _
  · rename_i hasChoices
    rw [Ne, List.map_eq_nil_iff]
    rintro noChoices
    rw [noChoices] at hasChoices
    exact hasChoices rfl

/-- With fewer than two choices of its own, an effect question offers a usual kind of motion. -/
theorem effectOffers_ne_nil (flag : Ambiguity) : effectOffers flag ≠ [] := by
  unfold effectOffers
  dsimp only
  split
  · intro empty
    rcases List.append_eq_nil_iff.mp empty with ⟨noOwn, noUsual⟩
    rw [noOwn] at noUsual
    cases noUsual
  · rename_i several
    intro empty
    rw [empty] at several
    exact several (by decide)

/-- A flag that names shades, if it is about a colour, is offered something for. -/
theorem offers_ne_nil {subject : Subject} {flag : Ambiguity} {wording : String}
    {offers : List Offer} (shades : flag.kind = .color → flag.choices ≠ [])
    (worded : wordingAndOffers subject flag = .ok (wording, offers)) : offers ≠ [] := by
  unfold wordingAndOffers at worded
  split at worded
  · cases worded
    exact Offer.withLast_ne_nil _ _ _
  · rename_i isColor
    rcases map_eq_ok_iff.mp worded with ⟨offered, isOffered, shape⟩
    cases shape
    rcases bind_eq_ok_iff.mp isOffered with ⟨n, -, rest⟩
    rw [pure_eq_ok_iff] at rest
    rw [← rest, Ne, List.map_eq_nil_iff]
    exact shades isColor
  · rcases map_eq_ok_iff.mp worded with ⟨offered, isOffered, shape⟩
    cases shape
    rcases bind_eq_ok_iff.mp isOffered with ⟨n, -, rest⟩
    rcases bind_eq_ok_iff.mp rest with ⟨own, -, last⟩
    rw [pure_eq_ok_iff] at last
    exact last ▸ Offer.withLast_ne_nil _ _ _
  · cases worded
    exact directionOffers_ne_nil flag
  · cases worded
    exact effectOffers_ne_nil flag
  · cases worded
    exact Offer.withLast_ne_nil _ _ _

theorem offers_ne_nil_of_askOne {subject : Subject} {position : Nat} {flag : Ambiguity}
    {question : Question} (shades : flag.kind = .color → flag.choices ≠ [])
    (asked : askOne subject position flag = .ok question) : question.offers ≠ [] := by
  rcases askOne_eq_ok_iff.mp asked with ⟨wording, offers, n, worded, -, rfl⟩
  have some := offers_ne_nil shades worded
  dsimp only
  rw [Ne, List.take_eq_nil_iff]
  rintro (none | empty)
  · cases none
  · exact some empty

/-! ## What is offered about spacing -/

/-- An option that is a rule, or leaves the rule to be set by hand. -/
def Offer.IsOfSpacing (offer : Offer) : Prop :=
  offer.id = "manual" ∨ ∃ rule, offer.value = .spacing rule

/-- Showing a rule leaves the choice of it as it is. -/
theorem standsFor_of_spacingOffer {coloring : Coloring} {n brightness : Int} {choice : Choice}
    {offer : Offer} (shown : spacingOffer coloring n brightness choice = .ok offer) :
    offer.StandsFor choice := by
  unfold spacingOffer at shown
  dsimp only at shown
  split at shown
  · rcases bind_eq_ok_iff.mp shown with ⟨payload, -, rest⟩
    rw [pure_eq_ok_iff] at rest
    subst rest
    exact ⟨rfl, rfl, rfl, rfl, rfl⟩
  · cases shown
    exact Offer.standsFor_ofChoice _ _

theorem isOfSpacing_of_mem_offers {subject : Subject} {position : Nat} {flag : Ambiguity}
    {question : Question} (isSpacing : flag.kind = .spacingImpossible)
    (rules : ∀ choice ∈ flag.choices, ∃ rule, choice.value = .spacing rule)
    (asked : askOne subject position flag = .ok question) {offer : Offer}
    (mem : offer ∈ question.offers) : offer.IsOfSpacing := by
  rcases askOne_eq_ok_iff.mp asked with ⟨wording, offers, n, worded, -, rfl⟩
  simp only [wordingAndOffers, isSpacing] at worded
  rcases map_eq_ok_iff.mp worded with ⟨offered, isOffered, shape⟩
  cases shape
  rcases bind_eq_ok_iff.mp isOffered with ⟨lights, -, rest⟩
  rcases bind_eq_ok_iff.mp rest with ⟨own, isOwn, last⟩
  rw [pure_eq_ok_iff] at last
  subst last
  rcases Offer.mem_of_mem_withLast (List.mem_of_mem_take mem) with there | rfl
  · rcases exists_mem_of_mapM isOwn there with ⟨choice, choiceMem, shown⟩
    rcases rules choice choiceMem with ⟨rule, isRule⟩
    exact .inr ⟨rule, (standsFor_of_spacingOffer shown).value_eq.trans isRule⟩
  · exact .inl rfl

/-! ## What is offered about conflicts -/

theorem exists_choice_of_mem_offers {subject : Subject} {position : Nat} {flag : Ambiguity}
    {question : Question} (isConflict : flag.kind = .conflict)
    (asked : askOne subject position flag = .ok question) {offer : Offer}
    (mem : offer ∈ question.offers) :
    offer.id = "merge" ∨ ∃ choice ∈ flag.choices, offer.id = choice.id := by
  rcases askOne_eq_ok_iff.mp asked with ⟨wording, offers, n, worded, -, rfl⟩
  simp only [wordingAndOffers, isConflict] at worded
  cases worded
  rcases Offer.mem_of_mem_withLast (List.mem_of_mem_take mem) with there | rfl
  · rcases List.mem_map.mp there with ⟨choice, choiceMem, rfl⟩
    exact .inr ⟨choice, choiceMem, rfl⟩
  · exact .inl rfl

end Eaves
