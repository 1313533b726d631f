import Eaves.Answer.Layer
import Eaves.Proofs.Question.Offers
import Eaves.Proofs.Record.Written

/-!
# Questions that are alike

What an answer does depends on little of an option: on its id, on its label, and on
what its value is read as.  Two flags that agree in this much, asked about for two
designs, become questions that agree in it too, whatever the previews show and
wherever the flags stand; so an answer to the one does what it does to the other.

Plain data is read as the term that it was written from, so a flag that comes back
from a record is alike to the flag that was kept.

Being alike is one relation of several.  Options are worked out choice by choice, and
the options that are added to them show nothing, so whatever relation of choices goes
over to the options for them goes over to the questions.
-/

namespace Eaves

open Outcome

/-! ## Values and options -/

/-- Two values that are read as the same zone, rule, colour, direction and kind of motion. -/
structure Value.Alike (value other : Value) : Prop where
  zone_eq : value.zone? = other.zone?
  spacing_eq : value.spacing? = other.spacing?
  color_eq : value.color? = other.color?
  direction_eq : (value.member? : Option Direction) = other.member?
  motion_eq : (value.member? : Option MotionKind) = other.member?

theorem Value.Alike.refl (value : Value) : value.Alike value :=
  ⟨rfl, rfl, rfl, rfl, rfl⟩

/-- Two options that mean the same to every kind of question that is asked about a flag. -/
structure Offer.Alike (offer other : Offer) : Prop where
  id_eq : offer.id = other.id
  label_eq : offer.label = other.label
  value : offer.value.Alike other.value
  color_eq : offer.color? = other.color?

theorem Offer.Alike.refl (offer : Offer) : offer.Alike offer :=
  ⟨rfl, rfl, .refl offer.value, rfl⟩

/-- Two choices that mean the same. -/
structure Choice.Alike (choice other : Choice) : Prop where
  id_eq : choice.id = other.id
  label_eq : choice.label = other.label
  value : choice.value.Alike other.value

/-- Two flags of one kind, about one layer, with choices that mean the same. -/
structure Ambiguity.Alike (flag other : Ambiguity) : Prop where
  kind_eq : flag.kind = other.kind
  layerId_eq : flag.layerId = other.layerId
  choices : List.Forall₂ Choice.Alike flag.choices other.choices

theorem Ambiguity.Alike.refl (flag : Ambiguity) : flag.Alike flag :=
  ⟨rfl, rfl, List.forall₂_same.mpr fun choice _ => ⟨rfl, rfl, .refl choice.value⟩⟩

/-- Two questions of one kind, about one layer, with options that mean the same. -/
structure Question.Alike (question other : Question) : Prop where
  kind_eq : question.kind = other.kind
  layerId_eq : question.layerId = other.layerId
  offers : List.Forall₂ Offer.Alike question.offers other.offers

/-! ## Plain data -/

theorem Zone.read_spacing (rule : Spacing) : (Zone.read rule.toValue).toOption = none := by
  cases rule <;> rfl

theorem Spacing.read_zone (zone : Zone) : (Spacing.read zone.toValue).toOption = none := by
  cases zone <;> rfl

/-- Plain data is read as the term that it was written from. -/
theorem Value.IsFlat.alike_plain {value : Value} (flat : value.IsFlat) :
    value.Alike value.plain := by
  cases value with
  | color color =>
      refine ⟨rfl, rfl, ?_, rfl, rfl⟩
      have isRead : (Color.read color.toValue).toOption = some color := by
        rw [color.read_toValue]
        rfl
      exact isRead.symm
  | zone zone =>
      refine ⟨?_, ?_, ?_, rfl, rfl⟩
      · rw [plain, Value.zone?, Value.zone?, zone.read_toValue]
        rfl
      · exact (Spacing.read_zone zone).symm
      · cases zone <;> rfl
  | spacing rule =>
      refine ⟨?_, ?_, ?_, rfl, rfl⟩
      · exact (Zone.read_spacing rule).symm
      · rw [plain, Value.spacing?, Value.spacing?, rule.read_toValue]
        rfl
      · cases rule <;> rfl
  | direction direction => cases direction <;> exact ⟨rfl, rfl, rfl, rfl, rfl⟩
  | motion kind => cases kind <;> exact ⟨rfl, rfl, rfl, rfl, rfl⟩
  | speed preset => cases preset <;> exact ⟨rfl, rfl, rfl, rfl, rfl⟩
  | list _ => exact flat.elim
  | object _ => exact flat.elim
  | date _ => exact flat.elim
  | null => exact .refl _
  | bool _ => exact .refl _
  | int _ => exact .refl _
  | float _ => exact .refl _
  | text _ => exact .refl _

/-! ## Related lists -/

section Related

variable {α β : Type} {R : α → β → Prop}

/-- Searches that take the same members of related lists find related ones, or both nothing. -/
theorem find?_related {members : List α} {others : List β} {p : α → Bool} {q : β → Bool}
    (samely : ∀ a b, R a b → p a = q b) (related : List.Forall₂ R members others) :
    Option.Rel R (members.find? p) (others.find? q) := by
  induction related with
  | nil => exact .none
  | @cons a b _ _ first _ ih =>
      rw [List.find?_cons, List.find?_cons, samely a b first]
      cases q b with
      | true => exact .some first
      | false => exact ih

theorem filter_related {members : List α} {others : List β} {p : α → Bool} {q : β → Bool}
    (samely : ∀ a b, R a b → p a = q b) (related : List.Forall₂ R members others) :
    List.Forall₂ R (members.filter p) (others.filter q) :=
  List.rel_filter (fun a b isRelated => iff_of_eq (congrArg (· = true) (samely a b isRelated)))
    related

theorem any_related {members : List α} {others : List β} {p : α → Bool} {q : β → Bool}
    (samely : ∀ a b, R a b → p a = q b) (related : List.Forall₂ R members others) :
    members.any p = others.any q := by
  induction related with
  | nil => rfl
  | @cons a b _ _ first _ ih => rw [List.any_cons, List.any_cons, samely a b first, ih]

theorem map_related {γ δ : Type} {S : γ → δ → Prop} {f : α → γ} {g : β → δ}
    {members : List α} {others : List β} (each : ∀ a b, R a b → S (f a) (g b))
    (related : List.Forall₂ R members others) :
    List.Forall₂ S (members.map f) (others.map g) :=
  List.rel_map each related

/-- What is made of related lists, member by member, is related where it is for each. -/
theorem made_related {γ δ : Type} {Makes : α → γ → Prop} {MakesToo : β → δ → Prop}
    {S : γ → δ → Prop} {members : List α} {others : List β} {made : List γ} {madeToo : List δ}
    (each : ∀ a b c d, R a b → Makes a c → MakesToo b d → S c d)
    (related : List.Forall₂ R members others) (makes : List.Forall₂ Makes members made)
    (makesToo : List.Forall₂ MakesToo others madeToo) : List.Forall₂ S made madeToo := by
  induction related generalizing made madeToo with
  | nil =>
      cases makes
      cases makesToo
      exact .nil
  | cons first _ ih =>
      cases makes with
      | cons firstMade restMade =>
          cases makesToo with
          | cons firstToo restToo =>
              exact .cons (each _ _ _ _ first firstMade firstToo) (ih restMade restToo)

/-- Related lists are related with the positions of their members. -/
theorem zipIdx_related {members : List α} {others : List β}
    (related : List.Forall₂ R members others) (start : Nat) :
    List.Forall₂ (fun placed other : _ × Nat => R placed.1 other.1 ∧ placed.2 = other.2)
      (members.zipIdx start) (others.zipIdx start) := by
  induction related generalizing start with
  | nil => exact .nil
  | cons first _ ih => exact .cons ⟨first, rfl⟩ (ih (start + 1))

end Related

/-! ## Options of flags that are alike -/

variable {flag twin : Ambiguity} {subject other : Subject}

/-- The option presents the choice: it has its id, its label and its value, and shows no other
colour. -/
structure Offer.Presents (offer : Offer) (choice : Choice) : Prop where
  id_eq : offer.id = choice.id
  label_eq : offer.label = choice.label
  value_eq : offer.value = choice.value
  color_eq : offer.color? = choice.value.color?

theorem Offer.presents_ofChoice (icon : String) (choice : Choice) :
    (ofChoice icon choice).Presents choice :=
  ⟨rfl, rfl, rfl, by simp [Offer.color?, ofChoice]⟩

/-- Showing a colour on the strip changes nothing about what it is. -/
theorem presents_colorOffer (n brightness : Int) (choice : Choice) :
    (colorOffer n brightness choice).Presents choice := by
  unfold colorOffer
  dsimp only
  split
  · rename_i color isColor
    refine ⟨rfl, rfl, rfl, ?_⟩
    simp [Offer.color?, Offer.ofChoice, isColor, Value.color?]
  · exact Offer.presents_ofChoice _ choice

/-- Showing a rule light by light changes nothing about what it is. -/
theorem presents_spacingOffer {coloring : Coloring} {n brightness : Int} {choice : Choice}
    {offer : Offer} (shown : spacingOffer coloring n brightness choice = .ok offer) :
    offer.Presents choice := by
  unfold spacingOffer at shown
  dsimp only at shown
  split at shown
  · rcases bind_eq_ok_iff.mp shown with ⟨payload, -, rest⟩
    rw [pure_eq_ok_iff] at rest
    subst rest
    exact ⟨rfl, rfl, rfl, by simp [Offer.color?, Offer.ofChoice]⟩
  · cases shown
    exact Offer.presents_ofChoice _ choice

/-- Options that present choices that mean the same mean the same. -/
theorem Choice.Alike.presented {choice same : Choice} (alike : choice.Alike same)
    {offer option : Offer} (presents : offer.Presents choice)
    (presentsToo : option.Presents same) : offer.Alike option := by
  refine ⟨?_, ?_, ?_, ?_⟩
  · rw [presents.id_eq, presentsToo.id_eq, alike.id_eq]
  · rw [presents.label_eq, presentsToo.label_eq, alike.label_eq]
  · rw [presents.value_eq, presentsToo.value_eq]
    exact alike.value
  · rw [presents.color_eq, presentsToo.color_eq, alike.value.color_eq]

/-- Whether an option is recommended says nothing about what it means. -/
theorem Offer.Alike.recommend {offer option : Offer} (alike : offer.Alike option)
    (recommended marked : Bool) :
    Offer.Alike { offer with recommended := recommended }
      { option with recommended := marked } :=
  ⟨alike.id_eq, alike.label_eq, alike.value, alike.color_eq⟩

/-! ## Options of flags whose choices are related -/

/-- An option with nothing to see of it. -/
structure Offer.ShowsNothing (offer : Offer) : Prop where
  preview_eq : offer.preview = none
  swatches_eq : offer.swatches = none

/-- A relation of options that a relation of choices carries: related options have the same id,
options for related choices are related, and an option that is added to related options, and shows
nothing, is related to itself, also where it is recommended only if nothing before it is. -/
structure Offer.Carries (C : Choice → Choice → Prop) (R : Offer → Offer → Prop) : Prop where
  choice_id_eq : ∀ {choice same}, C choice same → choice.id = same.id
  choice_label_eq : ∀ {choice same}, C choice same → choice.label = same.label
  id_eq : ∀ {offer option}, R offer option → offer.id = option.id
  ofChoice : ∀ {choice same}, C choice same → ∀ icon, R (ofChoice icon choice) (ofChoice icon same)
  color : ∀ {choice same}, C choice same → ∀ n m brightness shine : Int,
    R (colorOffer n brightness choice) (colorOffer m shine same)
  spacing : ∀ {choice same offer option}, C choice same →
    ∀ {coloring shades : Coloring} {n m brightness shine : Int},
      spacingOffer coloring n brightness choice = .ok offer →
      spacingOffer shades m shine same = .ok option → R offer option
  added : ∀ {offers options}, List.Forall₂ R offers options → ∀ {offer : Offer},
    offer.ShowsNothing →
      R { offer with recommended := offer.recommended && !offers.any Offer.recommended }
        { offer with recommended := offer.recommended && !options.any Offer.recommended }

/-- What choices mean is carried by what options mean. -/
theorem Offer.carries_alike : Carries Choice.Alike Offer.Alike where
  choice_id_eq := Choice.Alike.id_eq
  choice_label_eq := Choice.Alike.label_eq
  id_eq := Offer.Alike.id_eq
  ofChoice alike icon := alike.presented (presents_ofChoice icon _) (presents_ofChoice icon _)
  color alike n m brightness shine :=
    alike.presented (presents_colorOffer n brightness _) (presents_colorOffer m shine _)
  spacing alike _ _ _ _ _ _ shown shownToo :=
    alike.presented (presents_spacingOffer shown) (presents_spacingOffer shownToo)
  added _ _ _ := (Offer.Alike.refl _).recommend _ _

theorem showsNothing_of_mem_segmentOffers {roofline : Roofline} {offer : Offer}
    (mem : offer ∈ segmentOffers roofline) : offer.ShowsNothing := by
  unfold segmentOffers countedOffer at mem
  simp only [List.mem_append, List.mem_ite_nil_left, List.mem_ite_nil_right,
    List.mem_singleton] at mem
  rcases mem with ((⟨-, rfl⟩ | ⟨-, rfl⟩) | ⟨-, rfl⟩) | ⟨-, rfl⟩ <;> exact ⟨rfl, rfl⟩

theorem showsNothing_of_mem_usualMotions {offer : Offer} (mem : offer ∈ usualMotions) :
    offer.ShowsNothing := by
  simp only [usualMotions, List.mem_cons, List.not_mem_nil, or_false] at mem
  rcases mem with rfl | rfl | rfl | rfl <;> exact ⟨rfl, rfl⟩

theorem showsNothing_of_mem_usualDirections {offer : Offer} (mem : offer ∈ usualDirections) :
    offer.ShowsNothing := by
  simp only [usualDirections, List.mem_cons, List.not_mem_nil, or_false] at mem
  rcases mem with rfl | rfl | rfl | rfl <;> exact ⟨rfl, rfl⟩

namespace Offer.Carries

variable {C : Choice → Choice → Prop} {R : Offer → Offer → Prop} (carries : Carries C R)

include carries

/-- An option that shows nothing is related to itself. -/
theorem refl {offer : Offer} (bare : offer.ShowsNothing) : R offer offer := by
  have nothing := carries.added .nil bare
  simp only [List.any_nil, Bool.not_false, Bool.and_true] at nothing
  exact nothing

theorem anyWithId_eq {offers options : List Offer} (related : List.Forall₂ R offers options)
    (id : String) : anyWithId offers id = anyWithId options id :=
  any_related (fun _ _ same => by rw [carries.id_eq same]) related

theorem withLast {offers options : List Offer} (related : List.Forall₂ R offers options)
    {last : Offer} (bare : last.ShowsNothing) (aliases : List String) :
    List.Forall₂ R (Offer.withLast offers last aliases) (Offer.withLast options last aliases) := by
  have isLast : ∀ offer option : Offer, R offer option →
      (offer.id == last.id || aliases.contains offer.id) =
        (option.id == last.id || aliases.contains option.id) := by
    intro offer option same
    rw [carries.id_eq same]
  have others : ∀ offer option : Offer, R offer option →
      (!(offer.id == last.id || aliases.contains offer.id)) =
        !(option.id == last.id || aliases.contains option.id) :=
    fun offer option same => congrArg Bool.not (isLast offer option same)
  refine List.rel_append (List.forall₂_take _ (filter_related others related)) (.cons ?_ .nil)
  have found := find?_related isLast related
  revert found
  cases offers.find? _ <;> cases options.find? _ <;> intro found <;> cases found
  · exact carries.refl bare
  · assumption

/-- Options that are added where none has their id are added alike. -/
theorem addedWhereNew {offers options : List Offer} (related : List.Forall₂ R offers options)
    {added : List Offer} (bare : ∀ offer ∈ added, offer.ShowsNothing) :
    List.Forall₂ R
      (offers ++ (added.filter fun offer => !anyWithId offers offer.id).map
        fun offer => { offer with
          recommended := offer.recommended && !offers.any Offer.recommended })
      (options ++ (added.filter fun offer => !anyWithId options offer.id).map
        fun offer => { offer with
          recommended := offer.recommended && !options.any Offer.recommended }) := by
  simp only [carries.anyWithId_eq related]
  apply List.rel_append related
  rw [List.forall₂_map_left_iff, List.forall₂_map_right_iff]
  exact List.forall₂_same.mpr fun offer mem =>
    carries.added related (bare offer (List.mem_filter.mp mem).1)

/-- The options for the choices of flags with related choices. -/
theorem ownOffers (related : List.Forall₂ C flag.choices twin.choices) (icon : Choice → String)
    (sameIcon : ∀ choice same, C choice same → icon choice = icon same) :
    List.Forall₂ R (flag.choices.map fun choice => Offer.ofChoice (icon choice) choice)
      (twin.choices.map fun choice => Offer.ofChoice (icon choice) choice) := by
  refine map_related (fun choice same isRelated => ?_) related
  rw [sameIcon choice same isRelated]
  exact carries.ofChoice isRelated (icon same)

theorem zoneOffers (sameStrip : subject.roofline = other.roofline)
    (related : List.Forall₂ C flag.choices twin.choices) :
    List.Forall₂ R (Eaves.zoneOffers subject flag) (Eaves.zoneOffers other twin) := by
  have own := carries.ownOffers related (fun choice => Icon.forZone choice.label)
    fun _ _ same => congrArg Icon.forZone (carries.choice_label_eq same)
  unfold Eaves.zoneOffers
  rw [sameStrip]
  refine carries.withLast ?_ ⟨rfl, rfl⟩ _
  cases other.roofline with
  | none => exact own
  | some roofline =>
      exact carries.addedWhereNew own fun _ mem => showsNothing_of_mem_segmentOffers mem

theorem directionOffers (related : List.Forall₂ C flag.choices twin.choices) :
    List.Forall₂ R (Eaves.directionOffers flag) (Eaves.directionOffers twin) := by
  have sameLength := related.length_eq
  unfold Eaves.directionOffers
  cases isEmpty : twin.choices.isEmpty with
  | true =>
      rw [List.isEmpty_iff_length_eq_zero, ← sameLength, ← List.isEmpty_iff_length_eq_zero]
        at isEmpty
      rw [if_pos isEmpty, if_pos rfl]
      exact List.forall₂_same.mpr fun _ mem =>
        carries.refl (showsNothing_of_mem_usualDirections mem)
  | false =>
      have notEmpty : flag.choices.isEmpty = false := by
        rw [Bool.eq_false_iff, Ne, List.isEmpty_iff_length_eq_zero, sameLength,
          ← List.isEmpty_iff_length_eq_zero, isEmpty]
        exact Bool.false_ne_true
      rw [notEmpty, if_neg Bool.false_ne_true, if_neg Bool.false_ne_true]
      exact carries.ownOffers related (fun choice => Icon.forDirection choice.id) fun _ _ same =>
        congrArg Icon.forDirection (carries.choice_id_eq same)

theorem effectOffers (related : List.Forall₂ C flag.choices twin.choices) :
    List.Forall₂ R (Eaves.effectOffers flag) (Eaves.effectOffers twin) := by
  have own := carries.ownOffers related (fun choice => Icon.forEffect choice.id)
    fun _ _ same => congrArg Icon.forEffect (carries.choice_id_eq same)
  unfold Eaves.effectOffers
  dsimp only
  rw [own.length_eq]
  split
  · exact carries.addedWhereNew own fun _ mem => showsNothing_of_mem_usualMotions mem
  · exact own

/-- The options worked out for flags of one kind with related choices, on one strip, are
related. -/
theorem wordingAndOffers (sameStrip : subject.roofline = other.roofline)
    (sameKind : flag.kind = twin.kind) (related : List.Forall₂ C flag.choices twin.choices)
    {wording words : String} {offers options : List Offer}
    (worded : Eaves.wordingAndOffers subject flag = .ok (wording, offers))
    (wordedToo : Eaves.wordingAndOffers other twin = .ok (words, options)) :
    List.Forall₂ R offers options := by
  unfold Eaves.wordingAndOffers at worded wordedToo
  rw [← sameKind] at wordedToo
  cases kind : flag.kind <;> simp only [kind] at worded wordedToo
  case zone =>
    cases worded
    cases wordedToo
    exact carries.zoneOffers sameStrip related
  case color =>
    rcases map_eq_ok_iff.mp worded with ⟨shown, isShown, shape⟩
    rcases map_eq_ok_iff.mp wordedToo with ⟨shownToo, isShownToo, shapeToo⟩
    cases shape
    cases shapeToo
    rcases bind_eq_ok_iff.mp isShown with ⟨n, -, rest⟩
    rcases bind_eq_ok_iff.mp isShownToo with ⟨m, -, restToo⟩
    rw [pure_eq_ok_iff] at rest restToo
    subst rest restToo
    exact map_related (fun _ _ same => carries.color same _ _ _ _) related
  case spacingImpossible =>
    rcases map_eq_ok_iff.mp worded with ⟨shown, isShown, shape⟩
    rcases map_eq_ok_iff.mp wordedToo with ⟨shownToo, isShownToo, shapeToo⟩
    cases shape
    cases shapeToo
    rcases bind_eq_ok_iff.mp isShown with ⟨n, -, rest⟩
    rcases bind_eq_ok_iff.mp isShownToo with ⟨m, -, restToo⟩
    rcases bind_eq_ok_iff.mp rest with ⟨own, isOwn, last⟩
    rcases bind_eq_ok_iff.mp restToo with ⟨ownToo, isOwnToo, lastToo⟩
    rw [pure_eq_ok_iff] at last lastToo
    subst last lastToo
    refine carries.withLast ?_ ⟨rfl, rfl⟩ _
    refine made_related ?_ related (mapM_eq_ok_iff.mp isOwn) (mapM_eq_ok_iff.mp isOwnToo)
    exact fun _ _ _ _ same shown shownToo => carries.spacing same shown shownToo
  case direction =>
    cases worded
    cases wordedToo
    exact carries.directionOffers related
  case conflict =>
    cases worded
    cases wordedToo
    exact carries.withLast (carries.ownOffers related (fun _ => "layers") fun _ _ _ => rfl)
      ⟨rfl, rfl⟩ _
  case effect =>
    cases worded
    cases wordedToo
    exact carries.effectOffers related

end Offer.Carries

/-! ## Questions about flags that are alike -/

theorem askOne_alike (sameStrip : subject.roofline = other.roofline) (alike : flag.Alike twin)
    {position place : Nat} {question same : Question}
    (asked : askOne subject position flag = .ok question)
    (askedToo : askOne other place twin = .ok same) : question.Alike same := by
  rcases askOne_eq_ok_iff.mp asked with ⟨wording, offers, n, worded, -, rfl⟩
  rcases askOne_eq_ok_iff.mp askedToo with ⟨words, options, m, wordedToo, -, rfl⟩
  refine ⟨congrArg AmbiguityKind.question alike.kind_eq, alike.layerId_eq, ?_⟩
  exact List.forall₂_take _ (Offer.carries_alike.wordingAndOffers sameStrip alike.kind_eq
    alike.choices worded wordedToo)

/-- Sorting by kind keeps questions of one kind beside each other. -/
theorem inAskingOrder_related {R : Question → Question → Prop}
    (sameKind : ∀ question same, R question same → question.kind = same.kind)
    {questions others : List Question} (related : List.Forall₂ R questions others) :
    List.Forall₂ R (inAskingOrder questions) (inAskingOrder others) := by
  let pairs := questions.zip others
  let sorted := pairs.mergeSort fun a b => decide (a.1.kind.priority ≤ b.1.kind.priority)
  have each : ∀ pair ∈ pairs, R pair.1 pair.2 := fun _ mem => List.forall₂_zip related mem
  have left : sorted.map Prod.fst = inAskingOrder questions := by
    have unzipped : pairs.map Prod.fst = questions := List.map_fst_zip related.length_eq.le
    have mapped : sorted.map Prod.fst = inAskingOrder (pairs.map Prod.fst) :=
      List.map_mergeSort fun _ _ _ _ => rfl
    rw [mapped, unzipped]
  have right : sorted.map Prod.snd = inAskingOrder others := by
    have unzipped : pairs.map Prod.snd = others := List.map_snd_zip related.length_eq.ge
    have mapped : sorted.map Prod.snd = inAskingOrder (pairs.map Prod.snd) := by
      apply List.map_mergeSort
      intro a aMem b bMem
      rw [sameKind _ _ (each a aMem), sameKind _ _ (each b bMem)]
    rw [mapped, unzipped]
  rw [← left, ← right, List.forall₂_map_left_iff, List.forall₂_map_right_iff]
  exact List.forall₂_same.mpr fun pair mem => each pair (List.mem_mergeSort.mp mem)

/-- Questions about related flags are related where those about each two of them are. -/
theorem ask_related {R : Ambiguity → Ambiguity → Prop} {S : Question → Question → Prop}
    (sameKind : ∀ question same, S question same → question.kind = same.kind)
    (each : ∀ flag twin position question same, R flag twin →
      askOne subject position flag = .ok question →
      askOne other position twin = .ok same → S question same)
    {flags twins : List Ambiguity} (related : List.Forall₂ R flags twins)
    {questions others : List Question} (asked : ask flags subject = .ok questions)
    (askedToo : ask twins other = .ok others) : List.Forall₂ S questions others := by
  rcases map_eq_ok_iff.mp asked with ⟨unsorted, askedFrom, rfl⟩
  rcases map_eq_ok_iff.mp askedToo with ⟨unsortedToo, askedFromToo, rfl⟩
  refine inAskingOrder_related sameKind ?_
  refine made_related ?_ (zipIdx_related related 0) (askFrom_eq_ok_iff.mp askedFrom)
    (askFrom_eq_ok_iff.mp askedFromToo)
  rintro ⟨flag, position⟩ ⟨twin, place⟩ question same ⟨isRelated, rfl⟩ askedOne askedOneToo
  exact each flag twin position question same isRelated askedOne askedOneToo

/-- The questions about flags that are alike, for two designs on one strip, are alike and have the
same ids. -/
theorem ask_alike (sameStrip : subject.roofline = other.roofline) {flags twins : List Ambiguity}
    (alike : List.Forall₂ Ambiguity.Alike flags twins) {questions others : List Question}
    (asked : ask flags subject = .ok questions) (askedToo : ask twins other = .ok others) :
    List.Forall₂ (fun question same => question.Alike same ∧ question.id = same.id)
      questions others := by
  refine ask_related (fun _ _ related => related.1.kind_eq) ?_ alike asked askedToo
  intro flag twin position question same isAlike askedOne askedOneToo
  refine ⟨askOne_alike sameStrip isAlike askedOne askedOneToo, ?_⟩
  rw [(isAbout_of_askOne askedOne).id_eq, (isAbout_of_askOne askedOneToo).id_eq,
    isAlike.kind_eq]

end Eaves
