import Eaves.Proofs.Question.Alike
import Eaves.Proofs.Question.Asking
import Eaves.Record.Question

/-!
# What fades from a question

An option for a shade is shown as a swatch and on the strip, and an option for a spacing
rule light by light.  Both are told by the term behind the choice.  Plain data means the
same as the term it was written from, but it is no term, so nothing is shown of an
option for a choice that comes back from a record.  All the rest of the question is as
it was.
-/

namespace Eaves

open Outcome

variable {flag : Ambiguity} {choice same : Choice} {offer option : Offer}
  {subject other : Subject} {question : Question}

/-- What stands behind a choice of a kind of flag: a term of that kind, the position of a layer, or
nothing. -/
inductive Value.IsFor : AmbiguityKind → Value → Prop
  | zone (zone : Zone) : IsFor .zone (.zone zone)
  | noZone : IsFor .zone .null
  | color (color : Color) : IsFor .color (.color color)
  | spacing (rule : Spacing) : IsFor .spacingImpossible (.spacing rule)
  | direction (direction : Direction) : IsFor .direction (.direction direction)
  | motion (kind : MotionKind) : IsFor .effect (.motion kind)
  | winner (position : Int) : IsFor .conflict (.int position)
  | noWinner : IsFor .conflict .null

/-- A flag whose choices have behind them what stands behind those of its kind, and no previews of
their own. -/
def Ambiguity.IsTyped (flag : Ambiguity) : Prop :=
  ∀ choice ∈ flag.choices, choice.preview = none ∧ choice.value.IsFor flag.kind

theorem Value.IsFor.plain_plain {kind : AmbiguityKind} {value : Value} (isFor : value.IsFor kind) :
    value.plain.plain = value.plain := by
  cases isFor with
  | zone zone => exact zone.plain_toValue
  | color color => exact color.plain_toValue
  | spacing rule => exact rule.plain_toValue
  | _ => rfl

theorem Value.IsFor.exists_color {value : Value} (isFor : value.IsFor .color) :
    ∃ color, value = .color color := by
  cases isFor
  exact ⟨_, rfl⟩

theorem Value.IsFor.exists_rule {value : Value} (isFor : value.IsFor .spacingImpossible) :
    ∃ rule, value = .spacing rule := by
  cases isFor
  exact ⟨_, rfl⟩

/-- Only flags about a colour or about spacing have a colour or a rule behind a choice. -/
theorem Value.IsFor.ne_term {kind : AmbiguityKind} {value : Value} (isFor : value.IsFor kind)
    (notColor : kind ≠ .color) (notSpacing : kind ≠ .spacingImpossible) :
    (∀ color, value ≠ .color color) ∧ ∀ rule, value ≠ .spacing rule := by
  cases isFor with
  | color => exact absurd rfl notColor
  | spacing => exact absurd rfl notSpacing
  | _ => exact ⟨by rintro _ ⟨⟩, by rintro _ ⟨⟩⟩

/-! ## Options -/

/-- An option without its preview and its swatches. -/
def Offer.unshown (offer : Offer) : Offer :=
  { offer with preview := none, swatches := none }

/-- A question with nothing to see of its options. -/
def Question.unshown (question : Question) : Question :=
  { question with offers := question.offers.map Offer.unshown }

/-- An option without its preview and its swatches, with another value that is the same as plain
data. -/
def Offer.FadesTo (offer option : Offer) : Prop :=
  ∃ value, value.plain = offer.value.plain ∧ option = { offer.unshown with value := value }

/-- A choice that comes back as plain data, and had no preview of its own. -/
structure Choice.ComesBackAs (choice same : Choice) : Prop where
  same_eq : same = choice.plain
  preview_eq : choice.preview = none
  settled : choice.value.plain.plain = choice.value.plain

theorem Ambiguity.IsTyped.comeBack (typed : flag.IsTyped) :
    List.Forall₂ Choice.ComesBackAs flag.choices flag.plain.choices := by
  rw [Ambiguity.plain, List.forall₂_map_right_iff]
  refine List.forall₂_same.mpr fun choice mem => ⟨rfl, (typed choice mem).1, ?_⟩
  exact (typed choice mem).2.plain_plain

/-- As data, what an option fades to is the option with nothing shown. -/
theorem Offer.FadesTo.plain_toValue_eq (fades : offer.FadesTo option) :
    option.toValue.plain = offer.unshown.toValue.plain := by
  rcases fades with ⟨value, sameData, rfl⟩
  simp only [toValue, unshown, Value.plain, plainEntries, sameData]

/-- An option that shows nothing fades to itself. -/
theorem Offer.ShowsNothing.fadesTo (bare : offer.ShowsNothing) : offer.FadesTo offer := by
  refine ⟨offer.value, rfl, ?_⟩
  cases offer
  cases bare.preview_eq
  cases bare.swatches_eq
  rfl

theorem Offer.FadesTo.congr {first : Offer} (fades : first.FadesTo option)
    (sameLess : offer.unshown = first.unshown) : offer.FadesTo option := by
  rcases fades with ⟨value, sameData, rfl⟩
  have sameValue : offer.unshown.value = first.unshown.value := congrArg Offer.value sameLess
  refine ⟨value, sameData.trans (congrArg Value.plain sameValue.symm), ?_⟩
  rw [sameLess]

theorem Choice.ComesBackAs.fadesTo (back : choice.ComesBackAs same) (icon : String) :
    (Offer.ofChoice icon choice).FadesTo (Offer.ofChoice icon same) := by
  refine ⟨same.value, ?_, ?_⟩
  · rw [back.same_eq]
    exact back.settled
  · rw [back.same_eq]
    simp [Offer.ofChoice, Offer.unshown, Choice.plain, back.preview_eq]

theorem unshown_colorOffer (n brightness : Int) (choice : Choice) :
    (colorOffer n brightness choice).unshown = (Offer.ofChoice "palette" choice).unshown := by
  unfold colorOffer
  dsimp only
  split <;> rfl

theorem unshown_of_spacingOffer {coloring : Coloring} {n brightness : Int}
    (shown : spacingOffer coloring n brightness choice = .ok offer) :
    offer.unshown = (Offer.ofChoice "straighten" choice).unshown := by
  unfold spacingOffer at shown
  dsimp only at shown
  split at shown
  · rcases bind_eq_ok_iff.mp shown with ⟨payload, -, rest⟩
    rw [pure_eq_ok_iff] at rest
    exact rest ▸ rfl
  · cases shown
    rfl

/-- No term stands behind a choice that is plain data. -/
theorem Choice.plain_value_ne_term (choice : Choice) :
    (∀ color, choice.plain.value ≠ .color color) ∧ ∀ rule, choice.plain.value ≠ .spacing rule := by
  unfold Choice.plain
  dsimp only
  constructor <;> intro term <;> cases choice.value <;> rintro ⟨⟩

/-- Plain data behind a choice is not shown. -/
theorem colorOffer_plain (n brightness : Int) (choice : Choice) :
    colorOffer n brightness choice.plain = Offer.ofChoice "palette" choice.plain := by
  unfold colorOffer
  dsimp only
  split
  · rename_i color isColor
    exact absurd isColor (choice.plain_value_ne_term.1 color)
  · rfl

theorem spacingOffer_plain (coloring : Coloring) (n brightness : Int) (choice : Choice) :
    spacingOffer coloring n brightness choice.plain =
      .ok (Offer.ofChoice "straighten" choice.plain) := by
  unfold spacingOffer
  dsimp only
  split
  · rename_i rule isRule
    exact absurd isRule (choice.plain_value_ne_term.2 rule)
  · rfl

/-- What comes back of choices is carried by what fades of options. -/
theorem Offer.carries_fadesTo : Carries Choice.ComesBackAs FadesTo where
  choice_id_eq back := back.same_eq ▸ rfl
  choice_label_eq back := back.same_eq ▸ rfl
  id_eq := by
    rintro offer _ ⟨value, -, rfl⟩
    rfl
  ofChoice back icon := back.fadesTo icon
  color {choice same} back n m brightness shine := by
    have faded := back.fadesTo "palette"
    rw [back.same_eq] at faded ⊢
    rw [colorOffer_plain]
    exact faded.congr (unshown_colorOffer n brightness choice)
  spacing {choice same offer option} back := by
    intro _ _ _ _ _ _ shown shownToo
    have faded := back.fadesTo "straighten"
    rw [back.same_eq] at faded shownToo
    rw [spacingOffer_plain] at shownToo
    cases shownToo
    exact faded.congr (unshown_of_spacingOffer shown)
  added {offers options} fade {offer} bare := by
    have sameMark : offers.any Offer.recommended = options.any Offer.recommended := by
      refine any_related ?_ fade
      rintro offer _ ⟨value, -, rfl⟩
      rfl
    rw [sameMark]
    apply Offer.ShowsNothing.fadesTo
    exact ⟨bare.preview_eq, bare.swatches_eq⟩

/-! ## Questions -/

/-- The wording of a question says nothing about the choices of its flag. -/
theorem wording_eq {twin : Ambiguity} {wording words : String} {offers options : List Offer}
    (worded : wordingAndOffers subject flag = .ok (wording, offers))
    (wordedToo : wordingAndOffers other twin = .ok (words, options))
    (sameKind : twin.kind = flag.kind) (sameText : twin.description = flag.description)
    (sameClause : twin.sourceClause = flag.sourceClause) : words = wording := by
  unfold wordingAndOffers at worded wordedToo
  rw [sameKind] at wordedToo
  cases kind : flag.kind <;> simp only [kind] at worded wordedToo
  case zone =>
    cases worded
    cases wordedToo
    rw [zoneWording, zoneWording, sameClause]
  case direction =>
    cases worded
    cases wordedToo
    rw [directionWording, directionWording, sameText]
  case effect | conflict =>
    cases worded
    cases wordedToo
    rfl
  all_goals
    rcases map_eq_ok_iff.mp worded with ⟨shown, -, shape⟩
    rcases map_eq_ok_iff.mp wordedToo with ⟨shownToo, -, shapeToo⟩
    cases shape
    cases shapeToo
    first | rfl | exact sameText

/-- A question about a flag that has come back as plain data is what it was, with nothing shown. -/
theorem plain_toValue_of_askOne (typed : flag.IsTyped)
    (sameStrip : subject.roofline = other.roofline)
    (sameLights : other.pixelCount flag.layerId = subject.pixelCount flag.layerId)
    {position : Nat} {again : Question} (asked : askOne subject position flag = .ok question)
    (askedToo : askOne other position flag.plain = .ok again) :
    again.toValue.plain = question.unshown.toValue.plain := by
  rcases askOne_eq_ok_iff.mp asked with ⟨wording, offers, n, worded, counted, rfl⟩
  rcases askOne_eq_ok_iff.mp askedToo with ⟨words, options, m, wordedToo, countedToo, rfl⟩
  obtain rfl := wording_eq worded wordedToo rfl rfl rfl
  obtain rfl := Except.ok.inj (countedToo.symm.trans (sameLights.trans counted))
  have sameKind : flag.kind = flag.plain.kind := rfl
  have fade := List.forall₂_take maxOptions
    (Offer.carries_fadesTo.wordingAndOffers sameStrip sameKind typed.comeBack worded wordedToo)
  have sameOffers : plainItems ((options.take maxOptions).map Offer.toValue) =
      plainItems (((offers.take maxOptions).map Offer.unshown).map Offer.toValue) := by
    simp only [plainItems_eq_map, List.map_map]
    rw [← List.forall₂_eq_eq_eq, List.forall₂_map_left_iff, List.forall₂_map_right_iff]
    exact fade.flip.imp fun _ _ => Offer.FadesTo.plain_toValue_eq
  simp only [Question.toValue, Question.unshown, Value.plain, plainEntries, sameOffers]
  rfl

/-- The questions about flags that have come back as plain data are what they were, in the same
order, with nothing shown. -/
theorem map_plain_toValue_ask {flags : List Ambiguity} (typed : ∀ flag ∈ flags, flag.IsTyped)
    {questions others : List Question} (asked : ask flags subject = .ok questions)
    (askedToo : ask (flags.map Ambiguity.plain) other = .ok others)
    (sameStrip : subject.roofline = other.roofline)
    (sameLights : ∀ layerId, other.pixelCount layerId = subject.pixelCount layerId) :
    others.map (fun question => question.toValue.plain) =
      questions.map fun question => question.unshown.toValue.plain := by
  have back : List.Forall₂ (fun flag twin => flag.IsTyped ∧ twin = flag.plain) flags
      (flags.map Ambiguity.plain) := by
    rw [List.forall₂_map_right_iff]
    exact List.forall₂_same.mpr fun flag mem => ⟨typed flag mem, rfl⟩
  have faded := ask_related
    (S := fun question again => question.kind = again.kind ∧
      again.toValue.plain = question.unshown.toValue.plain)
    (fun _ _ related => related.1) ?_ back asked askedToo
  · rw [← List.forall₂_eq_eq_eq, List.forall₂_map_left_iff, List.forall₂_map_right_iff]
    exact faded.flip.imp fun _ _ related => related.2
  · rintro flag _ position question again ⟨isTyped, rfl⟩ askedOne askedAgain
    refine ⟨?_, plain_toValue_of_askOne isTyped sameStrip (sameLights _) askedOne askedAgain⟩
    rw [(isAbout_of_askOne askedOne).kind_eq, (isAbout_of_askOne askedAgain).kind_eq]
    rfl

/-! ## What is shown -/

/-- Without its preview and its swatches an option is other data, if it has any. -/
theorem Offer.plain_toValue_unshown_iff (offer : Offer) :
    offer.unshown.toValue.plain = offer.toValue.plain ↔ offer.ShowsNothing := by
  constructor
  · intro same
    simp only [toValue, unshown, Value.plain, plainEntries, Value.object.injEq, List.cons.injEq,
      Prod.mk.injEq, true_and, and_true] at same
    rcases same with ⟨samePreview, sameSwatches⟩
    constructor
    · cases preview : offer.preview with
      | none => rfl
      | some entries => simp [preview, Value.ofOption] at samePreview
    · cases swatches : offer.swatches with
      | none => rfl
      | some shades => simp [swatches, Value.ofOption] at sameSwatches
  · rintro ⟨noPreview, noSwatches⟩
    simp only [toValue, unshown, noPreview, noSwatches]

/-- A question is the same data with nothing shown exactly if none of its options shows
anything. -/
theorem Question.plain_toValue_unshown_iff (question : Question) :
    question.unshown.toValue.plain = question.toValue.plain ↔
      ∀ offer ∈ question.offers, offer.ShowsNothing := by
  simp only [← Offer.plain_toValue_unshown_iff]
  simp only [toValue, unshown, Value.plain, plainEntries, Value.object.injEq, List.cons.injEq,
    Prod.mk.injEq, true_and, and_true, Value.list.injEq, plainItems_eq_map, List.map_map,
    List.map_inj_left, Function.comp_apply]

/-- An option shows what it stands for: a colour as a swatch and on the strip, a rule on the strip,
and nothing else. -/
structure Offer.ShowsTerm (offer : Offer) : Prop where
  preview_iff : offer.preview.isSome = true ↔
    (∃ color, offer.value = .color color) ∨ ∃ rule, offer.value = .spacing rule
  swatches_iff : offer.swatches.isSome = true ↔ ∃ color, offer.value = .color color

/-- An option that stands for neither shows nothing. -/
theorem Offer.ShowsNothing.showsTerm (bare : offer.ShowsNothing)
    (noColor : ∀ color, offer.value ≠ .color color) (noRule : ∀ rule, offer.value ≠ .spacing rule) :
    offer.ShowsTerm := by
  constructor
  · simp [bare.preview_eq, noColor, noRule]
  · simp [bare.swatches_eq, noColor]

theorem showsTerm_colorOffer (n brightness : Int) (isFor : choice.value.IsFor .color) :
    (colorOffer n brightness choice).ShowsTerm := by
  rcases isFor.exists_color with ⟨color, isColor⟩
  constructor <;> simp [colorOffer, isColor, Offer.ofChoice]

theorem showsTerm_of_spacingOffer {coloring : Coloring} {n brightness : Int}
    (isFor : choice.value.IsFor .spacingImpossible)
    (shown : spacingOffer coloring n brightness choice = .ok offer) : offer.ShowsTerm := by
  rcases isFor.exists_rule with ⟨rule, isRule⟩
  simp only [spacingOffer, isRule] at shown
  rcases bind_eq_ok_iff.mp shown with ⟨payload, -, rest⟩
  rw [pure_eq_ok_iff] at rest
  subst rest
  constructor <;> simp [isRule, Offer.ofChoice]

theorem showsTerm_ofChoice {kind : AmbiguityKind} (bare : choice.preview = none)
    (isFor : choice.value.IsFor kind) (notColor : kind ≠ .color)
    (notSpacing : kind ≠ .spacingImpossible) (icon : String) :
    (Offer.ofChoice icon choice).ShowsTerm := by
  obtain ⟨noColor, noRule⟩ := isFor.ne_term notColor notSpacing
  exact Offer.ShowsNothing.showsTerm ⟨bare, rfl⟩ noColor noRule

/-- The usual directions and kinds of motion show nothing, whether they are recommended or not. -/
theorem showsTerm_usual {offers : List Offer}
    (usual : offers = usualDirections ∨ offers = usualMotions) (mem : offer ∈ offers)
    (recommended : Bool) : Offer.ShowsTerm { offer with recommended := recommended } := by
  rcases usual with rfl | rfl
  all_goals
    simp only [usualDirections, usualMotions, List.mem_cons, List.not_mem_nil, or_false] at mem
    rcases mem with rfl | rfl | rfl | rfl <;>
      exact Offer.ShowsNothing.showsTerm ⟨rfl, rfl⟩ (by rintro _ ⟨⟩) (by rintro _ ⟨⟩)

section Others

variable (typed : flag.IsTyped) (notColor : flag.kind ≠ .color)
  (notSpacing : flag.kind ≠ .spacingImpossible)

include typed notColor notSpacing

theorem showsTerm_of_mem_own (icon : Choice → String)
    (mem : offer ∈ flag.choices.map fun choice => Offer.ofChoice (icon choice) choice) :
    offer.ShowsTerm := by
  rcases List.mem_map.mp mem with ⟨choice, choiceMem, rfl⟩
  obtain ⟨bare, isFor⟩ := typed choice choiceMem
  exact showsTerm_ofChoice bare isFor notColor notSpacing _

theorem showsTerm_of_mem_zoneOffers (mem : offer ∈ zoneOffers subject flag) :
    offer.ShowsTerm := by
  rcases Offer.mem_of_mem_withLast mem with there | rfl
  · cases strip : subject.roofline with
    | none =>
        simp only [strip] at there
        exact showsTerm_of_mem_own typed notColor notSpacing _ there
    | some roofline =>
        simp only [strip, withSegmentOffers] at there
        rcases List.mem_append.mp there with own | added
        · exact showsTerm_of_mem_own typed notColor notSpacing _ own
        · rcases List.mem_map.mp added with ⟨plain, plainMem, rfl⟩
          have segment := (List.mem_filter.mp plainMem).1
          obtain ⟨named, isFeatures⟩ := exists_features_of_mem_segmentOffers segment
          have bare := showsNothing_of_mem_segmentOffers segment
          refine Offer.ShowsNothing.showsTerm ⟨bare.preview_eq, bare.swatches_eq⟩ ?_ ?_
          all_goals
            intro term isTerm
            cases isFeatures.symm.trans isTerm
  · exact Offer.ShowsNothing.showsTerm ⟨rfl, rfl⟩ (by rintro _ ⟨⟩) (by rintro _ ⟨⟩)

theorem showsTerm_of_mem_directionOffers (mem : offer ∈ directionOffers flag) :
    offer.ShowsTerm := by
  unfold directionOffers at mem
  split at mem
  · exact showsTerm_usual (.inl rfl) mem offer.recommended
  · exact showsTerm_of_mem_own typed notColor notSpacing _ mem

theorem showsTerm_of_mem_effectOffers (mem : offer ∈ effectOffers flag) : offer.ShowsTerm := by
  unfold effectOffers at mem
  dsimp only at mem
  split at mem
  · rcases List.mem_append.mp mem with own | added
    · exact showsTerm_of_mem_own typed notColor notSpacing _ own
    · rcases List.mem_map.mp added with ⟨usual, usualMem, rfl⟩
      exact showsTerm_usual (.inr rfl) (List.mem_filter.mp usualMem).1 _
  · exact showsTerm_of_mem_own typed notColor notSpacing _ mem

theorem showsTerm_of_mem_conflictOffers (mem : offer ∈ conflictOffers flag) :
    offer.ShowsTerm := by
  rcases Offer.mem_of_mem_withLast mem with there | rfl
  · exact showsTerm_of_mem_own typed notColor notSpacing (fun _ => "layers") there
  · exact Offer.ShowsNothing.showsTerm ⟨rfl, rfl⟩ (by rintro _ ⟨⟩) (by rintro _ ⟨⟩)

end Others

/-- Every option of a question about a typed flag shows the colour or the rule that it stands for,
and no other option shows anything. -/
theorem showsTerm_of_askOne (typed : flag.IsTyped) {position : Nat}
    (asked : askOne subject position flag = .ok question) (mem : offer ∈ question.offers) :
    offer.ShowsTerm := by
  rcases askOne_eq_ok_iff.mp asked with ⟨wording, offers, n, worded, -, rfl⟩
  replace mem : offer ∈ offers := List.mem_of_mem_take mem
  have others : flag.kind ≠ .color → flag.kind ≠ .spacingImpossible → offer.ShowsTerm := by
    intro notColor notSpacing
    unfold wordingAndOffers at worded
    cases kind : flag.kind <;> simp only [kind] at worded
    case color => exact absurd kind notColor
    case spacingImpossible => exact absurd kind notSpacing
    all_goals cases worded
    case zone => exact showsTerm_of_mem_zoneOffers typed notColor notSpacing mem
    case direction => exact showsTerm_of_mem_directionOffers typed notColor notSpacing mem
    case effect => exact showsTerm_of_mem_effectOffers typed notColor notSpacing mem
    case conflict => exact showsTerm_of_mem_conflictOffers typed notColor notSpacing mem
  by_cases isColor : flag.kind = .color
  · simp only [wordingAndOffers, isColor] at worded
    rcases map_eq_ok_iff.mp worded with ⟨shown, isShown, shape⟩
    cases shape
    rcases bind_eq_ok_iff.mp isShown with ⟨lights, -, rest⟩
    rw [pure_eq_ok_iff] at rest
    subst rest
    rcases List.mem_map.mp mem with ⟨choice, choiceMem, rfl⟩
    exact showsTerm_colorOffer _ _ (isColor ▸ (typed choice choiceMem).2)
  by_cases isSpacing : flag.kind = .spacingImpossible
  · simp only [wordingAndOffers, isSpacing] at worded
    rcases map_eq_ok_iff.mp worded with ⟨offered, isOffered, shape⟩
    cases shape
    rcases bind_eq_ok_iff.mp isOffered with ⟨lights, -, rest⟩
    rcases bind_eq_ok_iff.mp rest with ⟨own, isOwn, last⟩
    rw [pure_eq_ok_iff] at last
    subst last
    rcases Offer.mem_of_mem_withLast mem with there | rfl
    · rcases exists_mem_of_mapM isOwn there with ⟨choice, choiceMem, shown⟩
      exact showsTerm_of_spacingOffer (isSpacing ▸ (typed choice choiceMem).2) shown
    · exact Offer.ShowsNothing.showsTerm ⟨rfl, rfl⟩ (by rintro _ ⟨⟩) (by rintro _ ⟨⟩)
  · exact others isColor isSpacing

theorem showsTerm_of_ask {flags : List Ambiguity} (typed : ∀ flag ∈ flags, flag.IsTyped)
    {questions : List Question} (asked : ask flags subject = .ok questions)
    (questionMem : question ∈ questions) (mem : offer ∈ question.offers) : offer.ShowsTerm := by
  rcases exists_flag_of_mem_ask asked questionMem with ⟨flag, position, isFlag, askedOne⟩
  exact showsTerm_of_askOne (typed flag (List.mem_of_getElem? isFlag)) askedOne mem

end Eaves
