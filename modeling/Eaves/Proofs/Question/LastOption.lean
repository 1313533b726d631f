import Eaves.Proofs.Answer.Settling
import Eaves.Proofs.Question.Recommending
import Eaves.Proofs.Record.Settings

/-!
# What a question stands for

Every flag becomes one question, with at most four options.  A zone, spacing or conflict
question always lets the user fall back on something: it ends with an option for that,
one of the flag's choices or else a fixed one, and the first three of the other
options come before it.  Where the question adds options of its own, they are not
recommended once one of the flag's choices is.

Questions are asked wherever the lights of the layers they are about can be counted,
which is so without a roofline and on one of fewer than `2 ^ 53` lights.  On a longer
one, a layer without segments may have no count, and then nothing is asked at all.
-/

namespace Eaves

open Outcome

namespace AmbiguityKind

/-- Whether an option with an id is the one that a question about a kind of flag ends with. -/
def isLast : AmbiguityKind → String → Bool
  | .zone, id => id == "all"
  | .spacingImpossible, id => id == "manual"
  | .conflict, id => id == "merge" || id == "blend"
  | .color, _ | .direction, _ | .effect, _ => false

/-- The option that a question about a kind of flag ends with where no choice stands for it. -/
def last? : AmbiguityKind → Option Offer
  | .zone => some wholeRoofline
  | .spacingImpossible => some setManually
  | .conflict => some blendBoth
  | .color | .direction | .effect => none

end AmbiguityKind

/-- The options for the shapes of segments that are there to be added to those of a flag's
choices: a zone question on a roofline has them. -/
def Subject.shapeOffers (subject : Subject) (flag : Ambiguity) : List Offer :=
  match flag.kind, subject.roofline with
  | .zone, some roofline => segmentOffers roofline
  | _, _ => []

/-- What is added to the options of a flag's choices: the options for shapes whose ids no choice
has, as they are, except that none of them is recommended once a choice is. -/
structure Subject.Adds (subject : Subject) (flag : Ambiguity) (added : List Offer) : Prop where
  shapes : added = ((subject.shapeOffers flag).filter fun shape =>
      decide (shape.id ∉ flag.choices.map Choice.id)).map fun shape =>
        { shape with recommended := shape.recommended && !flag.choices.any Choice.recommended }
  settled : (∃ choice ∈ flag.choices, choice.recommended = true) →
    ∀ offer ∈ added, offer.recommended = false

/-- Options that end with one of a kind: the first one that is there among a flag's own, else a
fixed one, and only the first three of the others come before it. -/
structure EndWith (isLast : String → Bool) (fixed : Offer) (own added offers : List Offer) :
    Prop where
  arranged : ∃ last, offers =
      ((own ++ added).filter fun offer => !isLast offer.id).take 3 ++ [last] ∧
    isLast last.id = true ∧ last = (own.find? fun offer => isLast offer.id).getD fixed
  alone : (offers.filter fun offer => isLast offer.id).length = 1

/-- A question stands for a flag at its position. -/
structure Question.StandsFor (question : Question) (subject : Subject)
    (placed : Ambiguity × Nat) : Prop extends question.IsAbout placed where
  few : question.offers.length ≤ 4
  ends : ∀ fixed, placed.1.kind.last? = some fixed → ∃ own added,
    List.Forall₂ Offer.StandsFor own placed.1.choices ∧ subject.Adds placed.1 added ∧
      EndWith placed.1.kind.isLast fixed own added question.offers

/-! ## The last option -/

/-- Options with a last one end with it, taken from the flag's own where nothing that is added may
take its place. -/
theorem endWith_withLast {isLast : String → Bool} {fixed : Offer} {aliases : List String}
    (named : ∀ id, isLast id = (id == fixed.id || aliases.contains id)) {own added : List Offer}
    (others : ∀ offer ∈ added, isLast offer.id = false) :
    EndWith isLast fixed own added (Offer.withLast (own ++ added) fixed aliases) := by
  have noneAdded : added.find? (fun offer => isLast offer.id) = none := by
    rw [List.find?_eq_none]
    exact fun offer mem => by rw [others offer mem]; exact Bool.false_ne_true
  have shape : Offer.withLast (own ++ added) fixed aliases =
      ((own ++ added).filter fun offer => !isLast offer.id).take 3 ++
        [(own.find? fun offer => isLast offer.id).getD fixed] := by
    simp only [Offer.withLast, ← named, List.find?_append, noneAdded, Option.or_none]
    rfl
  have isLast_last : isLast ((own.find? fun offer => isLast offer.id).getD fixed).id = true := by
    cases found : own.find? fun offer => isLast offer.id with
    | none => rw [Option.getD_none, named, beq_self_eq_true, Bool.true_or]
    | some there =>
        have isThere := List.find?_some found
        exact isThere
  refine ⟨⟨_, shape, isLast_last, rfl⟩, ?_⟩
  have noneBefore : (((own ++ added).filter fun offer => !isLast offer.id).take 3).filter
      (fun offer => isLast offer.id) = [] := by
    rw [List.filter_eq_nil_iff]
    intro offer mem
    have isOther := (List.mem_filter.mp (List.mem_of_mem_take mem)).2
    rwa [Bool.not_eq_true, ← Bool.not_eq_true']
  rw [shape, List.filter_append, noneBefore, List.nil_append, List.filter_singleton, isLast_last]
  rfl

/-- With nothing added, the last one is among the flag's own or fixed. -/
theorem endWith_withLast_own {isLast : String → Bool} {fixed : Offer} {aliases : List String}
    (named : ∀ id, isLast id = (id == fixed.id || aliases.contains id)) (own : List Offer) :
    EndWith isLast fixed own [] (Offer.withLast own fixed aliases) := by
  have noOthers : ∀ offer ∈ ([] : List Offer), isLast offer.id = false := by simp
  have ends : EndWith isLast fixed own [] (Offer.withLast (own ++ []) fixed aliases) :=
    endWith_withLast named noOthers
  rwa [List.append_nil] at ends

/-- With a last one, there are at most four options. -/
theorem EndWith.length_le {isLast : String → Bool} {fixed : Offer} {own added offers : List Offer}
    (ends : EndWith isLast fixed own added offers) : offers.length ≤ maxOptions := by
  obtain ⟨last, shape, -, -⟩ := ends.arranged
  rw [shape, List.length_append, List.length_singleton]
  have := List.length_take_le 3 ((own ++ added).filter fun offer => !isLast offer.id)
  unfold maxOptions
  omega

/-! ## Added options -/

/-- None of the options for shapes is for the whole strip. -/
theorem isLast_segmentOffers {roofline : Roofline} {offer : Offer}
    (mem : offer ∈ segmentOffers roofline) : AmbiguityKind.isLast .zone offer.id = false := by
  obtain ⟨peaks, corners, runs, marks⟩ := exists_map_mark_segmentOffers roofline
  have isMark : offer.mark ∈ (segmentOffers roofline).map Offer.mark := List.mem_map_of_mem mem
  rw [marks] at isMark
  have ids : offer.id ∈ ["peaks", "corners", "peaks_and_corners", "runs"] := by
    have isId := List.mem_map_of_mem (f := Prod.fst) isMark
    revert isId
    cases peaks <;> cases corners <;> cases runs <;> simp [Offer.mark] <;> tauto
  simp only [List.mem_cons, List.not_mem_nil, or_false] at ids
  rcases ids with isId | isId | isId | isId <;> rw [isId] <;> decide

theorem Subject.adds_nil {subject : Subject} {flag : Ambiguity}
    (noShapes : subject.shapeOffers flag = []) : subject.Adds flag [] := by
  refine ⟨?_, fun _ _ mem => by cases mem⟩
  rw [noShapes]
  rfl

/-- What a zone question on a roofline adds to the options of the choices. -/
theorem exists_added_of_withSegmentOffers {subject : Subject} {flag : Ambiguity}
    {roofline : Roofline} (shapes : subject.shapeOffers flag = segmentOffers roofline)
    (icon : Choice → String) : ∃ added, subject.Adds flag added ∧
      (∀ offer ∈ added, AmbiguityKind.isLast .zone offer.id = false) ∧
      withSegmentOffers (flag.choices.map fun choice => .ofChoice (icon choice) choice) roofline =
        (flag.choices.map fun choice => .ofChoice (icon choice) choice) ++ added := by
  refine ⟨_, ⟨rfl, ?_⟩, ?_, ?_⟩
  · rintro ⟨choice, mem, marked⟩ offer isAdded
    obtain ⟨shape, -, rfl⟩ := List.mem_map.mp isAdded
    have settled : flag.choices.any Choice.recommended = true :=
      List.any_eq_true.mpr ⟨choice, mem, marked⟩
    dsimp only
    rw [settled, Bool.not_true, Bool.and_false]
  · intro offer isAdded
    obtain ⟨shape, isShape, rfl⟩ := List.mem_map.mp isAdded
    rw [shapes] at isShape
    have isOther := isLast_segmentOffers (List.mem_filter.mp isShape).1
    exact isOther
  · have sameMarks : (flag.choices.map fun choice => Offer.ofChoice (icon choice) choice).any
        Offer.recommended = flag.choices.any Choice.recommended := by
      rw [List.any_map]
      rfl
    have sameIds : ∀ id, Offer.anyWithId
        (flag.choices.map fun choice => Offer.ofChoice (icon choice) choice) id =
          decide (id ∈ flag.choices.map Choice.id) := by
      intro id
      rw [Offer.anyWithId, List.any_map, Bool.eq_iff_iff, List.any_eq_true, decide_eq_true_eq,
        List.mem_map]
      simp only [Function.comp_apply, Offer.ofChoice, beq_iff_eq]
    simp only [withSegmentOffers, sameMarks, sameIds, shapes, decide_not]

/-- Options of choices stand for them. -/
theorem forall₂_standsFor_ofChoice (icon : Choice → String) (choices : List Choice) :
    List.Forall₂ Offer.StandsFor (choices.map fun choice => .ofChoice (icon choice) choice)
      choices := by
  rw [List.forall₂_map_left_iff, List.forall₂_same]
  exact fun choice _ => Offer.standsFor_ofChoice _ choice

/-! ## Questions -/

/-- What is worked out for a kind of flag that ends with an option ends with it. -/
theorem endWith_of_wordingAndOffers {subject : Subject} {flag : Ambiguity} {wording : String}
    {offers : List Offer} (worded : wordingAndOffers subject flag = .ok (wording, offers))
    {fixed : Offer} (hasLast : flag.kind.last? = some fixed) : ∃ own added,
      List.Forall₂ Offer.StandsFor own flag.choices ∧ subject.Adds flag added ∧
        EndWith flag.kind.isLast fixed own added offers := by
  unfold wordingAndOffers at worded
  cases isKind : flag.kind with
  | zone =>
      simp only [isKind] at worded hasLast
      cases worded
      cases hasLast
      have named : ∀ id, AmbiguityKind.isLast .zone id =
          (id == wholeRoofline.id || [].contains id) := by
        intro id
        rw [List.contains_nil, Bool.or_false]
        rfl
      unfold zoneOffers
      cases strip : subject.roofline with
      | none =>
          have noShapes : subject.shapeOffers flag = [] := by
            rw [Subject.shapeOffers, isKind, strip]
          exact ⟨_, [], forall₂_standsFor_ofChoice _ _, Subject.adds_nil noShapes,
            endWith_withLast_own named _⟩
      | some roofline =>
          have shapes : subject.shapeOffers flag = segmentOffers roofline := by
            rw [Subject.shapeOffers, isKind, strip]
          obtain ⟨added, adds, others, shape⟩ := exists_added_of_withSegmentOffers shapes
            fun choice => Icon.forZone choice.label
          dsimp only
          rw [shape]
          exact ⟨_, added, forall₂_standsFor_ofChoice _ _, adds, endWith_withLast named others⟩
  | spacingImpossible =>
      simp only [isKind] at worded hasLast
      cases hasLast
      rcases map_eq_ok_iff.mp worded with ⟨offered, isOffered, shape⟩
      cases shape
      rcases bind_eq_ok_iff.mp isOffered with ⟨lights, -, rest⟩
      rcases bind_eq_ok_iff.mp rest with ⟨own, isOwn, last⟩
      rw [pure_eq_ok_iff] at last
      subst last
      have noShapes : subject.shapeOffers flag = [] := by
        rw [Subject.shapeOffers, isKind]
      have stand : List.Forall₂ Offer.StandsFor own flag.choices :=
        (mapM_eq_ok_iff.mp isOwn).flip.imp fun _ _ => standsFor_of_spacingOffer
      have named : ∀ id, AmbiguityKind.isLast .spacingImpossible id =
          (id == setManually.id || [].contains id) := by
        intro id
        rw [List.contains_nil, Bool.or_false]
        rfl
      exact ⟨own, [], stand, Subject.adds_nil noShapes, endWith_withLast_own named own⟩
  | conflict =>
      simp only [isKind] at worded hasLast
      cases worded
      cases hasLast
      have noShapes : subject.shapeOffers flag = [] := by
        rw [Subject.shapeOffers, isKind]
      have named : ∀ id, AmbiguityKind.isLast .conflict id =
          (id == blendBoth.id || ["blend"].contains id) := by
        intro id
        rw [List.contains_cons, List.contains_nil, Bool.or_false]
        rfl
      exact ⟨_, [], forall₂_standsFor_ofChoice _ _, Subject.adds_nil noShapes,
        endWith_withLast_own named _⟩
  | color => rw [isKind] at hasLast; cases hasLast
  | direction => rw [isKind] at hasLast; cases hasLast
  | effect => rw [isKind] at hasLast; cases hasLast

/-- The question about a flag at a position stands for it. -/
theorem standsFor_of_askOne {subject : Subject} {position : Nat} {flag : Ambiguity}
    {question : Question} (asked : askOne subject position flag = .ok question) :
    question.StandsFor subject (flag, position) := by
  have about := isAbout_of_askOne asked
  rcases askOne_eq_ok_iff.mp asked with ⟨wording, offers, n, worded, -, rfl⟩
  refine ⟨about, List.length_take_le _ _, ?_⟩
  intro fixed hasLast
  obtain ⟨own, added, stand, adds, ends⟩ := endWith_of_wordingAndOffers worded hasLast
  refine ⟨own, added, stand, adds, ?_⟩
  dsimp only
  rw [List.take_of_length_le ends.length_le]
  exact ends

/-- Flags are asked about by questions that stand for them, each once and in the order of asking,
on every strip that is not too long to be counted. -/
theorem questions_stand_for_flags (flags : List Ambiguity) (intent : Intent)
    (roofline : Option Roofline) (settings : CheckSettings) :
    ((∀ layer ∈ intent.layers, layer.zone.IsListed) → settings.HasShares →
      (∀ strip ∈ roofline, strip.total < 2 ^ 53) → (∀ flag ∈ flags, flag.IsWithin (2 ^ 120)) →
        ∃ questions, ask flags ⟨intent, roofline, settings⟩ = .ok questions) ∧
      ∀ questions, ask flags ⟨intent, roofline, settings⟩ = .ok questions →
        (questions.map Question.id).Nodup ∧
          ∃ placed : List (Ambiguity × Nat), placed.Perm flags.zipIdx ∧
            placed.Pairwise IsAheadOf ∧
            List.Forall₂ (fun question placed =>
              question.StandsFor ⟨intent, roofline, settings⟩ placed) questions placed := by
  constructor
  · intro listed shares small within
    refine ask_succeeds_of_counted (fun flag _ => ?_) within
    cases roofline with
    | none => exact ⟨Preview.assumedPixels, rfl, by decide⟩
    | some strip => exact Subject.pixelCount_succeeds listed (small strip rfl) shares flag.layerId
  · intro questions asked
    obtain ⟨placed, perm, related, ordered⟩ := exists_order_of_ask asked
    exact ⟨(Intent.ids_of_ask asked).2, placed, perm, ordered,
      related.imp fun _ _ => standsFor_of_askOne⟩

/-- A gable and a corner. -/
def gableAndCorner : Roofline where
  segments := Roofline.placeFrom 0 0
    [{ id := "gable", name := "Gable", pixelCount := 6, shape := .peak },
      { id := "corner", name := "Corner", pixelCount := 2, shape := .corner }]

/-- A conflict with two choices to blend, a zone whose choices have the whole strip among them and
recommend the peaks, and a zone without choices. -/
def untidyFlags : List Ambiguity := [
  { kind := .conflict, description := ""
    choices := [{ id := "blend", label := "Blend" }, { id := "layer_0_wins", label := "First" },
      { id := "merge", label := "Merge" }] },
  { kind := .zone, description := ""
    choices := [{ id := "front_only", label := "Front" }, { id := "all", label := "All" },
      { id := "peaks", label := "Peaks", recommended := true }] },
  { kind := .zone, description := "" }]

theorem questions_stand_for_flags_untidy :
    ∃ questions, ask untidyFlags ⟨{}, some gableAndCorner, {}⟩ = .ok questions ∧
      (questions.map Question.id).Nodup ∧
      ∃ placed : List (Ambiguity × Nat), placed.Perm untidyFlags.zipIdx ∧
        placed.Pairwise IsAheadOf ∧
        List.Forall₂ (fun question placed =>
          question.StandsFor ⟨{}, some gableAndCorner, {}⟩ placed) questions placed := by
  obtain ⟨asksAll, stand⟩ := questions_stand_for_flags untidyFlags {} (some gableAndCorner) {}
  have within : ∀ flag ∈ untidyFlags, flag.IsWithin (2 ^ 120) := by
    have noValues : ∀ flag ∈ untidyFlags, ∀ choice ∈ flag.choices, choice.value = .null := by
      simp [untidyFlags]
    intro flag mem choice choiceMem
    rw [noValues flag mem choice choiceMem]
    exact Value.isWithin_of_zone? rfl fun _ => by rintro ⟨⟩
  obtain ⟨questions, asked⟩ := asksAll (by rintro _ ⟨⟩) CheckSettings.hasShares_usual
    (by rintro strip ⟨⟩; decide) within
  exact ⟨questions, asked, stand questions asked⟩

/-- What is offered about the untidy flags, before the questions are put in order. -/
example : ((askFrom ⟨{}, some gableAndCorner, {}⟩ 0 untidyFlags).map fun questions =>
      questions.map fun question => (question.id, question.offers.map Offer.mark)).toOption =
    some [("conflict_0", [("layer_0_wins", false), ("blend", false)]),
      ("zone_1", [("front_only", false), ("peaks", true), ("corners", false), ("all", false)]),
      ("zone_2", [("peaks", false), ("corners", false), ("peaks_and_corners", true),
        ("all", false)])] := by
  decide +kernel

/-- A layer on the corners, which may be meant for another zone. -/
def unclearCorners : Intent where
  layers := [{ id := "layer_0", name := "red", zone := .features (.singleton .corner) }]
  ambiguities := [{ kind := .zone, description := "", layerId := some "layer_0" }]

/-- The strip has no corners, so how many lights they have is a share of all, which cannot be
counted: there is no question about the one flag. -/
theorem flag_of_long_run_has_no_question :
    ask unclearCorners.ambiguities ⟨unclearCorners, some longRun, {}⟩ =
      .error (.number .integerTooLarge) :=
  ask_eq_error (by decide +kernel)

end Eaves
