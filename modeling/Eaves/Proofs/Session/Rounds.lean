import Eaves.Proofs.Answer.Spacing
import Eaves.Proofs.Session.Run
import Eaves.Proofs.Session.Adoption

/-!
# Rounds of answers

Answers that choose among offered options never fail, and every question offers some.
Answers change zones, and a zone that changes may no longer fit its spacing, so that
the checks ask again.  They ask about spacing only, though, and not about a spacing
that has been settled; and answers about spacing leave all else as it is.  So once
everything is answered twice over, nothing is left to ask.
-/

namespace Eaves

open Outcome

/-- Flags about the spacing of one layer stand at one position. -/
theorem SpacedOnce.position_eq {flags : List Ambiguity} (once : SpacedOnce flags) {i j : Nat}
    {first second : Ambiguity} (firstPlaced : flags[i]? = some first)
    (secondPlaced : flags[j]? = some second) (firstSpacing : first.kind = .spacingImpossible)
    (secondSpacing : second.kind = .spacingImpossible)
    (sameLayer : first.layerId = second.layerId) : i = j := by
  rcases List.getElem?_eq_some_iff.mp firstPlaced with ⟨iInside, rfl⟩
  rcases List.getElem?_eq_some_iff.mp secondPlaced with ⟨jInside, rfl⟩
  have apart := List.pairwise_iff_getElem.mp once
  rcases Nat.lt_trichotomy i j with before | same | after
  · exact absurd sameLayer (apart i j iInside jInside before firstSpacing secondSpacing)
  · exact same
  · exact absurd sameLayer.symm (apart j i jInside iInside after secondSpacing firstSpacing)

/-- An option for a question about the spacing of a layer settles the flag about it, whatever
design the question was asked about. -/
theorem Settle.mem_settled_of_spacing {flags : List Ambiguity} (once : SpacedOnce flags)
    {answers : Answers} {questions : List Question} {start done : Settle.Progress}
    (ran : questions.foldlM (Settle.applyOne flags answers) start = .ok done)
    {question : Question} (mem : question ∈ questions) (isSpacing : question.kind = .spacing)
    (given : answers.giveOption question = true) {flag : Ambiguity} {position : Nat}
    (placed : flags[position]? = some flag) (flagSpacing : flag.kind = .spacingImpossible)
    (sameLayer : flag.layerId = question.layerId) : position ∈ done.settled := by
  rcases List.append_of_mem mem with ⟨earlier, later, rfl⟩
  rcases exists_step_of_foldlM ran with ⟨before, after, -, applied, since⟩
  have settledHere : position ∈ after.settled := by
    rw [← Settle.isSome_chosen?] at given
    rcases Option.isSome_iff_exists.mp given with ⟨offer, isChosen⟩
    rcases Settle.settled_of_applyOne (isSpacing ▸ rfl) isChosen applied with
      ⟨-, noneOpen⟩ | ⟨found, isOpen, more⟩
    · -- no flag was open for the question, so this one was settled before
      by_contra stillOpen
      have isOpen : Settle.isOpenFor flags before.settled question position = true :=
        Settle.isOpenFor_iff.mpr ⟨flag, placed,
          fun earlier => stillOpen (Settle.settled_subset_applyOne applied earlier), sameLayer,
          by rw [flagSpacing, isSpacing]; rfl⟩
      rw [noneOpen position] at isOpen
      cases isOpen
    · rcases Settle.isOpenFor_iff.mp isOpen with ⟨other, otherPlaced, -, otherLayer, otherKind⟩
      have otherSpacing : other.kind = .spacingImpossible :=
        AmbiguityKind.question_injective (otherKind.trans isSpacing)
      have here : found = position := once.position_eq otherPlaced placed otherSpacing flagSpacing
        (otherLayer.trans sameLayer.symm)
      rw [more, here]
      exact List.mem_cons_self
  exact foldlM_keeps (fun progress => position ∈ progress.settled)
    (fun _ _ _ _ held stepped => Settle.settled_subset_applyOne stepped held) settledHere since

/-- After an option for a question about the spacing of a layer no flag about it is left. -/
theorem Intent.layerId_ne_of_settle {intent settled : Intent} {answers : Answers}
    {questions : List Question} (once : SpacedOnce intent.ambiguities)
    (settles : intent.settle answers questions = .ok settled) {question : Question}
    (mem : question ∈ questions) (isSpacing : question.kind = .spacing)
    (given : answers.giveOption question = true) {flag : Ambiguity}
    (left : flag ∈ settled.ambiguities) (flagSpacing : flag.kind = .spacingImpossible) :
    flag.layerId ≠ question.layerId := by
  intro sameLayer
  rcases Intent.settle_eq_ok_iff.mp settles with ⟨done, ran, rfl⟩
  rcases List.mem_map.mp left with ⟨⟨same, position⟩, kept, rfl⟩
  rcases List.mem_filter.mp kept with ⟨inPlace, notSettled⟩
  have settledHere := Settle.mem_settled_of_spacing once ran mem isSpacing given
    (List.mem_zipIdx_iff_getElem?.mp inPlace) flagSpacing sameLayer
  rw [Bool.not_eq_true', ← Bool.not_eq_true, List.contains_iff_mem] at notSettled
  exact notSettled settledHere

/-- Answers that give questions no option of the user's own but one they offer. -/
def Answers.AreOffered (answers : Answers) (questions : List Question) : Prop :=
  ∀ question ∈ questions, ∀ offer,
    answers.lookup question.id = some (.own offer) → offer ∈ question.offers

/-- Answers that give every question an option it offers. -/
structure Answers.AreComplete (answers : Answers) (questions : List Question) : Prop where
  areOffered : answers.AreOffered questions
  giveAll : ∀ question ∈ questions, answers.giveOption question = true

/-- Answers that choose by id take what is offered. -/
theorem Answers.areOffered_of_chosen {answers : Answers} (questions : List Question)
    (chosen : ∀ answer ∈ answers, ∃ id, answer.2 = .chosen id) :
    answers.AreOffered questions := by
  intro question _ offer given
  rcases List.lookup_eq_some_iff.mp given with ⟨before, after, shape, -⟩
  have given : (question.id, Answer.own offer) ∈ answers := by
    rw [shape]
    exact List.mem_append_right _ List.mem_cons_self
  rcases chosen _ given with ⟨id, isChosen⟩
  cases isChosen

theorem Answers.AreOffered.mem_offers {answers : Answers} {questions : List Question}
    (areOffered : answers.AreOffered questions) :
    ∀ question ∈ questions, ∀ offer,
      Settle.chosen? answers question = some offer → offer ∈ question.offers := by
  intro question mem offer isChosen
  rcases Option.bind_eq_some_iff.mp isChosen with ⟨answer, given, stands⟩
  cases answer with
  | own own =>
      cases stands
      exact areOffered question mem offer given
  | chosen id => exact List.mem_of_find?_eq_some stands

/-- Answers to every question that is asked leave no flag of the design. -/
theorem Intent.ambiguities_settle_eq_nil {intent settled : Intent} {subject : Subject}
    {questions : List Question} {answers : Answers}
    (asked : ask intent.ambiguities subject = .ok questions)
    (giveAll : ∀ question ∈ questions, answers.giveOption question = true)
    (settles : intent.settle answers questions = .ok settled) : settled.ambiguities = [] := by
  rw [Intent.ambiguities_of_settle asked settles, List.map_eq_nil_iff, List.filter_eq_nil_iff]
  intro flag mem
  rcases Intent.ids_of_ask asked with ⟨idsPerm, -⟩
  obtain ⟨question, questionMem, sameId⟩ :=
    List.mem_map.mp (idsPerm.mem_iff.mpr (List.mem_map_of_mem mem))
  have settledOne : answers.settle questions (questionId flag.1.kind flag.2) = true := by
    rw [Answers.settle, List.any_eq_true]
    exact ⟨question, questionMem, by simp [sameId, giveAll question questionMem]⟩
  simp [settledOne]

namespace Session

variable {ids : List String} {most : Nat} {session : Session} {answers : Answers}

/-! ## One round -/

/-- What holds of a session from the prompt on. -/
structure IsInRun (ids : List String) (most : Nat) (session : Session) : Prop where
  sized : session.IsSized
  exists_design : ∃ intent, session.intent = some intent ∧ intent.IsInRun ids most ∧
    ask intent.ambiguities (session.subject intent) = .ok session.questions

/-- What a call with answers does to a session: the design is settled, and the flags that the
checks then raise are added. -/
structure Round (session : Session) (answers : Answers) (intent settled : Intent)
    (raised : List Ambiguity) : Prop where
  isDesign : session.intent = some intent
  inRun : ∃ ids most, intent.IsInRun ids most
  asked : ask intent.ambiguities (session.subject intent) = .ok session.questions
  listed : ∀ question ∈ session.questions, ∀ offer,
    Settle.chosen? answers question = some offer → Settle.BringsListed question offer
  settles : intent.settle answers session.questions = .ok settled
  isRaised : session.Raised settled raised
  answered : ∃ questions,
    session.answer answers =
      ({ session with
          intent := some { settled with ambiguities := mergeFlags settled.ambiguities raised }
          questions := questions
          last := none },
        .ok { settled with ambiguities := mergeFlags settled.ambiguities raised })

/-- A design in a run is taken in, and the session is in the run. -/
theorem isInRun_adopt (sized : session.IsSized) {intent : Intent}
    (inRun : intent.IsInRun ids most) :
    ∃ raised questions, session.Raised intent raised ∧
      let checked := { intent with ambiguities := mergeFlags intent.ambiguities raised }
      session.adopt intent =
          ({ session with intent := some checked, questions := questions, last := none },
            .ok checked) ∧
        (session.adopt intent).1.IsInRun ids most := by
  obtain ⟨raised, questions, isRaised, -, asked, adopted⟩ :=
    adopt_succeeds sized.small sized.shares inRun.within
  refine ⟨raised, questions, isRaised, adopted, ?_⟩
  rw [adopted]
  exact ⟨⟨sized.small, sized.shares⟩, _, rfl, inRun.mergeFlags isRaised, asked⟩

/-- Answers that are offered make a round, after which the session is still in the run. -/
theorem exists_round (numbered : most + ids.length ≤ 10 ^ Text.digitLimit)
    (inRun : session.IsInRun ids most) (areOffered : answers.AreOffered session.questions) :
    (∃ intent settled raised, session.Round answers intent settled raised) ∧
      (session.answer answers).1.IsInRun ids most := by
  rcases inRun with ⟨sized, intent, isDesign, designInRun, asked⟩
  have fewFlags := designInRun.length_ambiguities_le.trans numbered
  have fewLayers : intent.layers.length ≤ 10 ^ Text.digitLimit := by
    rw [← List.length_map Layer.id, designInRun.ids_eq]
    omega
  have listed : ∀ question ∈ session.questions, ∀ offer,
      Settle.chosen? answers question = some offer → Settle.BringsListed question offer :=
    bringsListed_of_offered designInRun.within.flags asked areOffered.mem_offers
  have isOpen : ∀ flag ∈ intent.ambiguities, OpenFlag (intent.layers.map Layer.id) flag := by
    rw [designInRun.ids_eq]
    exact designInRun.isOpen
  obtain ⟨settled, settles⟩ :=
    Intent.settle_succeeds asked isOpen fewFlags fewLayers areOffered.mem_offers
  obtain ⟨raised, questions, isRaised, adopted, after⟩ :=
    isInRun_adopt sized (designInRun.settle listed settles)
  have isAnswer : session.answer answers = session.adopt settled := by
    rw [answer, answered_eq_ok_iff.mpr ⟨intent, isDesign, settles⟩]
  rw [isAnswer]
  exact ⟨⟨intent, settled, raised, isDesign, ⟨ids, most, designInRun⟩, asked, listed, settles,
    isRaised, questions, isAnswer.trans adopted⟩, after⟩

theorem Round.exists_design {intent settled : Intent} {raised : List Ambiguity}
    (round : session.Round answers intent settled raised) :
    ∃ design, (session.answer answers).2 = .ok design := by
  rcases round.answered with ⟨questions, answered⟩
  exact ⟨_, congrArg Prod.snd answered⟩

theorem Round.intent_eq {intent settled : Intent} {raised : List Ambiguity}
    (round : session.Round answers intent settled raised) :
    (session.answer answers).1.intent =
      some { settled with ambiguities := mergeFlags settled.ambiguities raised } := by
  rcases round.answered with ⟨questions, answered⟩
  rw [answered]

/-! ## Spacing that was settled -/

/-- The spacing of the layer with an id is settled, and not asked about. -/
structure SpacingIsSettled (session : Session) (layerId : Option String) : Prop where
  layers : ∀ intent, session.intent = some intent → ∀ layer ∈ intent.layers,
    some layer.id = layerId → layer.IsSettled
  flags : ∀ intent, session.intent = some intent → ∀ flag ∈ intent.ambiguities,
    flag.kind = .spacingImpossible → flag.layerId ≠ layerId

namespace Round

variable {intent settled : Intent} {raised : List Ambiguity} {layerId : Option String}

/-- The checks do not ask about a spacing that is settled. -/
theorem spacingIsSettled (round : session.Round answers intent settled raised)
    (layers : ∀ layer ∈ settled.layers, some layer.id = layerId → layer.IsSettled)
    (flags : ∀ flag ∈ settled.ambiguities, flag.kind = .spacingImpossible →
      flag.layerId ≠ layerId) : (session.answer answers).1.SpacingIsSettled layerId := by
  constructor
  all_goals
    intro other isOther
    rw [round.intent_eq] at isOther
    cases isOther
  · exact layers
  · intro flag mem isSpacing sameLayer
    rcases mem_of_mem_mergeFlags mem with own | added
    · exact flags flag own isSpacing sameLayer
    · rcases round.isRaised.exists_raisedFor added with ⟨layer, layerMem, raisedFor⟩
      exact raisedFor.unsettled
        (layers layer layerMem (raisedFor.layerId_eq.symm.trans sameLayer))

/-- A question about spacing that gets an option leaves the spacing of its layer settled. -/
theorem spacingIsSettled_of_given (round : session.Round answers intent settled raised)
    (apart : (intent.layers.map Layer.id).Nodup) {question : Question}
    (mem : question ∈ session.questions) (isSpacing : question.kind = .spacing)
    (given : answers.giveOption question = true) :
    (session.answer answers).1.SpacingIsSettled question.layerId := by
  apply round.spacingIsSettled (Intent.isSettled_of_settle apart round.asked round.listed
    round.settles mem isSpacing given)
  rcases round.inRun with ⟨_, _, inRun⟩
  exact fun flag flagMem flagSpacing =>
    Intent.layerId_ne_of_settle inRun.once round.settles mem isSpacing given flagMem flagSpacing

end Round

/-- What is settled about spacing stays settled, whatever is answered. -/
theorem SpacingIsSettled.answer {intent settled : Intent} {raised : List Ambiguity}
    {layerId : Option String} (isSettled : session.SpacingIsSettled layerId)
    (round : session.Round answers intent settled raised) :
    (session.answer answers).1.SpacingIsSettled layerId := by
  apply round.spacingIsSettled
  · intro layer mem named
    obtain ⟨before, together, follows⟩ :=
      exists_partner (Intent.layersFollow_settle round.listed round.settles).flip mem
    apply follows.settled
    apply isSettled.layers intent round.isDesign before (List.of_mem_zip together).2
    rw [← follows.id_eq]
    exact named
  · intro flag mem
    exact isSettled.flags intent round.isDesign flag
      ((Intent.ambiguities_settle_sublist round.settles).subset mem)

/-! ## Two rounds -/

/-- Nothing is asked, and the session is ready. -/
def IsDone (session : Session) : Prop :=
  session.questions = [] ∧ session.isReady = true

theorem IsInRun.isDone_of_questions (inRun : session.IsInRun ids most)
    (none : session.questions = []) : session.IsDone := by
  rcases inRun with ⟨-, intent, isDesign, -, asked⟩
  refine ⟨none, ?_⟩
  rw [isReady, isDesign]
  exact List.isEmpty_iff.mpr ((ask_eq_nil_iff asked).mp none)

theorem IsInRun.isDone_of_ambiguities (inRun : session.IsInRun ids most) {intent : Intent}
    (isDesign : session.intent = some intent) (noFlags : intent.ambiguities = []) :
    session.IsDone := by
  apply inRun.isDone_of_questions
  rcases inRun with ⟨-, own, isOwn, -, asked⟩
  rw [isDesign] at isOwn
  cases isOwn
  exact (ask_eq_nil_iff asked).mpr noFlags

namespace Round

variable {intent settled other done : Intent} {raised last : List Ambiguity} {more : Answers}

/-- After everything has been answered, the flags are those that the checks raise. -/
theorem intent_eq_of_complete (round : session.Round answers intent settled raised)
    (complete : answers.AreComplete session.questions) :
    (session.answer answers).1.intent =
      some { settled with ambiguities := mergeFlags [] raised } := by
  rw [round.intent_eq, Intent.ambiguities_settle_eq_nil round.asked complete.giveAll round.settles]

/-- After everything has been answered, all that is asked about is spacing. -/
theorem isSpacing_of_complete (first : session.Round answers intent settled raised)
    (complete : answers.AreComplete session.questions)
    (second : (session.answer answers).1.Round more other done last) :
    ∀ question ∈ (session.answer answers).1.questions, question.kind = .spacing := by
  intro question mem
  have isOther := first.intent_eq_of_complete complete
  rw [second.isDesign] at isOther
  cases isOther
  rcases exists_flag_of_mem_ask second.asked mem with ⟨flag, position, placed, askedOne⟩
  rcases mem_of_mem_mergeFlags (List.mem_of_getElem? placed) with none | isRaised
  · cases none
  · rcases first.isRaised.exists_raisedFor isRaised with ⟨layer, -, raisedFor⟩
    rw [(isAbout_of_askOne askedOne).kind_eq, raisedFor.kind_eq]
    rfl

/-- After everything has been answered, a question is asked about every layer for which the
checks raise a flag. -/
theorem exists_question_of_raises (first : session.Round answers intent settled raised)
    (complete : answers.AreComplete session.questions)
    (second : (session.answer answers).1.Round more other done last) {layer : Layer}
    (mem : layer ∈ other.layers) (enabled : layer.enabled = true) {flag : Ambiguity}
    (raises : Check.Raises (session.answer answers).1.roofline
      (session.answer answers).1.settings.checks layer flag) :
    ∃ question ∈ (session.answer answers).1.questions, question.layerId = some layer.id := by
  have isOther := first.intent_eq_of_complete complete
  rw [second.isDesign] at isOther
  cases isOther
  rcases first.answered with ⟨questions, answered⟩
  have sameChecks : (session.answer answers).1.roofline = session.roofline ∧
      (session.answer answers).1.settings = session.settings := by
    rw [answered]
    exact ⟨rfl, rfl⟩
  rw [sameChecks.1, sameChecks.2] at raises
  have isRaised : flag ∈ raised :=
    (first.isRaised.mem_iff flag).mpr ⟨layer, List.mem_filter.mpr ⟨mem, enabled⟩, raises⟩
  rcases exists_sameMatter_of_mem [] isRaised with ⟨asked, askedMem, -, sameLayer⟩
  rcases exists_question_of_mem second.asked askedMem with ⟨question, questionMem, about⟩
  refine ⟨question, questionMem, ?_⟩
  rw [about, sameLayer, (first.isRaised.raisedFor layer mem flag raises).layerId_eq]

/-- After everything has been answered, and then everything that was open after that, the checks
raise no more flags. -/
theorem raised_eq_nil (first : session.Round answers intent settled raised)
    (complete : answers.AreComplete session.questions)
    (second : (session.answer answers).1.Round more other done last)
    (completeAgain : more.AreComplete (session.answer answers).1.questions)
    (apart : (other.layers.map Layer.id).Nodup) : last = [] := by
  have isSpacing := first.isSpacing_of_complete complete second
  rw [List.eq_nil_iff_forall_not_mem]
  intro flag mem
  rcases (second.isRaised.mem_iff flag).mp mem with ⟨layer, isEnabled, raises⟩
  rcases List.mem_filter.mp isEnabled with ⟨present, enabled⟩
  have raisedFor := second.isRaised.raisedFor layer present flag raises
  rcases exists_partner (Intent.staysOrSettles_settle isSpacing second.settles).flip present with
    ⟨before, together, same | ⟨-, nowSettled⟩⟩
  · -- the layer is as it was, so it was asked about, and the answer settled it
    subst same
    rcases first.exists_question_of_raises complete second (List.of_mem_zip together).2 enabled
      raises with ⟨question, questionMem, about⟩
    have given := completeAgain.giveAll question questionMem
    apply raisedFor.unsettled
    exact Intent.isSettled_of_settle apart second.asked second.listed second.settles questionMem
      (isSpacing question questionMem) given layer present about.symm
  · exact raisedFor.unsettled nowSettled

/-- Two rounds in which everything is answered leave no flags. -/
theorem ambiguities_eq_nil (first : session.Round answers intent settled raised)
    (complete : answers.AreComplete session.questions)
    (second : (session.answer answers).1.Round more other done last)
    (completeAgain : more.AreComplete (session.answer answers).1.questions)
    (apart : (other.layers.map Layer.id).Nodup) :
    ∃ final, ((session.answer answers).1.answer more).1.intent = some final ∧
      final.ambiguities = [] := by
  refine ⟨_, second.intent_eq_of_complete completeAgain, ?_⟩
  rw [first.raised_eq_nil complete second completeAgain apart]
  rfl

end Round

end Session

end Eaves
