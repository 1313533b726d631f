import Eaves.Command.Run
import Eaves.Proofs.Prompt.Count
import Eaves.Proofs.Record.Settings
import Eaves.Proofs.Session.Rounds

/-!
# Taking what is recommended

A command may take the recommended option of every open question, round after round,
for a bounded number of rounds.  Recommended options are offered ones and every
question has one, so such a round answers everything; two rounds settle every design
that came from a prompt, whatever was answered before, and the bound never cuts the
rounds short where it is at least two.
-/

namespace Eaves

open Outcome

variable {ids : List String} {most : Nat} {session start reached : Session}

namespace Session

/-! ## Runs of answers -/

/-- The states that calls with offered answers lead to, one after another. -/
inductive AnswersTo (start : Session) : Session → Prop
  | start : AnswersTo start start
  | answer {reached : Session} (earlier : AnswersTo start reached) (answers : Answers)
      (areOffered : answers.AreOffered reached.questions) :
      AnswersTo start (reached.answer answers).1

theorem IsInRun.answersTo (numbered : most + ids.length ≤ 10 ^ Text.digitLimit)
    (inRun : start.IsInRun ids most) (isReached : AnswersTo start reached) :
    reached.IsInRun ids most := by
  induction isReached with
  | start => exact inRun
  | answer earlier answers areOffered ih => exact (exists_round numbered ih areOffered).2

/-- What is settled about spacing stays settled in a run of answers. -/
theorem SpacingIsSettled.answersTo (numbered : most + ids.length ≤ 10 ^ Text.digitLimit)
    (inRun : start.IsInRun ids most) {layerId : Option String}
    (isSettled : start.SpacingIsSettled layerId) (isReached : AnswersTo start reached) :
    reached.SpacingIsSettled layerId := by
  induction isReached with
  | start => exact isSettled
  | answer earlier answers areOffered ih =>
      obtain ⟨⟨intent, settled, raised, round⟩, -⟩ :=
        exists_round numbered (inRun.answersTo numbered earlier) areOffered
      exact ih.answer round

/-- A layer whose spacing is settled is not asked about its spacing. -/
theorem SpacingIsSettled.not_asked (inRun : session.IsInRun ids most) {layerId : Option String}
    (isSettled : session.SpacingIsSettled layerId) {question : Question}
    (mem : question ∈ session.questions) (isSpacing : question.kind = .spacing) :
    question.layerId ≠ layerId := by
  rcases inRun with ⟨-, intent, isDesign, -, asked⟩
  rcases exists_flag_of_mem_ask asked mem with ⟨flag, position, placed, askedOne⟩
  have about := isAbout_of_askOne askedOne
  rw [about.layerId_eq]
  apply isSettled.flags intent isDesign flag (List.mem_of_getElem? placed)
  exact AmbiguityKind.question_injective (about.kind_eq.symm.trans isSpacing)

/-- Taking a prompt in is the start of a run. -/
theorem exists_isInRun_of_parse (sized : session.IsSized) {text : String} {intent : Intent}
    (short : text.length < 2 ^ 63) (parsed : session.parse text = (start, .ok intent)) :
    ∃ ids most, ids.Nodup ∧ most + ids.length ≤ 10 ^ Text.digitLimit ∧
      start.IsInRun ids most := by
  unfold parse at parsed
  split at parsed
  · rename_i understood isUnderstood
    rcases bind_eq_ok_iff.mp isUnderstood with ⟨plain, isPlain, shape⟩
    rw [pure_eq_ok_iff] at shape
    subst shape
    rcases Prompt.isInRun_parse isPlain with ⟨apart, plainInRun⟩
    have brightened : Intent.IsInRun _ _ { plain with
        settings := { plain.settings with brightness := session.settings.device.brightness } } :=
      ⟨⟨plainInRun.within.zones, plainInRun.within.flags⟩, plainInRun.ids_eq, plainInRun.isOpen,
        plainInRun.once, plainInRun.few⟩
    rcases isInRun_adopt sized brightened with ⟨raised, questions, -, -, after⟩
    rw [parsed] at after
    exact ⟨_, _, apart, Prompt.numbered_of_parse short isPlain, after⟩
  · cases parsed

/-- A short prompt is taken in, and where it names a colour vaguely, something about it is
open. -/
theorem parse_of_vague (sized : session.IsSized) {text : String}
    (short : (Prompt.normalize text.toList).length ≤ Text.digitLimit) {clause : List Char}
    (mem : clause ∈ Prompt.clauses (Prompt.normalize text.toList))
    {mention : Prompt.VagueMention} (isVague : mention ∈ Prompt.vagueMentions clause) :
    ∃ after intent, session.parse text = (after, .ok intent) ∧ intent.ambiguities ≠ [] := by
  rcases Prompt.parse_succeeds (some session.roofline) session.settings.parsing short with
    ⟨plain, isPlain⟩
  rcases Prompt.exists_shade_of_vague isPlain mem isVague with ⟨origin, isOpen⟩
  obtain ⟨design, understood, sameFlags⟩ : ∃ design, session.understand text = .ok design ∧
      design.ambiguities = plain.ambiguities :=
    ⟨_, bind_eq_ok_iff.mpr ⟨plain, isPlain, rfl⟩, rfl⟩
  rcases adopt_succeeds sized.small sized.shares (isWithin_understand understood) with
    ⟨raised, questions, -, -, -, adopted⟩
  have takesIn : session.parse text = session.adopt design := by
    rw [parse, understood]
  refine ⟨_, _, takesIn.trans adopted, ?_⟩
  exact List.ne_nil_of_mem (mem_mergeFlags_of_mem (sameFlags ▸ isOpen))

/-! ## Complete answers -/

/-- Every question of a run offers something. -/
theorem IsInRun.offers_ne_nil (inRun : session.IsInRun ids most) :
    ∀ question ∈ session.questions, question.offers ≠ [] := by
  intro question mem
  rcases inRun with ⟨-, intent, -, designInRun, asked⟩
  rcases exists_flag_of_mem_ask asked mem with ⟨flag, position, placed, askedOne⟩
  exact offers_ne_nil_of_askOne (designInRun.isOpen flag (List.mem_of_getElem? placed)).shades
    askedOne

/-- Answering everything, and then everything that is open after that, leaves nothing open. -/
theorem IsInRun.isDone_of_two (numbered : most + ids.length ≤ 10 ^ Text.digitLimit)
    (apart : ids.Nodup) (inRun : session.IsInRun ids most) {answers more : Answers}
    (complete : answers.AreComplete session.questions)
    (completeAgain : more.AreComplete (session.answer answers).1.questions) :
    ((session.answer answers).1.answer more).1.IsDone := by
  obtain ⟨⟨intent, settled, raised, first⟩, between⟩ :=
    exists_round numbered inRun complete.areOffered
  obtain ⟨⟨other, done, last, second⟩, after⟩ :=
    exists_round numbered between completeAgain.areOffered
  rcases between with ⟨-, design, isDesign, designInRun, -⟩
  have sameDesign : design = other :=
    Option.some.inj (isDesign.symm.trans second.isDesign)
  rw [← designInRun.ids_eq, sameDesign] at apart
  obtain ⟨final, isFinal, noFlags⟩ :=
    first.ambiguities_eq_nil complete second completeAgain apart
  exact after.isDone_of_ambiguities isFinal noFlags

end Session

/-! ## Recommended options -/

/-- Where something is offered, something that is offered is recommended. -/
theorem Question.exists_recommended {question : Question} (offersSome : question.offers ≠ []) :
    ∃ offer ∈ question.offers, question.recommended? = some offer := by
  unfold recommended?
  cases marked : question.offers.find? Offer.recommended with
  | some offer => exact ⟨offer, List.mem_of_find?_eq_some marked, rfl⟩
  | none =>
      rcases List.exists_cons_of_ne_nil offersSome with ⟨first, rest, isCons⟩
      rw [isCons]
      exact ⟨first, List.mem_cons_self, rfl⟩

/-- Among questions with ids of their own, each gets the answer that is made for it, if any. -/
theorem lookup_filterMap_of_mem {questions : List Question}
    (apart : (questions.map Question.id).Nodup) {question : Question} (mem : question ∈ questions)
    (answer? : Question → Option Answer) :
    (questions.filterMap fun question =>
      (answer? question).map fun answer => (question.id, answer)).lookup question.id =
        answer? question := by
  induction questions with
  | nil => cases mem
  | cons first rest ih =>
      rw [List.map_cons, List.nodup_cons] at apart
      rw [List.filterMap_cons]
      rcases List.mem_cons.mp mem with rfl | later
      · cases answer? question with
        | some own => exact List.lookup_cons_self
        | none =>
            rw [Option.map_none, List.lookup_eq_none_iff]
            intro entry entryMem
            rcases List.mem_filterMap.mp entryMem with ⟨other, otherMem, isEntry⟩
            rcases Option.map_eq_some_iff.mp isEntry with ⟨own, -, rfl⟩
            have otherId : question.id ≠ other.id :=
              fun sameId => apart.1 (sameId ▸ List.mem_map_of_mem otherMem)
            simpa using otherId
      · have elsewhere : (question.id == first.id) = false := by
          rw [beq_eq_false_iff_ne]
          intro sameId
          exact apart.1 (sameId ▸ List.mem_map_of_mem later)
        cases answer? first with
        | none => exact ih apart.2 later
        | some own =>
            rw [Option.map_some]
            dsimp only
            rw [List.lookup_cons, elsewhere]
            exact ih apart.2 later

namespace Session

/-- Each question gets the option that is recommended for it. -/
theorem lookup_recommendations (apart : (session.questions.map Question.id).Nodup)
    {question : Question} (mem : question ∈ session.questions) :
    session.recommendations.lookup question.id = question.recommended?.map Answer.own := by
  rw [← lookup_filterMap_of_mem apart mem fun question => question.recommended?.map Answer.own]
  simp only [Option.map_map, Function.comp_def]
  rfl

/-- The recommended options answer everything. -/
theorem IsInRun.recommendations (inRun : session.IsInRun ids most) :
    session.recommendations.AreComplete session.questions := by
  have offersSome := inRun.offers_ne_nil
  rcases inRun with ⟨-, intent, -, -, asked⟩
  have apart := (Intent.ids_of_ask asked).2
  have given : ∀ question ∈ session.questions, ∃ offer ∈ question.offers,
      session.recommendations.lookup question.id = some (.own offer) := by
    intro question mem
    obtain ⟨offer, isOffered, recommends⟩ :=
      Question.exists_recommended (offersSome question mem)
    exact ⟨offer, isOffered, by rw [lookup_recommendations apart mem, recommends]; rfl⟩
  constructor
  · intro question mem own isOwn
    rcases given question mem with ⟨offer, isOffered, isGiven⟩
    rw [isGiven] at isOwn
    cases isOwn
    exact isOffered
  · intro question mem
    rcases given question mem with ⟨offer, -, isGiven⟩
    rw [Answers.giveOption, isGiven]

end Session

/-! ## The rounds of a command -/

namespace Command

theorem acceptRounds_of_nil (rounds : Nat) {session : Session} (none : session.questions = [])
    (desk : Desk) : (acceptRounds rounds session).run desk = (.ok session, desk) := by
  cases rounds with
  | zero => rfl
  | succ rounds =>
      rw [acceptRounds, if_pos (List.isEmpty_iff.mpr none)]
      rfl

theorem acceptRounds_succ (rounds : Nat) {session after : Session} {intent : Intent}
    (some : session.questions ≠ [])
    (answered : session.answer session.recommendations = (after, .ok intent)) (desk : Desk) :
    (acceptRounds (rounds + 1) session).run desk = (acceptRounds rounds after).run desk := by
  rw [acceptRounds, if_neg (by simpa using some), answered]
  rfl

/-- Two rounds are enough, whatever was answered before. -/
theorem acceptRounds_isDone (numbered : most + ids.length ≤ 10 ^ Text.digitLimit)
    (apart : ids.Nodup) (inRun : session.IsInRun ids most) {rounds : Nat} (two : 2 ≤ rounds)
    (desk : Desk) :
    ∃ ended, (acceptRounds rounds session).run desk = (.ok ended, desk) ∧ ended.IsDone := by
  rcases Nat.exists_eq_add_of_le' two with ⟨more, rfl⟩
  by_cases none : session.questions = []
  · exact ⟨session, acceptRounds_of_nil _ none desk, inRun.isDone_of_questions none⟩
  · have complete := inRun.recommendations
    rcases Session.exists_round numbered inRun complete.areOffered with ⟨⟨_, _, _, first⟩, between⟩
    rcases first.exists_design with ⟨design, answered⟩
    rw [acceptRounds_succ _ none (Prod.ext rfl answered)]
    by_cases noneAgain : (session.answer session.recommendations).1.questions = []
    · exact ⟨_, acceptRounds_of_nil _ noneAgain desk, between.isDone_of_questions noneAgain⟩
    · have completeAgain := between.recommendations
      obtain ⟨⟨_, _, _, second⟩, -⟩ :=
        Session.exists_round numbered between completeAgain.areOffered
      rcases second.exists_design with ⟨last, answeredAgain⟩
      have done := inRun.isDone_of_two numbered apart complete completeAgain
      rw [acceptRounds_succ _ noneAgain (Prod.ext rfl answeredAgain)]
      exact ⟨_, acceptRounds_of_nil _ done.1 desk, done⟩

end Command

namespace Session

/-- In every state that a prompt, of fewer characters than a machine can count, and then any
calls with offered answers lead to: every open question offers something, and offered answers do
not fail; answering every open question with any of its options, and then every question that is
open after that, leaves nothing open; once a question about the spacing of a layer has been
answered, none is asked about the spacing of that layer again; and taking what is recommended,
for two rounds or more, leaves nothing open. -/
theorem answers_leave_nothing_open (sized : session.IsSized) {text : String} {intent : Intent}
    (short : text.length < 2 ^ 63) (parsed : session.parse text = (start, .ok intent))
    (isReached : AnswersTo start reached) :
    (∀ question ∈ reached.questions, question.offers ≠ []) ∧
    (∀ answers : Answers, answers.AreOffered reached.questions →
      ∃ design, (reached.answer answers).2 = .ok design) ∧
    (∀ answers more : Answers, answers.AreComplete reached.questions →
      more.AreComplete (reached.answer answers).1.questions →
        ((reached.answer answers).1.answer more).1.IsDone) ∧
    (∀ answers : Answers, answers.AreOffered reached.questions →
      ∀ question ∈ reached.questions, question.kind = .spacing →
      answers.giveOption question = true →
      ∀ later, AnswersTo (reached.answer answers).1 later →
      ∀ other ∈ later.questions, other.kind = .spacing → other.layerId ≠ question.layerId) ∧
    ∀ rounds, 2 ≤ rounds → ∀ desk, ∃ ended,
      (Command.acceptRounds rounds reached).run desk = (.ok ended, desk) ∧ ended.IsDone := by
  rcases exists_isInRun_of_parse sized short parsed with ⟨ids, most, apart, numbered, startInRun⟩
  have inRun := startInRun.answersTo numbered isReached
  refine ⟨inRun.offers_ne_nil, ?_, ?_, ?_, ?_⟩
  · intro answers areOffered
    rcases exists_round numbered inRun areOffered with ⟨⟨_, _, _, round⟩, -⟩
    exact round.exists_design
  · intro answers more complete completeAgain
    exact inRun.isDone_of_two numbered apart complete completeAgain
  · intro answers areOffered question mem isSpacing given later isLater other otherMem otherSpacing
    rcases exists_round numbered inRun areOffered with ⟨⟨design, _, _, round⟩, next⟩
    rcases inRun with ⟨-, own, isOwn, ownInRun, -⟩
    rw [round.isDesign] at isOwn
    cases isOwn
    have settled := round.spacingIsSettled_of_given (ownInRun.ids_eq ▸ apart) mem isSpacing given
    exact (settled.answersTo numbered next isLater).not_asked (next.answersTo numbered isLater)
      otherMem otherSpacing
  · intro rounds two desk
    exact Command.acceptRounds_isDone numbered apart inRun two desk

/-- A new session on a short strip, with the usual settings. -/
def usualSession : Session :=
  { roofline := Composition.eaveAndPeak }

theorem isSized_usualSession : usualSession.IsSized :=
  ⟨by decide, CheckSettings.hasShares_usual⟩

theorem normalize_red : Prompt.normalize "red".toList = ['r', 'e', 'd'] := by
  decide +kernel

theorem clauses_red : Prompt.clauses (Prompt.normalize "red".toList) = [['r', 'e', 'd']] := by
  rw [normalize_red]
  decide +kernel

theorem isShort_red : (Prompt.normalize "red".toList).length ≤ Text.digitLimit := by
  rw [normalize_red]
  decide

/-- Red is a vague word, so its shade is left open. -/
theorem parse_red : ∃ start intent, usualSession.parse "red" = (start, .ok intent) ∧
    intent.ambiguities ≠ [] := by
  have oneVague : (Prompt.vagueMentions ['r', 'e', 'd']).length = 1 := by decide +kernel
  rcases List.exists_mem_of_length_pos (by rw [oneVague]; decide) with ⟨mention, isVague⟩
  exact parse_of_vague isSized_usualSession isShort_red (clauses_red ▸ List.mem_singleton_self _)
    isVague

/-- The shade that is left open is asked about, and taking what is recommended settles it. -/
theorem answers_leave_nothing_open_red :
    usualSession.IsSized ∧ "red".length < 2 ^ 63 ∧
      ∃ start intent, usualSession.parse "red" = (start, .ok intent) ∧ intent.ambiguities ≠ [] ∧
        ∀ desk, ∃ ended,
          (Command.acceptRounds Command.maxRounds start).run desk = (.ok ended, desk) ∧
            ended.IsDone := by
  obtain ⟨start, intent, parsed, isOpen⟩ := parse_red
  rcases answers_leave_nothing_open isSized_usualSession (by decide) parsed .start with
    ⟨-, -, -, -, accepts⟩
  exact ⟨isSized_usualSession, by decide, start, intent, parsed, isOpen,
    accepts Command.maxRounds (by decide)⟩

end Session

end Eaves
