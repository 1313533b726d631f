import Eaves.Proofs.Pixels.Composition
import Eaves.Proofs.Session.Adoption
import Eaves.Session.Keep
import Eaves.Session.Show

/-!
# Runs of a session

A session is used by one operation after another, in any order, and some of them
fail.  What holds in every state that is reached this way: the open questions are
those about the flags of the design at hand, and the last composition is one of that
design, made since it was taken in.  Hence what is sent, or kept beside a design, was
made from that design, and nothing about it was open.

Taking a design in could break this by getting half way, with a design whose
questions cannot be asked.  That it never does rests on the bounds: a roofline of
fewer than `2 ^ 53` lights, shares of the strip that are shares, and designs from
outside that spread fewer than `2 ^ 53` lights and list no more ranges than a list
can hold.
-/

namespace Eaves.Session

open Outcome

/-! ## Operations -/

/-- Where a design that is taken in comes from. -/
inductive Source where
  | prompt (text : String)
  | answers (answers : Answers)
  | design (intent : Intent)
  | stored (repository : Repository) (id : String)

/-- An operation on a session. -/
inductive Operation where
  | take (source : Source)
  | compose (form : PayloadForm)
  | save (repository : Repository) (id name : String)
  | send

variable {session start reached : Session}

/-- Takes in a design from a source. -/
def take (session : Session) : Source → SessionResult Intent
  | .prompt text => session.parse text
  | .answers answers => session.answer answers
  | .design intent => session.adopt intent
  | .stored repository id => session.load repository id

/-- The session after an operation, whether it succeeds or fails; saving and sending give no
session back, since they leave it as it is. -/
def step (session : Session) : Operation → Session
  | .take source => (session.take source).1
  | .compose form => (session.compose form).1
  | .save .. | .send => session

/-- The session after operations, one after another. -/
def run (session : Session) (operations : List Operation) : Session :=
  operations.foldl step session

/-- Whether an operation takes a design in. -/
def TakesIn (session : Session) : Operation → Prop
  | .take source => ∃ after intent, session.take source = (after, .ok intent)
  | _ => False

/-- Whether none of the operations takes a design in. -/
def NoneTakesIn : Session → List Operation → Prop
  | _, [] => True
  | session, operation :: rest =>
      ¬session.TakesIn operation ∧ NoneTakesIn (session.step operation) rest

theorem run_append (session : Session) (before after : List Operation) :
    session.run (before ++ after) = (session.run before).run after :=
  List.foldl_append

theorem noneTakesIn_append {before after : List Operation} :
    session.NoneTakesIn (before ++ after) ↔
      session.NoneTakesIn before ∧ (session.run before).NoneTakesIn after := by
  induction before generalizing session with
  | nil => simp [NoneTakesIn, run]
  | cons operation rest ih =>
      rw [List.cons_append, NoneTakesIn, NoneTakesIn, ih, and_assoc]
      rfl

/-! ## What comes from outside -/

/-- A source within bounds: designs from outside spread fewer than `2 ^ 53` lights, and what
comes from outside lists no more ranges than a list can hold. -/
def Source.IsWithin : Source → Prop
  | .prompt _ => True
  | .answers given => BringListed given
  | .design intent => intent.IsWithin (2 ^ 53)
  | .stored repository id => ∀ userId design,
      repository.load userId id = .ok (some design) → design.intent.IsWithin (2 ^ 53)

/-- An operation within bounds. -/
def Operation.IsWithin : Operation → Prop
  | .take source => source.IsWithin
  | _ => True

/-- A session with which nothing has been done. -/
structure IsNew (session : Session) : Prop where
  no_intent : session.intent = none
  no_questions : session.questions = []
  no_last : session.last = none

theorem IsNew.intent_ne (isNew : session.IsNew) (intent : Intent) :
    session.intent ≠ some intent := by
  rw [isNew.no_intent]
  nofun

/-- A session on a roofline and with settings for which everything can be counted. -/
structure IsSized (session : Session) : Prop where
  small : session.roofline.total < 2 ^ 53
  shares : session.settings.checks.HasShares

/-! ## What every operation keeps -/

/-- What holds of a session between operations: the questions are those about the flags of its
design, which is within bounds, and without a design there are none. -/
structure Standing (session : Session) : Prop where
  blank : session.intent = none → session.questions = [] ∧ session.last = none
  within : ∀ intent, session.intent = some intent → intent.IsWithin (2 ^ 120)
  asked : ∀ intent, session.intent = some intent →
    ask intent.ambiguities (session.subject intent) = .ok session.questions

theorem IsNew.standing (isNew : session.IsNew) : session.Standing := by
  refine ⟨fun _ => ⟨isNew.no_questions, isNew.no_last⟩, ?_, ?_⟩
  all_goals
    intro intent isIntent
    rw [isNew.no_intent] at isIntent
    cases isIntent

/-- A session that took a design in: it, its questions, and no composition. -/
structure Took (before after : Session) : Prop where
  roofline_eq : after.roofline = before.roofline
  settings_eq : after.settings = before.settings
  forgotten : after.last = none
  standing : after.Standing

theorem Took.isSized {after : Session} (took : session.Took after) (sized : session.IsSized) :
    after.IsSized :=
  ⟨took.roofline_eq ▸ sized.small, took.settings_eq ▸ sized.shares⟩

theorem took_adopt (sized : session.IsSized) {intent : Intent}
    (within : intent.IsWithin (2 ^ 120)) :
    (∃ checked, (session.adopt intent).2 = .ok checked) ∧
      session.Took (session.adopt intent).1 := by
  obtain ⟨raised, questions, -, checkedWithin, asked, adopted⟩ :=
    adopt_succeeds sized.small sized.shares within
  rw [adopted]
  refine ⟨⟨_, rfl⟩, rfl, rfl, rfl, ?_, ?_, ?_⟩
  · rintro ⟨⟩
  · rintro other ⟨⟩
    exact checkedWithin
  · rintro other ⟨⟩
    exact asked

/-- What a prompt asks for is within bounds. -/
theorem isWithin_understand {text : String} {intent : Intent}
    (understood : session.understand text = .ok intent) : intent.IsWithin (2 ^ 120) := by
  rcases bind_eq_ok_iff.mp understood with ⟨parsed, isParsed, shape⟩
  rw [pure_eq_ok_iff] at shape
  subst shape
  have within := Prompt.isWithin_parse isParsed (2 ^ 120)
  exact ⟨within.zones, within.flags⟩

theorem isWithin_answered (standing : session.Standing) {answers : Answers}
    (listed : BringListed answers) {intent : Intent}
    (answered : session.answered answers = .ok intent) : intent.IsWithin (2 ^ 120) := by
  rcases answered_eq_ok_iff.mp answered with ⟨own, isOwn, settles⟩
  have within := standing.within own isOwn
  have asked := standing.asked own isOwn
  exact isWithin_settle within (bringsListed_of_chosen? within.flags asked listed) settles

theorem isWithin_stored {repository : Repository} {id : String} {intent : Intent}
    (within : (Source.stored repository id).IsWithin)
    (stored : session.stored repository id = .ok intent) : intent.IsWithin (2 ^ 120) := by
  rcases bind_eq_ok_iff.mp stored with ⟨found, loaded, rest⟩
  cases found with
  | none => cases rest
  | some design =>
      rw [pure_eq_ok_iff] at rest
      exact rest ▸ (within _ _ loaded).mono (by norm_num)

/-- Taking a design in either succeeds as a whole, or fails and changes nothing. -/
theorem take_cases (sized : session.IsSized) (standing : session.Standing) {source : Source}
    (within : source.IsWithin) :
    ((∃ intent, (session.take source).2 = .ok intent) ∧ session.Took (session.take source).1) ∨
      ∃ failure, session.take source = (session, .error failure) := by
  cases source with
  | prompt text =>
      simp only [take, parse]
      cases understood : session.understand text with
      | ok intent => exact .inl (took_adopt sized (isWithin_understand understood))
      | error failure => exact .inr ⟨failure, rfl⟩
  | answers answers =>
      simp only [take, answer]
      cases answered : session.answered answers with
      | ok intent => exact .inl (took_adopt sized (isWithin_answered standing within answered))
      | error failure => exact .inr ⟨failure, rfl⟩
  | design intent =>
      have fromOutside : intent.IsWithin (2 ^ 53) := within
      exact .inl (took_adopt sized (fromOutside.mono (by norm_num)))
  | stored repository id =>
      simp only [take, load]
      cases stored : session.stored repository id with
      | ok intent => exact .inl (took_adopt sized (isWithin_stored within stored))
      | error failure => exact .inr ⟨failure, rfl⟩

/-- What an operation can do: it takes a design in, or it composes the design, or it leaves the
session as it is. -/
inductive StepOf (session : Session) (operation : Operation) : Prop where
  | took (takes : session.TakesIn operation) (took : session.Took (session.step operation))
  | composed (form : PayloadForm) (result : Composition) (isCompose : operation = .compose form)
      (made : session.composed form = .ok result)
      (kept : session.step operation = { session with last := some result })
  | unchanged (takesNone : ¬session.TakesIn operation) (same : session.step operation = session)

theorem step_cases (sized : session.IsSized) (standing : session.Standing)
    {operation : Operation} (within : operation.IsWithin) : session.StepOf operation := by
  cases operation with
  | take source =>
      rcases take_cases sized standing within with ⟨⟨intent, success⟩, took⟩ | ⟨failure, failed⟩
      · exact .took ⟨_, intent, Prod.ext rfl success⟩ took
      · apply StepOf.unchanged _ (by rw [step, failed])
        rintro ⟨after, intent, success⟩
        rw [failed] at success
        cases success
  | compose form =>
      cases made : session.composed form with
      | ok result => exact .composed form result rfl made (by simp only [step, compose, made])
      | error failure => exact .unchanged not_false (by simp only [step, compose, made])
  | save repository id name => exact .unchanged not_false rfl
  | send => exact .unchanged not_false rfl

theorem Standing.step (standing : session.Standing) (sized : session.IsSized)
    {operation : Operation} (within : operation.IsWithin) :
    (session.step operation).IsSized ∧ (session.step operation).Standing := by
  cases step_cases sized standing within with
  | took _ took =>
      exact ⟨took.isSized sized, took.standing⟩
  | composed form result _ made kept =>
      rw [kept]
      refine ⟨⟨sized.small, sized.shares⟩, ?_, standing.within, standing.asked⟩
      intro noIntent
      rw [Session.composed, design, noIntent] at made
      cases made
  | unchanged _ same =>
      rw [same]
      exact ⟨sized, standing⟩

/-- The questions stand in every state that is reached. -/
theorem Standing.run (standing : session.Standing) (sized : session.IsSized)
    {operations : List Operation} (within : ∀ operation ∈ operations, operation.IsWithin) :
    (session.run operations).IsSized ∧ (session.run operations).Standing := by
  induction operations generalizing session with
  | nil => exact ⟨sized, standing⟩
  | cons operation rest ih =>
      obtain ⟨sizedNext, standingNext⟩ := standing.step sized (within operation List.mem_cons_self)
      exact ih standingNext sizedNext fun other mem => within other (List.mem_cons_of_mem _ mem)

/-! ## The last composition -/

/-- The composition was made by an operation of the run, of the design that is still the
session's, and no operation since has taken a design in. -/
def MadeSince (start : Session) (operations : List Operation) (result : Composition) : Prop :=
  ∃ before form after, operations = before ++ Operation.compose form :: after ∧
    (start.run before).composed form = .ok result ∧
    (start.run before).intent = (start.run operations).intent ∧
    (start.run (before ++ [.compose form])).NoneTakesIn after

/-- A composition in hand at the end of a run is of the design at the end of it, and was made
since that design was taken in. -/
theorem madeSince_of_last (isNew : start.IsNew) (sized : start.IsSized)
    {operations : List Operation} (within : ∀ operation ∈ operations, operation.IsWithin)
    {result : Composition} (isLast : (start.run operations).last = some result) :
    start.MadeSince operations result ∧
      ∃ form, (start.run operations).composed form = .ok result := by
  induction operations using List.reverseRecOn generalizing result with
  | nil =>
      rw [run, List.foldl_nil, isNew.no_last] at isLast
      cases isLast
  | append_singleton earlier operation ih =>
      have withinEarlier := fun other mem => within other (List.mem_append_left _ mem)
      rcases isNew.standing.run sized withinEarlier with ⟨sizedEarlier, standingEarlier⟩
      have isNext : start.run (earlier ++ [operation]) = (start.run earlier).step operation :=
        start.run_append earlier [operation]
      rw [isNext] at isLast ⊢
      cases step_cases sizedEarlier standingEarlier (within operation (by simp)) with
      | took _ took =>
          rw [took.forgotten] at isLast
          cases isLast
      | composed form made isCompose isMade kept =>
          subst isCompose
          rw [kept] at isLast ⊢
          cases isLast
          refine ⟨⟨earlier, form, [], rfl, isMade, ?_, trivial⟩, form, isMade⟩
          rw [isNext, kept]
      | unchanged takesNone same =>
          rw [same] at isLast ⊢
          obtain ⟨⟨before, form, after, split, made, sameIntent, noneSince⟩, isOf⟩ :=
            ih withinEarlier isLast
          refine ⟨⟨before, form, after ++ [operation], ?_, made, ?_, ?_⟩, isOf⟩
          · rw [split, List.append_assoc, List.cons_append]
          · rw [isNext, same, sameIntent]
          · rw [noneTakesIn_append, ← run_append, List.append_assoc, List.singleton_append, ← split]
            exact ⟨noneSince, takesNone, trivial⟩

/-! ## What leaves a session -/

/-- A payload of the session's design: a composition that shows the design has it, and nothing
about the design is open. -/
def IsPayloadOfDesign (session : Session) (payload : Payload) : Prop :=
  ∃ intent form result, session.intent = some intent ∧ intent.ambiguities = [] ∧
    session.composed form = .ok result ∧ result.success = true ∧ result.payload = some payload

/-- Only a composition that shows something has a payload, in whatever form. -/
theorem shown_of_payload_inForm {intent : Intent} {roofline : Roofline} {rgbw : Bool}
    {plain : Composition} (composed : Composition.compose intent roofline rgbw = .ok plain)
    {form : PayloadForm} {payload : Payload}
    (hasPayload : (plain.inForm form intent roofline.total rgbw).payload = some payload) :
    (plain.inForm form intent roofline.total rgbw).success = true ∧ intent.ambiguities = [] := by
  rcases Composition.compose_cases composed with
    ⟨refused, -, noPayload⟩ | ⟨work, settled, -, -, -, rfl⟩
  · rw [Composition.inForm, refused, if_neg Bool.false_ne_true, noPayload] at hasPayload
    cases hasPayload
  · constructor
    · rw [Composition.inForm, if_pos rfl]
      split <;> rfl
    · exact settled

theorem isPayloadOfDesign_of_composed {form : PayloadForm} {result : Composition}
    {payload : Payload} (made : session.composed form = .ok result)
    (hasPayload : result.payload = some payload) : session.IsPayloadOfDesign payload := by
  have composed := made
  rcases bind_eq_ok_iff.mp composed with ⟨intent, isDesign, rest⟩
  rcases bind_eq_ok_iff.mp rest with ⟨plain, isPlain, shape⟩
  rw [pure_eq_ok_iff] at shape
  subst shape
  rcases shown_of_payload_inForm isPlain hasPayload with ⟨shown, settled⟩
  refine ⟨intent, form, _, ?_, settled, made, shown, hasPayload⟩
  unfold design at isDesign
  split at isDesign
  · rename_i own isOwn
    cases isDesign
    exact isOwn
  · cases isDesign

/-- What is kept of a design beside it is the payload of the last composition. -/
theorem record_eq_ok {id name : String} {kept : SavedDesign}
    (recorded : session.record id name = .ok kept) :
    session.intent = some kept.intent ∧
      kept.payload = (session.last.bind Composition.payload).map Payload.toEntries := by
  rcases bind_eq_ok_iff.mp recorded with ⟨intent, isDesign, rest⟩
  rcases bind_eq_ok_iff.mp rest with ⟨checked, -, shape⟩
  rw [pure_eq_ok_iff] at shape
  subst shape
  constructor
  · unfold design at isDesign
    split at isDesign
    · rename_i own isOwn
      cases isDesign
      exact isOwn
    · cases isDesign
  · rfl

/-- A design that is saved is the one that was recorded. -/
theorem record_of_save {repository : Repository} {id name : String} {kept : SavedDesign}
    (saved : (session.save repository id name).2 = .ok kept) :
    session.record id name = .ok kept := by
  unfold save at saved
  split at saved
  · cases saved
  · rename_i recorded isRecorded
    rcases map_eq_ok_iff.mp saved with ⟨_, -, rfl⟩
    exact isRecorded

/-- In every state that a new session reaches, by operations in any order and with any outcome:
the open questions are those about the flags of its design, so it is ready exactly when it has a
design and no question; the last composition is one of its design, made since the design was
taken in; and what it sends, or keeps beside its design, is the payload of a composition that
shows the design, with nothing open. -/
theorem run_keeps_to_design (isNew : start.IsNew) (sized : start.IsSized)
    {operations : List Operation} (within : ∀ operation ∈ operations, operation.IsWithin) :
    (((start.run operations).intent = none → (start.run operations).questions = []) ∧
      (∀ intent, (start.run operations).intent = some intent →
        ask intent.ambiguities ((start.run operations).subject intent) =
          .ok (start.run operations).questions) ∧
      ((start.run operations).isReady = true ↔
        (start.run operations).intent.isSome = true ∧ (start.run operations).questions = [])) ∧
    (∀ result, (start.run operations).last = some result →
      start.MadeSince operations result ∧
        ∃ form, (start.run operations).composed form = .ok result) ∧
    (∀ payload, (start.run operations).outgoing = .ok (some payload) →
      (start.run operations).IsPayloadOfDesign payload) ∧
    ∀ repository id name kept entries,
      ((start.run operations).save repository id name).2 = .ok kept →
      kept.payload = some entries →
        (start.run operations).intent = some kept.intent ∧
          ∃ payload, (start.run operations).IsPayloadOfDesign payload ∧
            entries = payload.toEntries := by
  rcases isNew.standing.run sized within with ⟨-, standing⟩
  have ofLast : ∀ result, (start.run operations).last = some result →
      start.MadeSince operations result ∧
        ∃ form, (start.run operations).composed form = .ok result :=
    fun _ isLast => madeSince_of_last isNew sized within isLast
  generalize start.run operations = reached at standing ofLast
  refine ⟨⟨fun noIntent => (standing.blank noIntent).1, standing.asked, ?_⟩, ofLast, ?_, ?_⟩
  · unfold isReady
    cases isIntent : reached.intent with
    | none => simp
    | some intent =>
        rw [ask_eq_nil_iff (standing.asked intent isIntent), List.isEmpty_iff]
        simp
  · intro payload sends
    unfold outgoing at sends
    split at sends
    · rcases Option.bind_eq_some_iff.mp (Except.ok.inj sends) with ⟨result, isLast, isPayload⟩
      rcases ofLast result isLast with ⟨-, form, made⟩
      split at isPayload
      · exact isPayloadOfDesign_of_composed made isPayload
      · cases isPayload
    · cases sends
  · intro repository id name kept entries saves hasPayload
    rcases record_eq_ok (record_of_save saves) with ⟨sameIntent, keptPayload⟩
    constructor
    · exact sameIntent
    · rw [keptPayload] at hasPayload
      rcases Option.map_eq_some_iff.mp hasPayload with ⟨payload, ofResult, rfl⟩
      rcases Option.bind_eq_some_iff.mp ofResult with ⟨result, isLast, isPayload⟩
      rcases ofLast result isLast with ⟨-, form, made⟩
      exact ⟨payload, isPayloadOfDesign_of_composed made isPayload, rfl⟩

/-- Settings of the application in whole numbers. -/
def wholeSettings : AppSettings :=
  { parsing :=
      { ambiguityPenalty := .finite 0, allZonePenalty := .finite 0, whitePenalty := .finite 0 },
    checks := Intent.wholeSettings,
    device := { retry := { baseDelay := .finite 0, jitter := .finite 0 } } }

/-- A new session on a short strip, with a controller. -/
def freshSession : Session :=
  { roofline := Composition.eaveAndPeak, settings := wholeSettings, attached := true }

/-- One layer, red everywhere. -/
def redEverywhere : Intent :=
  { layers := [{ id := "a", name := "red", coloring := { primary := ⟨255, 0, 0, 0⟩ } }] }

/-- A prompt without clauses, then a design, which is composed and sent. -/
def redIsSent : List Operation :=
  [.take (.prompt ""), .take (.design redEverywhere), .compose .auto, .send]

/-- What is sent is red everywhere, and not what the prompt before it asked for. -/
theorem run_keeps_to_design_redIsSent :
    freshSession.IsNew ∧ freshSession.IsSized ∧ (∀ operation ∈ redIsSent, operation.IsWithin) ∧
      ∃ payload, (freshSession.run redIsSent).outgoing = .ok (some payload) ∧
        (freshSession.run redIsSent).IsPayloadOfDesign payload := by
  have isNew : freshSession.IsNew := ⟨rfl, rfl, rfl⟩
  have share : (Number.Binary64.finite 1).IsShare := ⟨1, rfl, by decide, by decide⟩
  have sized : freshSession.IsSized := ⟨by decide, share, share⟩
  have listed : redEverywhere.IsWithin (2 ^ 53) := by
    constructor
    · intro layer mem
      rw [redEverywhere, List.mem_singleton] at mem
      exact mem ▸ trivial
    · simp [redEverywhere]
  have within : ∀ operation ∈ redIsSent, operation.IsWithin := by
    intro operation mem
    simp only [redIsSent, List.mem_cons, List.not_mem_nil, or_false] at mem
    rcases mem with rfl | rfl | rfl | rfl
    · trivial
    · exact listed
    · trivial
    · trivial
  have sent : ((freshSession.run redIsSent).outgoing.map Option.isSome).toOption = some true := by
    decide +kernel
  rcases exists_ok_of_toOption sent with ⟨outgoing, isOutgoing, isSome⟩
  rcases Option.isSome_iff_exists.mp isSome with ⟨payload, rfl⟩
  rcases run_keeps_to_design isNew sized within with ⟨-, -, sends, -⟩
  exact ⟨isNew, sized, within, payload, isOutgoing, sends payload isOutgoing⟩

end Eaves.Session
