import Eaves.Proofs.Session.OpenSpacing

/-!
# Calls that fail

A call of a session can fail for many reasons: a number leaves its range, an id or a
format is not known, a record cannot be read, the controller is not there.  Whatever
the reason, the open questions and the last composition are then what they were.  So
is the design, with one exception: a design that comes in is the session's as soon as
it has passed its checks, before its questions are asked, and where those cannot be
asked the session is left with the new design and the questions about the old one.

Within bounds there is no exception.  It takes a roofline with more lights than the
number format can count.
-/

namespace Eaves.Session

open Outcome

variable {session after : Session} {failure : Failure}

/-! ## Calls -/

/-- A call of a session.  A form of payload is asked for by its name, and what is sent, a given
composition or else the last, goes to a controller that may itself fail. -/
inductive Call where
  | take (source : Source)
  | compose (form : String)
  | save (repository : Repository) (id name : String)
  | send (given : Option Composition) (controller : Payload → Outcome Bool)

/-- A call that brings designs within bounds from outside, if any. -/
def Call.IsWithin : Call → Prop
  | .take source => source.IsWithin
  | _ => True

/-- The design that a source brings, before it is checked. -/
def brought (session : Session) : Source → Outcome Intent
  | .prompt text => session.understand text
  | .answers answers => session.answered answers
  | .design intent => .ok intent
  | .stored repository id => session.stored repository id

/-- Sends a composition, or else the last one: whether the controller accepted its payload. -/
def sent (session : Session) (given : Option Composition)
    (controller : Payload → Outcome Bool) : Outcome Bool := do
  match ← { session with last := given.or session.last }.outgoing with
  | some payload => controller payload
  | none => return false

/-- The session after a call, and why the call fails if it does. -/
def call (session : Session) : Call → SessionResult Unit
  | .take source => (session.take source).map id fun outcome => outcome.map fun _ => ()
  | .compose word =>
      match (Vocabulary.ofWord word : Outcome PayloadForm) with
      | .ok form => (session.compose form).map id fun outcome => outcome.map fun _ => ()
      | .error failure => (session, .error failure)
  | .save repository id name =>
      (session, (session.save repository id name).2.map fun _ => ())
  | .send given controller => (session, (session.sent given controller).map fun _ => ())

theorem take_eq (session : Session) (source : Source) :
    session.take source = match session.brought source with
      | .ok intent => session.adopt intent
      | .error failure => (session, .error failure) := by
  cases source with
  | prompt text =>
      cases brings : session.understand text <;> simp only [take, parse, brought, brings]
  | answers answers =>
      cases brings : session.answered answers <;> simp only [take, answer, brought, brings]
  | design intent => rfl
  | stored repository id =>
      cases brings : session.stored repository id <;> simp only [take, load, brought, brings]

/-! ## Designs that are taken in by half -/

/-- The call brings a design that passes its checks, and whose questions cannot be asked. -/
def TakesHalf (session : Session) (call : Call) (checked : Intent) (failure : Failure) : Prop :=
  ∃ source intent, call = .take source ∧ session.brought source = .ok intent ∧
    session.withRaised intent = .ok checked ∧
    ask checked.ambiguities (session.subject checked) = .error failure

/-- Where taking a design in fails, either the checks fail and nothing is changed, or its questions
cannot be asked. -/
theorem adopt_eq_error {intent : Intent} (failed : session.adopt intent = (after, .error failure)) :
    after = session ∨ ∃ checked, session.withRaised intent = .ok checked ∧
      ask checked.ambiguities (session.subject checked) = .error failure ∧
      after = { session with intent := some checked } := by
  unfold adopt at failed
  cases raises : session.withRaised intent with
  | error cause =>
      rw [raises] at failed
      cases failed
      exact .inl rfl
  | ok checked =>
      rw [raises] at failed
      dsimp only at failed
      cases asked : ask checked.ambiguities (session.subject checked) with
      | ok questions =>
          rw [asked] at failed
          cases failed
      | error cause =>
          rw [asked] at failed
          cases failed
          exact .inr ⟨checked, rfl, asked, rfl⟩

/-- A design whose questions cannot be asked is taken in by half, and the call fails. -/
theorem TakesHalf.call_eq {call : Call} {checked : Intent}
    (half : session.TakesHalf call checked failure) :
    session.call call = ({ session with intent := some checked }, .error failure) := by
  rcases half with ⟨source, intent, rfl, isBrought, raises, unasked⟩
  simp only [Session.call, take_eq, isBrought, adopt, raises, unasked]
  rfl

/-- Whether a prompt is taken in by half does not depend on the design that was there before. -/
theorem takesHalf_holding {text : String} {intent checked : Intent} (held : Intent)
    (questions : List Question) (understood : session.understand text = .ok intent)
    (raises : session.withRaised intent = .ok checked)
    (unasked : ask checked.ambiguities (session.subject checked) = .error failure) :
    (session.holding held questions).TakesHalf (.take (.prompt text)) checked failure :=
  ⟨.prompt text, intent, rfl, understood, raises, unasked⟩

/-- What a failing call leaves behind: the session as it was, or with a design that was taken in by
half. -/
theorem failed_call_cases {call : Call} (failed : session.call call = (after, .error failure)) :
    after = session ∨
      ∃ checked, session.TakesHalf call checked failure ∧
        after = { session with intent := some checked } := by
  cases call with
  | take source =>
      rw [Session.call, take_eq] at failed
      cases isBrought : session.brought source with
      | error cause =>
          rw [isBrought] at failed
          cases failed
          exact .inl rfl
      | ok intent =>
          rw [isBrought] at failed
          rcases taken : session.adopt intent with ⟨next, outcome⟩
          dsimp only at failed
          rw [taken] at failed
          cases outcome with
          | ok checked => cases failed
          | error cause =>
              cases failed
              rcases adopt_eq_error taken with same | ⟨checked, raises, unasked, half⟩
              · exact .inl same
              · exact .inr ⟨checked, ⟨source, intent, rfl, isBrought, raises, unasked⟩, half⟩
  | compose word =>
      rw [Session.call] at failed
      cases isForm : (Vocabulary.ofWord word : Outcome PayloadForm) with
      | error cause =>
          rw [isForm] at failed
          cases failed
          exact .inl rfl
      | ok form =>
          rw [isForm] at failed
          cases made : session.composed form with
          | ok result =>
              simp only [compose, made] at failed
              cases failed
          | error cause =>
              simp only [compose, made] at failed
              cases failed
              exact .inl rfl
  | save repository id name => exact .inl (congrArg Prod.fst failed).symm
  | send given controller => exact .inl (congrArg Prod.fst failed).symm

/-- Within bounds no design is taken in by half. -/
theorem not_takesHalf (sized : session.IsSized) (standing : session.Standing) {call : Call}
    (within : call.IsWithin) (checked : Intent) : ¬session.TakesHalf call checked failure := by
  rintro ⟨source, intent, rfl, isBrought, raises, unasked⟩
  have intentWithin : intent.IsWithin (2 ^ 120) := by
    cases source with
    | prompt text => exact isWithin_understand isBrought
    | answers answers => exact isWithin_answered standing within isBrought
    | design own =>
        cases isBrought
        have fromOutside : intent.IsWithin (2 ^ 53) := within
        exact fromOutside.mono (by norm_num)
    | stored repository id => exact isWithin_stored within isBrought
  rcases took_adopt sized intentWithin with ⟨⟨taken, success⟩, -⟩
  simp only [adopt, raises, unasked] at success
  cases success

/-- A call that fails leaves the open questions and the last composition as they were.  It leaves
the design as it was, too, unless it brought one whose questions cannot be asked: then that one is
the session's.  In a session whose questions stand, on a roofline and with settings for which
everything can be counted, a call within bounds that fails leaves everything as it was. -/
theorem failed_call_keeps_session {call : Call}
    (failed : session.call call = (after, .error failure)) :
    after.questions = session.questions ∧ after.last = session.last ∧
      ((∀ checked, ¬session.TakesHalf call checked failure) → after = session) ∧
      (∀ checked, session.TakesHalf call checked failure → after.intent = some checked) ∧
      (session.IsSized → session.Standing → call.IsWithin → after = session) := by
  have whole : (∀ checked, ¬session.TakesHalf call checked failure) → after = session := by
    intro never
    rcases failed_call_cases failed with same | ⟨checked, half, -⟩
    · exact same
    · exact absurd half (never checked)
  refine ⟨?_, ?_, whole, ?_, ?_⟩
  · rcases failed_call_cases failed with rfl | ⟨checked, -, rfl⟩ <;> rfl
  · rcases failed_call_cases failed with rfl | ⟨checked, -, rfl⟩ <;> rfl
  · intro checked half
    rw [half.call_eq] at failed
    cases failed
    rfl
  · intro sized standing within
    exact whole (not_takesHalf sized standing within)

/-- A design that nobody kept is not found. -/
theorem call_notKept (session : Session) (id : String) :
    session.call (.take (.stored (.memory {}) id)) = (session, .error (.unknownDesign id)) :=
  rfl

/-- Seven lights are asked for on the peaks, and then a design that nobody kept. -/
theorem failed_call_keeps_session_notKept :
    (peakSession.run [.take (.prompt sevenOnPeaks)]).IsSized ∧
      (peakSession.run [.take (.prompt sevenOnPeaks)]).Standing ∧
      (Call.take (.stored (.memory {}) "porch")).IsWithin ∧
      ∃ after, (peakSession.run [.take (.prompt sevenOnPeaks)]).call
          (.take (.stored (.memory {}) "porch")) = (after, .error (.unknownDesign "porch")) ∧
        after = peakSession.run [.take (.prompt sevenOnPeaks)] := by
  have isNew : peakSession.IsNew := ⟨rfl, rfl, rfl⟩
  have prompted : ∀ operation ∈ [Operation.take (.prompt sevenOnPeaks)], operation.IsWithin := by
    intro operation mem
    rw [List.mem_singleton.mp mem]
    trivial
  obtain ⟨sized, standing⟩ :=
    isNew.standing.run ⟨by decide, CheckSettings.hasShares_usual⟩ prompted
  have within : (Call.take (.stored (.memory {}) "porch")).IsWithin := by
    intro userId design isKept
    cases isKept
  have failed := call_notKept (peakSession.run [.take (.prompt sevenOnPeaks)]) "porch"
  obtain ⟨-, -, -, -, same⟩ := failed_call_keeps_session failed
  exact ⟨sized, standing, within, _, failed, same sized standing within⟩

/-! ## A strip too long to count -/

/-- A new session on one run of more lights than the number format can count. -/
def longSession : Session where
  roofline := {
    segments := Roofline.placeFrom 0 0 [
      { id := "a", name := "A", pixelCount := 10 ^ 309 }] }

/-- Two prompts: the design of each as it is taken in, what is asked about the first, and why
nothing can be asked about the second. -/
structure LongTrial where
  red : Intent
  questions : List Question
  chase : Intent
  refusal : Option Failure

/-- A prompt for the whole strip, and one for a side that it does not have. -/
def longTrial : Outcome LongTrial := do
  let red ← longSession.withRaised (← longSession.understand "red")
  let questions ← askFrom (longSession.subject red) 0 red.ambiguities
  let chase ← longSession.withRaised (← longSession.understand "chase on the corners")
  let refusal := failure? (askFrom (longSession.subject chase) 0 chase.ambiguities)
  return { red, questions, chase, refusal }

/-- What is seen of the two prompts. -/
def LongTrial.view (trial : LongTrial) : String × List QuestionKind × String × Option Failure :=
  (trial.red.prompt, trial.questions.map Question.kind, trial.chase.prompt, trial.refusal)

theorem view_longTrial : (longTrial.map LongTrial.view).toOption = some
    ("red", [.color], "chase on the corners", some (.number .integerTooLarge)) := by
  decide +kernel

/-- The strip has no corners, so how many lights they have is a share of all, which cannot be
counted: what the second prompt asks for is the session's design, with the question about the
first one. -/
theorem failed_prompt_replaces_design :
    longSession.IsNew ∧
      ∃ before red after, longSession.parse "red" = (before, .ok red) ∧
        before.intent = some red ∧ red.prompt = "red" ∧
        before.call (.take (.prompt "chase on the corners")) =
          (after, .error (.number .integerTooLarge)) ∧
        after.intent ≠ before.intent ∧ after.questions = before.questions ∧
        after.questions ≠ [] := by
  obtain ⟨trial, isTrial, fields⟩ := exists_ok_of_toOption view_longTrial
  rcases bind_eq_ok_iff.mp isTrial with ⟨redDesign, understoodRed, rest⟩
  rcases bind_eq_ok_iff.mp rest with ⟨red, raisesRed, rest⟩
  rcases bind_eq_ok_iff.mp rest with ⟨questions, askedRed, rest⟩
  rcases bind_eq_ok_iff.mp rest with ⟨chaseDesign, understoodChase, rest⟩
  rcases bind_eq_ok_iff.mp rest with ⟨chase, raisesChase, shape⟩
  rw [pure_eq_ok_iff] at shape
  subst shape
  simp only [LongTrial.view, Prod.mk.injEq] at fields
  rcases fields with ⟨redPrompt, kinds, chasePrompt, refused⟩
  obtain ⟨question, rfl⟩ : ∃ question, questions = [question] := by
    rw [← List.length_eq_one_iff, ← List.length_map Question.kind, kinds]
    rfl
  have adopted := adopt_of_askFrom raisesRed askedRed (List.pairwise_singleton _ _)
  have unasked : ask chase.ambiguities (longSession.subject chase) =
      .error (.number .integerTooLarge) := ask_eq_error refused
  have half := takesHalf_holding red [question] understoodChase raisesChase unasked
  refine ⟨⟨rfl, rfl, rfl⟩, longSession.holding red [question], red, _, ?_, rfl, redPrompt,
    half.call_eq, ?_, rfl, List.cons_ne_nil _ _⟩
  · rw [parse, understoodRed]
    exact adopted
  · intro sameIntent
    have samePrompt := congrArg (Option.map Intent.prompt) sameIntent
    rw [holding, Option.map_some, Option.map_some, chasePrompt, redPrompt] at samePrompt
    revert samePrompt
    decide

end Eaves.Session
