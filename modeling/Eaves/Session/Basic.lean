import Eaves.Answer.Settle
import Eaves.Check.Design
import Eaves.Pixels.Compose
import Eaves.Prompt.Parse
import Eaves.Question.Ask

/-!
# Sessions

A session takes one prompt from text to light on one roofline.  It holds the design
as understood so far, the questions that are open about it, and the last composition
of it.  A design that comes in is checked, flags the checks raise are added to its
own, and its questions are asked anew; the last composition then counts for nothing.

Every operation gives the session after it, also where it fails.
-/

namespace Eaves

/-- The state of one prompt's way from text to light. -/
structure Session where
  roofline : Roofline
  settings : AppSettings := {}
  userId : String := "local"
  /-- Whether a controller is attached. -/
  attached : Bool := false
  intent : Option Intent := none
  questions : List Question := []
  last : Option Composition := none
  deriving Repr

/-- What an operation gives, and the session after it. -/
abbrev SessionResult (α : Type) := Session × Outcome α

/-- Whether two flags are about the same layer and kind. -/
def Ambiguity.sameMatter (a b : Ambiguity) : Bool :=
  a.kind == b.kind && a.layerId == b.layerId

/-- Flags with others added: one is added only where none is open for its layer and kind. -/
def mergeFlags (present : List Ambiguity) : List Ambiguity → List Ambiguity
  | [] => present
  | raised :: rest =>
      if present.any raised.sameMatter then mergeFlags present rest
      else mergeFlags (present ++ [raised]) rest

namespace Session

/-- The design, if there is one. -/
def design (session : Session) : Outcome Intent :=
  match session.intent with
  | some intent => .ok intent
  | none => .error .noDesign

/-- Whether there is a design with nothing left open. -/
def isReady (session : Session) : Bool :=
  match session.intent with
  | some intent => intent.ambiguities.isEmpty
  | none => false

/-- What questions about a design are asked about. -/
def subject (session : Session) (intent : Intent) : Subject :=
  ⟨intent, some session.roofline, session.settings.checks⟩

/-- A design with the flags that the checks raise added to its own. -/
def withRaised (session : Session) (intent : Intent) : Outcome Intent := do
  let validation ← Check.validate intent session.roofline session.settings.checks
  return { intent with ambiguities := mergeFlags intent.ambiguities validation.flags }

/-- Takes a design in: it is checked, and its questions are asked.  A design whose questions
cannot be asked is already the session's. -/
def adopt (session : Session) (intent : Intent) : SessionResult Intent :=
  match session.withRaised intent with
  | .error failure => (session, .error failure)
  | .ok intent =>
      match ask intent.ambiguities (session.subject intent) with
      | .error failure => ({ session with intent := some intent }, .error failure)
      | .ok questions =>
          ({ session with intent := some intent, questions := questions, last := none },
            .ok intent)

/-- What a prompt asks for, at the brightness of the device. -/
def understand (session : Session) (text : String) : Outcome Intent := do
  let intent ← Prompt.parse text (some session.roofline) session.settings.parsing
  return { intent with
    settings := { intent.settings with brightness := session.settings.device.brightness } }

/-- Takes in what a prompt asks for. -/
def parse (session : Session) (text : String) : SessionResult Intent :=
  match session.understand text with
  | .ok intent => session.adopt intent
  | .error failure => (session, .error failure)

/-- The checks of the design. -/
def validate (session : Session) : Outcome Validation := do
  Check.validate (← session.design) session.roofline session.settings.checks

/-- The design with answers applied to the open questions. -/
def answered (session : Session) (answers : Answers) : Outcome Intent := do
  (← session.design).settle answers session.questions

/-- Takes in the design with answers applied. -/
def answer (session : Session) (answers : Answers) : SessionResult Intent :=
  match session.answered answers with
  | .ok intent => session.adopt intent
  | .error failure => (session, .error failure)

/-- The recommended option of every open question. -/
def recommendations (session : Session) : Answers :=
  session.questions.filterMap fun question =>
    question.recommended?.map fun offer => (question.id, .own offer)

end Session

end Eaves
