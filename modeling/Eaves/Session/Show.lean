import Eaves.Session.Basic

/-!
# Showing a session's design

A session composes its design in one of three forms of payload, and delivers the
payload of the last composition.
-/

namespace Eaves

/-- The forms of payload a composition may ask for. -/
inductive PayloadForm where
  /-- An effect where a layer runs one, every light otherwise. -/
  | auto
  | individual
  | segment
  deriving DecidableEq, Repr

instance : Vocabulary PayloadForm where
  title := "PayloadFormat"
  members := [.auto, .individual, .segment]
  word
    | .auto => "auto"
    | .individual => "individual"
    | .segment => "segment"

namespace Composition

/-- How the effect of a design is run: by its leading motion, or standing still. -/
def leadingRun (intent : Intent) : Payload.EffectRun :=
  match leadingMotion intent with
  | some motion => runOf motion
  | none => ⟨Effect.solid.id, 128, 128, none⟩

/-- The payload of a form for groups; none where the form is left to the composition. -/
def formed? (form : PayloadForm) (groups : List Group) (intent : Intent) (total : Nat)
    (rgbw : Bool) : Option Payload :=
  match form with
  | .auto => none
  | .individual => some (payloadFor groups intent none total rgbw)
  | .segment => some (effectPayload groups intent.settings (leadingRun intent) total rgbw)

/-- A composition with its payload in a form; one that shows nothing stays as it is. -/
def inForm (composition : Composition) (form : PayloadForm) (intent : Intent) (total : Nat)
    (rgbw : Bool) : Composition :=
  if composition.success then
    match formed? form composition.groups intent total rgbw with
    | some payload => { composition with payload := some payload }
    | none => composition
  else composition

end Composition

namespace Session

/-- The composition of the design in a form. -/
def composed (session : Session) (form : PayloadForm) : Outcome Composition := do
  let intent ← session.design
  let rgbw := session.settings.device.rgbw
  let result ← Composition.compose intent session.roofline rgbw
  return result.inForm form intent session.roofline.total rgbw

/-- Composes the design in a form, and keeps the result as the last one. -/
def compose (session : Session) (form : PayloadForm) : SessionResult Composition :=
  match session.composed form with
  | .ok result => ({ session with last := some result }, .ok result)
  | .error failure => (session, .error failure)

/-- The payload that sending delivers: that of the last composition, if it shows something. -/
def outgoing (session : Session) : Outcome (Option Payload) :=
  if session.attached then
    .ok (session.last.bind fun result => if result.success then result.payload else none)
  else .error .noTransport

end Session

end Eaves
