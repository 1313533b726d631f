import Eaves.Session.Basic
import Eaves.Store.Repository

/-!
# Keeping a session's design

A session saves its design with the payload of the last composition, and takes a
saved design in again.
-/

namespace Eaves.Session

/-- The ids of a record; an empty one is a problem. -/
def checkIds (id userId : String) : Checked Unit :=
  let check (field value : String) : Checked Unit :=
    if value.isEmpty then (Checked.fail .stringTooShort).under field else .valid ()
  (check "id" id).guardedBy (check "user_id" userId)

/-- The record that saving the design under an id keeps; without a name it is named by its
prompt. -/
def record (session : Session) (id name : String) : Outcome SavedDesign := do
  let intent ← session.design
  (checkIds id session.userId).toOutcome
  return {
    id := id
    userId := session.userId
    name := if name.isEmpty then intent.prompt else name
    intent := intent
    rooflineId := some session.roofline.id
    payload := (session.last.bind Composition.payload).map Payload.toEntries }

/-- Saves the design under an id. -/
def save (session : Session) (repository : Repository) (id name : String) :
    Repository × Outcome SavedDesign :=
  match session.record id name with
  | .error failure => (repository, .error failure)
  | .ok design =>
      let (repository, outcome) := repository.save design
      (repository, outcome.map fun _ => design)

/-- The design that is saved under an id. -/
def stored (session : Session) (repository : Repository) (id : String) : Outcome Intent := do
  match ← repository.load session.userId id with
  | some design => return design.intent
  | none => throw (.unknownDesign id)

/-- Takes in the design that is saved under an id. -/
def load (session : Session) (repository : Repository) (id : String) : SessionResult Intent :=
  match session.stored repository id with
  | .ok intent => session.adopt intent
  | .error failure => (session, .error failure)

end Eaves.Session
