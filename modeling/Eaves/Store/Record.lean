import Eaves.Record.Design
import Eaves.Value.Json

/-!
# Saved designs

A design as it is kept: under an id, for a user, with the payload it was last shown
by.  A record is written as a document and read back; what it held as terms of the
domain comes back as plain data.
-/

namespace Eaves

/-- A design as it is kept. -/
structure SavedDesign where
  id : String
  userId : String
  name : String := ""
  intent : Intent
  rooflineId : Option String := none
  payload : Option Entries := none
  deriving Repr

namespace SavedDesign

open Reader

/-- Reads a saved design. -/
def read : Reader SavedDesign :=
  strictRecord ["id", "user_id", "name", "intent", "roofline_id", "payload", "saved_at"] fun es =>
    (fun id userId name intent rooflineId payload (_ : Unit) =>
        SavedDesign.mk id userId name intent rooflineId payload) <$>
      required es "id" nonEmptyText <*> required es "user_id" nonEmptyText <*>
      defaulted es "name" "" text <*> required es "intent" Intent.read <*>
      defaulted es "roofline_id" none (nullable text) <*>
      defaulted es "payload" none (nullable entries) <*> defaulted es "saved_at" () Time.read

/-- A saved design as data. -/
def toValue (design : SavedDesign) : Value :=
  .object [("id", .text design.id), ("user_id", .text design.userId), ("name", .text design.name),
    ("intent", design.intent.toValue), ("roofline_id", .ofText? design.rooflineId),
    ("payload", .ofOption .object design.payload)]

/-- How records are laid out. -/
def style : Json.Style := ⟨true, false, true⟩

/-- A saved design as a document. -/
def document (design : SavedDesign) : String :=
  Json.render style design.toValue

/-- The saved design that a document holds, when it holds a valid one; whole numbers have at
most as many digits as numbers are read with. -/
def ofDocument? (text : String) : Option SavedDesign := do
  let value ← Json.parse? text
  if value.wholes.all fun n => decide (n.natAbs < Number.tenTo Text.digitLimit) then
    (read value).toOption
  else none

end SavedDesign

end Eaves
