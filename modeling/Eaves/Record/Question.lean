import Eaves.Question.Basic
import Eaves.Record.Selector

/-!
# Questions and options in data
-/

namespace Eaves

open Reader

/-- Reads an option. -/
def Offer.read : Reader Offer :=
  strictRecord ["id", "label", "description", "icon", "is_recommended", "value",
      "preview_payload", "color_swatches"] fun es =>
    Offer.mk <$> required es "id" text <*> required es "label" text <*>
      defaulted es "description" "" text <*> defaulted es "icon" none (nullable text) <*>
      defaulted es "is_recommended" false bool <*> defaulted es "value" .null any <*>
      defaulted es "preview_payload" none (nullable entries) <*>
      defaulted es "color_swatches" none (nullable (list Color.read))

/-- An option as data. -/
def Offer.toValue (offer : Offer) : Value :=
  .object [("id", .text offer.id), ("label", .text offer.label),
    ("description", .text offer.description), ("icon", .ofText? offer.icon),
    ("is_recommended", .bool offer.recommended), ("value", offer.value),
    ("preview_payload", .ofOption .object offer.preview),
    ("color_swatches",
      .ofOption (fun swatches => .list (swatches.map Color.toValue)) offer.swatches)]

/-- Reads a question. -/
def Question.read : Reader Question :=
  strictRecord ["id", "type", "question", "options", "is_required", "source_text",
      "affected_layer_id", "context"] fun es =>
    Question.mk <$> required es "id" text <*> required es "type" word <*>
      required es "question" text <*> required es "options" (listUpTo maxOptions Offer.read) <*>
      defaulted es "is_required" true bool <*> defaulted es "source_text" "" text <*>
      defaulted es "affected_layer_id" none (nullable text) <*>
      defaulted es "context" [] entries

/-- A question as data. -/
def Question.toValue (question : Question) : Value :=
  .object [("id", .text question.id), ("type", .ofWord question.kind),
    ("question", .text question.wording),
    ("options", .list (question.offers.map Offer.toValue)),
    ("is_required", .bool question.mandatory), ("source_text", .text question.source),
    ("affected_layer_id", .ofText? question.layerId), ("context", .object question.context)]

end Eaves
