import Eaves.Answer.Settle
import Eaves.Check.Verdict
import Eaves.Pixels.Compose
import Eaves.Record.Design
import Eaves.Record.Question

/-!
# Answers and results in data

Answers come in under the ids of questions; verdicts and compositions go out.  Groups
are written in a short form: the first light, the last one, and the channels.
-/

namespace Eaves

/-! ## Answers -/

/-- Reads an answer: the id of an option, an option, or nothing. -/
def Answer.read? : Value → Outcome (Option Answer)
  | .null => .ok none
  | .text id => .ok (some (.chosen id))
  | data => (Offer.read data).toOutcome.map fun offer => some (.own offer)

/-- Reads the answers in entries. -/
def Answers.read : Entries → Outcome Answers
  | [] => .ok []
  | (id, data) :: rest => do
      let answer ← Answer.read? data
      let answers ← Answers.read rest
      return (answer.map fun answer => (id, answer)).toList ++ answers

/-! ## Checks -/

/-- A suggestion as data. -/
def Suggestion.toValue (suggestion : Suggestion) : Value :=
  .object [("id", .text suggestion.id), ("label", .text suggestion.label),
    ("description", .text suggestion.description),
    ("deviation_score", .float suggestion.deviation), ("value", suggestion.value)]

/-- A verdict as data. -/
def Verdict.toValue (verdict : Verdict) : Value :=
  .object [("type", .ofWord verdict.kind), ("description", .text verdict.description),
    ("is_satisfied", .bool verdict.satisfied), ("failure_reason", .ofText? verdict.reason),
    ("alternatives", .list (verdict.suggestions.map Suggestion.toValue)),
    ("layer_id", .ofText? verdict.layerId)]

/-- A validation as data, with the positions of the checks that failed. -/
def Validation.toValue (validation : Validation) : Value :=
  let failed := validation.verdicts.zipIdx.filter fun verdict => !verdict.1.satisfied
  .object [("constraints", .list (validation.verdicts.map Verdict.toValue)),
    ("ambiguities", .list (validation.flags.map Ambiguity.toValue)),
    ("all_satisfied", .bool validation.allSatisfied),
    ("failed", .ofInts (failed.map fun verdict => (verdict.2 : Int)))]

/-! ## Compositions -/

/-- A group in its short form. -/
def Group.row (group : Group) : Value :=
  .ofInts ((group.first : Int) :: (group.last : Int) :: group.color.rgbw)

/-- Groups in their short form. -/
def Group.rows (groups : List Group) : Value :=
  .list (groups.map Group.row)

/-- A payload as data. -/
def Payload.toValue (payload : Payload) : Value :=
  .object payload.toEntries

/-- A composition as data. -/
def Composition.toValue (composition : Composition) : Value :=
  .object [("success", .bool composition.success), ("groups", Group.rows composition.groups),
    ("payload", .ofOption Payload.toValue composition.payload),
    ("warnings", .list (composition.warnings.map .text)),
    ("error", .ofText? composition.error),
    ("suggestions", .list (composition.suggestions.map .text)),
    ("recommend_manual", .bool composition.recommendManual)]

end Eaves
