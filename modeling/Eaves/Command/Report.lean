import Eaves.Command.Desk
import Eaves.Design.Intent
import Eaves.Question.Basic

/-!
# What commands show

A design as a table, questions with their options, and mistakes.  A mistake is one
line: what follows a line break is left out, and so are the details of records and
documents that cannot be read; the mark of a line whose end is left out stays open.
-/

namespace Eaves.Command

/-! ## Mistakes -/

/-- A text up to its first line break. -/
def firstLine (text : String) : String :=
  String.ofList (text.toList.takeWhile (· ≠ '\n'))

/-- The line of a mistake. -/
def mistakeLine (text : String) : String :=
  firstLine ("[red]ERROR: " ++ text ++ "[/red]")

/-- The line of a mistake whose details are left out. -/
def openMistakeLine (text : String) : String :=
  firstLine ("[red]ERROR: " ++ text)

/-- How many problems a record has. -/
def problemCount (record : String) (count : Nat) : String :=
  toString count ++ " validation error" ++ (if count = 1 then "" else "s") ++ " for " ++ record

/-- The line of a stop. -/
def Stop.line (stop : Stop) : String :=
  match stop.failure with
  | .invalid problems => openMistakeLine (problemCount stop.record problems.length)
  | .invalidDocument format path =>
      openMistakeLine (Failure.message (.invalidDocument format path))
  | failure => mistakeLine failure.message

/-- Whether a failure is one that a user is told about; others are faults of the program or of
its surroundings. -/
def isForUser : Failure → Bool
  | .number .wholeOfNaN => true
  | .number _ => false
  | .file (.absent _) => true
  | .file _ | .address _ | .noPosition => false
  | .unknownDesign _ | .wrongConfig _ | .logArguments _ | .noLogArgument _ => false
  | _ => true

/-! ## Designs -/

/-- The columns of a design. -/
def designColumns : List String := ["Layer", "Zone", "Colour", "Spacing", "Motion"]

/-- What stands where a layer has nothing to say. -/
def absence : String := "-"

/-- A motion as a cell. -/
def motionCell (motion : Motion) : String :=
  Vocabulary.word motion.kind ++ " " ++ Vocabulary.word motion.direction

/-- A layer as a row. -/
def layerRow (layer : Layer) : List String := [
  layer.name,
  layer.zone.description,
  layer.coloring.primaryName ++ " (" ++ layer.coloring.primary.toHex ++ ")",
  (layer.coloring.spacing.map Spacing.description).getD absence,
  (layer.motion.map motionCell).getD absence]

/-- A design as a table. -/
def designTable (intent : Intent) : Record :=
  .table ("Design (" ++ intent.confidence.percent ++ " confidence)") designColumns
    (intent.layers.map layerRow)

/-! ## Questions -/

/-- The line of an option; a recommended one is marked. -/
def offerLine (offer : Offer) : String :=
  "  " ++ (if offer.recommended then "[green]*[/green]" else " ") ++ " " ++ offer.id ++ ": " ++
    offer.label

/-- The lines of a question. -/
def questionLines (question : Question) : List String :=
  ("\n[bold]" ++ question.id ++ "[/bold]: " ++ question.wording) ::
    question.offers.map offerLine

end Eaves.Command
