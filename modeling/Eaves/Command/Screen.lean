import Eaves.Command.Desk
import Eaves.Text.Search
import Eaves.Value.Json

/-!
# Plain text of what is shown

Marks for colours are dropped, tables are set in columns, and data is laid out one
member on a line.
-/

namespace Eaves.Command

/-- The marks for colours. -/
def colorMarks : List String :=
  ["[red]", "[/red]", "[green]", "[/green]", "[yellow]", "[/yellow]", "[bold]", "[/bold]"]

/-- A text without marks. -/
def withoutMarks (text : String) : String :=
  String.ofList (colorMarks.foldl (fun cs mark => Text.replace mark.toList [] cs) text.toList)

/-- The width of each column: that of its widest cell. -/
def columnWidths (lines : List (List String)) : List Nat :=
  lines.foldl
    (fun widths line =>
      line.mapIdx fun column cell => max (widths[column]?.getD 0) cell.length)
    []

/-- A line of cells, each filled up to the width of its column. -/
def tableLine (widths : List Nat) (cells : List String) : String :=
  "  ".intercalate (cells.mapIdx fun column cell =>
    cell ++ String.ofList (List.replicate (widths[column]?.getD 0 - cell.length) ' '))

/-- What is shown as plain text. -/
def Record.text : Record → String
  | .line text => withoutMarks text ++ "\n"
  | .journal text => text
  | .data value => Json.render { indented := true, asciiOnly := false } value ++ "\n"
  | .table title columns rows =>
      let lines := columns :: rows
      let widths := columnWidths lines
      "\n".intercalate (title :: lines.map (tableLine widths)) ++ "\n"

/-- How the command line is used. -/
def usage : String :=
  "usage: glowline [-h] --roofline ROOFLINE [--config CONFIG] [--store STORE] [-v]\n" ++
  "                \x7bparse,compile,send\x7d ...\n" ++
  "\n" ++
  "  parse [--json] PROMPT\n" ++
  "  compile [--answer QUESTION=OPTION] [--accept-recommended]\n" ++
  "          [--format \x7bauto,individual,segment\x7d] [--out OUT] [--save DESIGN_ID] PROMPT\n" ++
  "  send [--answer QUESTION=OPTION] [--accept-recommended]\n" ++
  "       [--format \x7bauto,individual,segment\x7d] [--host HOST] PROMPT\n"

end Eaves.Command
