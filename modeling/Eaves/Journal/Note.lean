import Eaves.Files.Path
import Eaves.Journal.Filling
import Eaves.Journal.Instant

/-!
# Notes

A note says that something happened: how grave it is, which part of the program says
so, when, and in what words.  It is written as one line of text by a layout, or as an
object with everything that is known about it.
-/

namespace Eaves.Journal

open Number (Binary64)

/-- How grave a note is; named levels are tens, others lie between them. -/
abbrev Gravity := Int

namespace Gravity

/-- The levels that have a name, each with the name it is shown by. -/
def names : List (Gravity × String) := [
  (50, "CRITICAL"), (40, "ERROR"), (30, "WARNING"), (20, "INFO"), (10, "DEBUG"), (0, "NOTSET")]

/-- The name of a level. -/
def name (gravity : Gravity) : String :=
  (names.lookup gravity).getD ("Level " ++ toString gravity)

/-- Of interest only in a search for faults. -/
def debug : Gravity := 10

/-- The usual course of things. -/
def info : Gravity := 20

/-- Something is not as it should be. -/
def warning : Gravity := 30

/-- The names that a level is set by, besides those that levels are shown by. -/
def otherNames : List (String × Gravity) := [("FATAL", 50), ("WARN", 30)]

/-- The level with a name. -/
def ofName? (name : String) : Option Gravity :=
  ((names.map Prod.swap) ++ otherNames).lookup name

end Gravity

/-- A mistake that a note reports: its kind and its text. -/
structure Mistake where
  kind : String
  text : String
  deriving DecidableEq, Repr

/-- The trace of a mistake; a mistake without text is its kind alone. -/
def Mistake.trace (mistake : Mistake) : String :=
  if mistake.text.isEmpty then mistake.kind else mistake.kind ++ ": " ++ mistake.text

/-- A note. -/
structure Note where
  gravity : Gravity
  /-- The part of the program that speaks. -/
  speaker : String
  text : String
  arguments : List Value := []
  /-- When it was made, in seconds from the start of 1970. -/
  created : Binary64 := .finite 0
  /-- The file, function and line that speak. -/
  path : String := ""
  function : Option String := none
  line : Int := 0
  mistake : Option Mistake := none
  extras : Entries := []
  deriving Repr

namespace Note

/-- The words of a note. -/
def words (note : Note) : Outcome String :=
  message note.text note.arguments

/-- The name of the file that speaks, without its ending. -/
def moduleName (note : Note) : String :=
  let cs := note.path.toList
  let name := (cs.reverse.takeWhile (· ≠ '/')).reverse
  let unmarked := name.dropWhile (· = '.')
  if unmarked.contains '.' then
    String.ofList ((name.reverse.dropWhile (· ≠ '.')).drop 1).reverse
  else String.ofList name

/-- The instant of a note. -/
def instant (note : Note) : Outcome Instant :=
  liftNumber (Instant.ofSeconds note.created)

/-! ## As an object -/

/-- The names that a note's own properties go by; extras under them are passed over. -/
def reserved : List String := [
  "name", "msg", "args", "created", "filename", "funcName", "levelname", "levelno", "lineno",
  "module", "msecs", "message", "pathname", "process", "processName", "relativeCreated",
  "thread", "threadName", "exc_info", "exc_text", "stack_info", "taskName"]

/-- Whether an extra is shown: its name is neither reserved nor marked as private. -/
def isShown (name : String) : Bool :=
  !reserved.contains name && name.toList.head? ≠ some '_'

/-- A mistake's entries. -/
def mistakeEntries (mistake : Mistake) : Entries :=
  [("error_type", .text mistake.kind), ("error_message", .text mistake.text),
    ("stack_trace", .text mistake.trace)]

/-- What surrounds a note. -/
def context (note : Note) : Entries :=
  let own : Entries :=
    [("logger_name", .text note.speaker), ("module", .text note.moduleName),
      ("function", .ofText? note.function), ("line", .int note.line)] ++
      (note.mistake.map mistakeEntries).getD []
  note.extras.foldl
    (fun entries extra =>
      if isShown extra.1 then Entries.put entries extra.1 extra.2.told else entries)
    own

/-- A note as an object. -/
def toValue (note : Note) : Outcome Value := do
  let words ← note.words
  let stamp ← (← note.instant).stamp
  return .object [("level", .text note.gravity.name), ("message", .text words),
    ("timestamp", .text stamp), ("context", .object note.context)]

/-! ## As a line -/

/-- The properties of a note that a layout may name. -/
def properties (note : Note) : Outcome Entries := do
  let words ← note.words
  let instant ← note.instant
  return [("name", .text note.speaker), ("levelname", .text note.gravity.name),
    ("levelno", .int note.gravity), ("message", .text words), ("msg", .text note.text),
    ("module", .text note.moduleName), ("pathname", .text note.path),
    ("filename", .text (Path.ofText note.path).name), ("funcName", .ofText? note.function),
    ("lineno", .int note.line), ("created", .float note.created),
    ("asctime", .text instant.line), ("exc_info", .null), ("exc_text", .null),
    ("stack_info", .null), ("taskName", .null), ("processName", .text "MainProcess"),
    ("threadName", .text "MainThread")] ++ note.extras

/-- A note laid out as text, with the trace of its mistake below. -/
def layOut (note : Note) (layout : String) : Outcome String := do
  let text ← fill layout (.keyed (← note.properties))
  match note.mistake with
  | none => return text
  | some mistake =>
      return text ++ (if text.toList.getLast? = some '\n' then "" else "\n") ++ mistake.trace

end Note

end Eaves.Journal
