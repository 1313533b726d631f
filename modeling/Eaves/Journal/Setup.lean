import Eaves.Journal.Note
import Eaves.Settings.Basic
import Eaves.Value.Json

/-!
# Setting up the journal

Settings say how grave a note has to be to be written, in which form, and where to.
There is one place that notes go to.  The speakers of the network are kept quiet
below warnings, whatever the settings say.
-/

namespace Eaves.Journal

/-- How notes are written. -/
inductive Form where
  /-- One line of text by a layout. -/
  | text (layout : String)
  /-- One object. -/
  | structured
  deriving DecidableEq, Repr

/-- Where notes go to and how they are written. -/
structure Outlet where
  /-- The name of a file; none means the standard output. -/
  file : Option String
  form : Form
  deriving DecidableEq, Repr

/-- A journal that is set up. -/
structure Setup where
  /-- The least gravity that is written. -/
  level : Gravity
  outlets : List Outlet
  /-- Speakers with a least gravity of their own. -/
  quiet : List (String × Gravity)
  deriving DecidableEq, Repr

namespace Setup

/-- A character of a level's name in its capital form. -/
def capital (c : Char) : Char :=
  if c = 'ı' then 'I' else if c = 'ſ' then 'S' else c.toUpper

/-- The level that a name in small or capital letters stands for. -/
def level? (name : String) : Option Gravity :=
  Gravity.ofName? (String.ofList (name.toList.map capital))

/-- The layout where none is given. -/
def usualLayout : String :=
  ({} : LogSettings).format

/-- A layout for text; it has to name a property, and an empty one stands for the usual one. -/
def layout (given : String) : Outcome String :=
  if given.isEmpty then .ok usualLayout
  else if Template.hasKeyed given.toList then .ok given
  else .error (.logTemplate ("Invalid format '" ++ given ++ "' for '%' style"))

/-- The speakers that are kept quiet. -/
def quietSpeakers : List (String × Gravity) :=
  [("httpx", .warning), ("httpcore", .warning)]

/-- The form that settings say. -/
def form (settings : LogSettings) : Outcome Form :=
  if settings.structured then .ok .structured else (layout settings.format).map .text

/-- The file that settings say; an empty name stands for none. -/
def file (settings : LogSettings) : Option String :=
  settings.filename.filter fun name => !name.isEmpty

/-- The level that settings say. -/
def leastGravity (settings : LogSettings) : Outcome Gravity :=
  match level? settings.level with
  | some level => .ok level
  | none => .error (.unknownLogLevel settings.level)

/-- The journal that settings set up. -/
def ofSettings (settings : LogSettings) : Outcome Setup := do
  let level ← leastGravity settings
  let form ← form settings
  return ⟨level, [⟨file settings, form⟩], quietSpeakers⟩

/-- The least gravity that is written of a speaker. -/
def levelFor (setup : Setup) (speaker : String) : Gravity :=
  (setup.quiet.lookup speaker).getD setup.level

/-- Whether a note is written. -/
def passes (setup : Setup) (note : Note) : Bool :=
  decide (setup.levelFor note.speaker ≤ note.gravity)

end Setup

/-- A note in a form. -/
def Form.write (note : Note) : Form → Outcome String
  | .text layout => note.layOut layout
  | .structured => note.toValue.map (Json.render {})

/-- The line of a note in a form; a note that cannot be written is passed over. -/
def Form.line (form : Form) (note : Note) : String :=
  match Form.write note form with
  | .ok written => written ++ "\n"
  | .error _ => ""

/-- The lines of notes at an outlet. -/
def Setup.lines (setup : Setup) (outlet : Outlet) (notes : List Note) : String :=
  String.join ((notes.filter setup.passes).map outlet.form.line)

end Eaves.Journal
