import Eaves.Device.Delivery
import Eaves.Device.Payload
import Eaves.Document.Load
import Eaves.Journal.Setup

/-!
# The desk a command works at

A command sees files, shows things, keeps a journal and talks to a controller.  All
of this is one value, and a command is a function of it: what the controller answers
to each request in turn, what the random picks are and what the clock says are part
of the value.  A command that stops early leaves the desk as it was at that point.
-/

namespace Eaves.Command

open Number (Binary64)
open Journal (Note Gravity)

/-- Something shown. -/
inductive Record where
  /-- A line, with marks for colours in square brackets. -/
  | line (text : String)
  | table (title : String) (columns : List String) (rows : List (List String))
  | data (value : Value)
  /-- A line of the journal, where the journal is shown. -/
  | journal (text : String)
  deriving Repr

/-- A request that was made. -/
structure Request where
  address : Address
  payload : Payload
  deriving Repr

/-- What a command works with. -/
structure Desk where
  tree : FileTree := {}
  /-- What the controller answers to each request, counted from nought. -/
  replies : Nat → Reply
  /-- The random pick behind each wait. -/
  picks : Nat → Binary64 := fun _ => .decimal 5 1
  /-- What the clock says, in seconds from the start of 1970. -/
  now : Binary64 := .finite 0
  journal : Option Journal.Setup := none
  shown : List Record := []
  requests : List Request := []
  waits : List Binary64 := []

/-- Why a command stops early, and which record was being read then. -/
structure Stop where
  failure : Failure
  record : String := ""

/-- A step of a command. -/
abbrev Act := ExceptT Stop (StateM Desk)

namespace Act

/-- An operation that may fail. -/
def ofOutcome {α : Type} (record : String) : Outcome α → Act α
  | .ok value => return value
  | .error failure => throw ⟨failure, record⟩

/-- A file operation that may fail. -/
def ofFiles {α : Type} (outcome : FileOutcome α) : Act α :=
  ofOutcome "" (liftFile outcome)

/-- Shows something. -/
def display (record : Record) : Act Unit :=
  modify fun desk => { desk with shown := desk.shown ++ [record] }

/-- Shows a line. -/
def say (text : String) : Act Unit :=
  display (.line text)

/-- Changes the files. -/
def setTree (tree : FileTree) : Act Unit :=
  modify fun desk => { desk with tree := tree }

/-! ## The journal -/

/-- Adds text to a file; a file that is not there is begun. -/
def append (path : Path) (text : String) : Act Unit := do
  let tree := (← get).tree
  let before :=
    match tree.find? path with
    | some (.file content) => content
    | _ => ""
  setTree (← ofFiles (tree.write path (before ++ text)))

/-- Puts text at an outlet of the journal. -/
def putLine (outlet : Journal.Outlet) (text : String) : Act Unit :=
  match outlet.file with
  | some name => append (.ofText name) text
  | none => if text.isEmpty then return () else display (.journal text)

/-- Makes a note. -/
def note (speaker : String) (gravity : Gravity) (text : String) : Act Unit := do
  let desk ← get
  match desk.journal with
  | none => return ()
  | some setup =>
      let note : Note :=
        { gravity := gravity, speaker := speaker, text := text, created := desk.now }
      setup.outlets.forM fun outlet => putLine outlet (setup.lines outlet [note])

/-- Sets up the journal.  Its file is begun before the layout is looked at. -/
def openJournal (settings : LogSettings) : Act Unit := do
  let level ← ofOutcome "" (Journal.Setup.leastGravity settings)
  let file := Journal.Setup.file settings
  file.forM fun name => append (.ofText name) ""
  let form ← ofOutcome "" (Journal.Setup.form settings)
  modify fun desk =>
    { desk with journal := some ⟨level, [⟨file, form⟩], Journal.Setup.quietSpeakers⟩ }

/-! ## The controller -/

/-- The note about a delivery that came to nothing, from the last reply. -/
def refusalText (root : String) (requests : Nat) : Reply → String
  | .timeout =>
      "Timed out sending to " ++ root ++ " after " ++ toString requests ++ " attempt(s)"
  | .networkError =>
      "Network error sending to " ++ root ++ " after " ++ toString requests ++ " attempt(s)"
  | .status code _ =>
      "Controller " ++ root ++ " rejected payload with status " ++ toString code

/-- Delivers a payload, and says whether it was accepted. -/
def deliver (root : String) (policy : RetryPolicy) (payload : Payload) : Act Bool := do
  let address ← ofOutcome "" (Address.state root)
  let desk ← get
  let before := desk.requests.length
  let reply (number : Nat) : Reply := desk.replies (before + number - 1)
  let pick (number : Nat) : Binary64 := desk.picks (before + number - 1)
  let delivery ← ofOutcome "" (Eaves.deliver policy address pick reply)
  let request : Request := ⟨address, payload⟩
  set { desk with
    requests := desk.requests ++ List.replicate delivery.requests request
    waits := desk.waits ++ delivery.waits }
  if !delivery.accepted then
    note "glowline.core.transport.http" .warning
      (refusalText root delivery.requests (reply delivery.requests))
  return delivery.accepted

end Act

end Eaves.Command
