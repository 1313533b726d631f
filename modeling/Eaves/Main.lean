import Eaves.Command.Run
import Eaves.Command.Screen
import Eaves.Outside.Disk
import Eaves.Outside.Http
import Std.Time.DateTime.Timestamp

/-!
# The program

The command line is run as a function of the replies that are known so far.  When it
makes one request more than there are replies, that request is made, its reply becomes
known, and the command is run again from the start.
-/

namespace Eaves

open Number (Binary64)
open Command (Desk Invocation)

/-- What has come in from outside: the replies of the controller and the random picks. -/
structure Known where
  replies : List Reply := []
  picks : List Binary64 := []

/-- A random number between nought and one. -/
def randomPick : IO Binary64 := do
  let steps := 1000000
  let n ← IO.rand 0 steps
  return .ofRat (mkRat n steps)

/-- What the clock says. -/
def clock : IO Binary64 := do
  let instant ← Std.Time.Timestamp.now
  return .ofRat (mkRat instant.toMillisecondsSinceUnixEpoch.val 1000)

/-- The desk with what is known. -/
def deskWith (tree : FileTree) (now : Binary64) (known : Known) : Desk where
  tree := tree
  replies number := known.replies[number]?.getD .networkError
  picks number := known.picks[number]?.getD (.decimal 5 1)
  now := now

/-- The milliseconds of a wait. -/
def milliseconds (seconds : Binary64) : UInt32 :=
  ((seconds.mul (.finite 1000)).toRat.floor.toNat).toUInt32

/-- Runs a command line, making every request it comes to. -/
partial def runKnowing (arguments : List String) (tree : FileTree) (now : Binary64)
    (known : Known) : IO (Desk × Outcome Nat) := do
  let (desk, outcome) := Command.run arguments (deskWith tree now known)
  let done := known.replies.length
  match desk.requests[done]? with
  | none => return (desk, outcome)
  | some request =>
      if 0 < done then
        IO.sleep (milliseconds (desk.waits[done - 1]?.getD (.finite 0)))
      let reply ← Outside.post request
      runKnowing arguments tree now
        ⟨known.replies ++ [reply], known.picks ++ [← randomPick]⟩

/-- The tree that a command line works on; one that asks for nothing needs none. -/
def treeOf (arguments : List String) : IO FileTree :=
  match Invocation.read arguments with
  | .ok invocation => Outside.treeFor invocation
  | .error _ => return {}

/-- Shows what the command line is for, where nothing is to be done. -/
def showUsage (arguments : List String) : IO Unit :=
  match Invocation.read arguments with
  | .error .help => IO.print Command.usage
  | .error .refused => IO.eprint Command.usage
  | .ok _ => return ()

/-- Runs a command line and ends with its status. -/
def program (arguments : List String) : IO UInt32 := do
  showUsage arguments
  let tree ← treeOf arguments
  let (desk, outcome) ← runKnowing arguments tree (← clock) {}
  Outside.settle tree desk.tree
  for record in desk.shown do
    IO.print record.text
  match outcome with
  | .ok status => return status.toUInt32
  | .error failure =>
      IO.eprintln failure.message
      return 1

end Eaves

/-- The program. -/
def main (arguments : List String) : IO UInt32 :=
  Eaves.program arguments
