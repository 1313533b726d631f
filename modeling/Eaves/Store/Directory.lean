import Eaves.Document.Load
import Eaves.Store.Record

/-!
# Designs in a directory

Each user has a directory below the root, each design a file in it.  Ids are file
names, so they are checked before any file is touched.  A record is written beside
its place first and then moved there, so that no step of saving leaves part of a
record in its place.  A file that holds no valid record counts as no design.
-/

namespace Eaves.DirectoryStore

/-! ## Keys and paths -/

/-- Whether a character may stand in a key. -/
def isKeyChar (c : Char) : Bool :=
  ('a' ≤ c && c ≤ 'z') || ('A' ≤ c && c ≤ 'Z') || c.isDigit || c == '_' || c == '.' || c == '-'

/-- A text without a line feed at its end. -/
def dropLineFeed (cs : List Char) : List Char :=
  if cs.getLast? = some '\n' then cs.dropLast else cs

/-- Whether a text can be a file name: letters, digits and three marks, with at most a line feed
behind them, and no name for a directory itself. -/
def isKey (key : String) : Bool :=
  let cs := dropLineFeed key.toList
  !cs.isEmpty && cs.all isKeyChar && key != "." && key != ".."

/-- A key that can be a file name. -/
def checkKey (what key : String) : Outcome String :=
  if isKey key then .ok key else .error (.unsafeKey what key)

/-- The directory of a user. -/
def userDirectory (root : Path) (userId : String) : Outcome Path :=
  (checkKey "user id" userId).map fun key => root ++ [key]

/-- The ending of a record's file name. -/
def recordEnding : String := ".json"

/-- The ending of the file that a record is first written to. -/
def draftEnding : String := ".json.tmp"

/-- The path of a record. -/
def recordPath (root : Path) (userId id : String) : Outcome Path := do
  let directory ← userDirectory root userId
  let key ← checkKey "design id" id
  return directory ++ [key ++ recordEnding]

/-- The path that a record is first written to. -/
def draftPath (path : Path) : Path :=
  path.parent ++ [path.stem ++ draftEnding]

/-! ## Saving -/

/-- One step of saving. -/
inductive SaveStep where
  | makeDirectory (path : Path)
  | write (path : Path) (content : String)
  | move (source target : Path)
  deriving DecidableEq, Repr

/-- The tree after one step. -/
def SaveStep.run (tree : FileTree) : SaveStep → FileOutcome FileTree
  | .makeDirectory path => tree.makeDirectory path
  | .write path content => tree.write path content
  | .move source target => tree.move source target

/-- The steps that save a design at a path. -/
def saveSteps (path : Path) (design : SavedDesign) : List SaveStep :=
  [.makeDirectory path.parent, .write (draftPath path) design.document,
    .move (draftPath path) path]

/-- The tree after steps, as far as they are not refused, and the refusal of the first that
is. -/
def runSteps (tree : FileTree) : List SaveStep → FileTree × FileOutcome Unit
  | [] => (tree, .ok ())
  | step :: rest =>
      match step.run tree with
      | .ok next => runSteps next rest
      | .error fault => (tree, .error fault)

/-- The tree after a design is saved, also where saving is refused on the way. -/
def save (tree : FileTree) (root : Path) (design : SavedDesign) : FileTree × Outcome Unit :=
  match recordPath root design.userId design.id with
  | .error failure => (tree, .error failure)
  | .ok path =>
      let (tree, outcome) := runSteps tree (saveSteps path design)
      (tree, liftFile outcome)

/-! ## Loading, deleting, listing -/

/-- The design under a user and an id. -/
def load (tree : FileTree) (root : Path) (userId id : String) : Outcome (Option SavedDesign) := do
  let path ← recordPath root userId id
  match tree.read path with
  | .ok text => return SavedDesign.ofDocument? text
  | .error (.absent _) => return none
  | .error fault => throw (.file fault)

/-- The tree without the design under a user and an id, and whether there was a file. -/
def delete (tree : FileTree) (root : Path) (userId id : String) :
    Outcome (FileTree × Bool) := do
  let path ← recordPath root userId id
  match tree.remove path with
  | .ok tree => return (tree, true)
  | .error (.absent _) => return (tree, false)
  | .error fault => throw (.file fault)

/-- Whether a file name is that of a record. -/
def isRecordName (name : String) : Bool :=
  recordEnding.toList.isSuffixOf name.toList

/-- The names of the files in a directory that could be records, in order. -/
def recordNames (tree : FileTree) (directory : Path) : List String :=
  ((tree.names directory).filter isRecordName).mergeSort fun a b => decide (a ≤ b)

/-- The designs of a user, in order of their file names. -/
def list (tree : FileTree) (root : Path) (userId : String) : Outcome (List SavedDesign) := do
  let directory ← userDirectory root userId
  if !(← liftFile (tree.isDirectory directory)) then return []
  else
    let designs ← (recordNames tree directory).mapM fun name =>
      load tree root userId (Path.cutEnding name).1
    return designs.filterMap id

end Eaves.DirectoryStore
