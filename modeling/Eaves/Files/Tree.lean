import Eaves.Failure
import Eaves.Files.Path

/-!
# File trees

Files and directories as a value: every path that is there, with what stands at it.
Each operation says what a file system would refuse, and otherwise gives the tree
after it.
-/

namespace Eaves

/-- What stands at a path. -/
inductive Node where
  | file (content : String)
  | directory
  deriving DecidableEq, Repr

/-- The files and directories below a working directory. -/
structure FileTree where
  nodes : List (Path × Node) := []
  deriving DecidableEq, Repr

/-- A file operation that gives a result or is refused. -/
abbrev FileOutcome (α : Type) := Except FileFault α

namespace FileTree

/-- What stands at a path whose names that lead outwards are all at its start; a path of such
names alone is that of a directory. -/
def node? (tree : FileTree) (path : Path) : Option Node :=
  if path.all (· == Path.outwards) ∨ path = [Path.root] then some .directory
  else tree.nodes.lookup path

/-- Puts a node at a path, in the place of what stands there. -/
def put (tree : FileTree) (path : Path) (node : Node) : FileTree :=
  ⟨(path, node) :: tree.nodes.filter fun entry => decide (entry.1 ≠ path)⟩

/-- Takes away what stands at a path. -/
def erase (tree : FileTree) (path : Path) : FileTree :=
  ⟨tree.nodes.filter fun entry => decide (entry.1 ≠ path)⟩

/-- One name further along a path.  Nothing is outside the root; a name that leads outwards is
kept where there is no name for it to cancel. -/
def enter (path : Path) (name : String) : Path :=
  if name != Path.outwards then path ++ [name]
  else if path = [Path.root] then path
  else if path.all (· == Path.outwards) then path ++ [name]
  else path.dropLast

/-- The most bytes of a name. -/
def longestName : Nat := 255

/-- The most bytes of a path. -/
def longestPath : Nat := 4095

/-- Refuses a name that is longer than names can be, on the way along a path. -/
def checkName (whole : Path) (name : String) : FileOutcome Unit :=
  if longestName < name.utf8ByteSize then .error (.nameTooLong whole.text) else .ok ()

/-- Refuses a path that is longer than paths can be. -/
def checkPath (path : Path) : FileOutcome Unit :=
  if longestPath < path.text.utf8ByteSize then .error (.nameTooLong path.text) else .ok ()

/-- The path that names lead to; every name but the last has to be that of a directory. -/
def follow (tree : FileTree) (whole : Path) : (reached : Path) → List String → FileOutcome Path
  | reached, [] => .ok reached
  | reached, [name] => (checkName whole name).map fun _ => enter reached name
  | reached, name :: next :: rest => do
      checkName whole name
      match tree.node? (enter reached name) with
      | some .directory => follow tree whole (enter reached name) (next :: rest)
      | some (.file _) => throw (.notDirectory whole.text)
      | none => throw (.absent whole.text)

/-- The path with every name that leads outwards cancelled as far as can be. -/
def locate (tree : FileTree) (path : Path) : FileOutcome Path := do
  checkPath path
  tree.follow path [] path

/-- What stands at a path; nothing when the way there is none. -/
def find? (tree : FileTree) (path : Path) : Option Node :=
  match tree.locate path with
  | .ok located => tree.node? located
  | .error _ => none

/-- What stands at a path, where only its length can be refused. -/
def look (tree : FileTree) (path : Path) : FileOutcome (Option Node) :=
  match tree.locate path with
  | .ok located => .ok (tree.node? located)
  | .error (.nameTooLong text) => .error (.nameTooLong text)
  | .error _ => .ok none

/-- Whether something stands at a path. -/
def isPresent (tree : FileTree) (path : Path) : FileOutcome Bool :=
  (tree.look path).map Option.isSome

/-- Whether a directory stands at a path. -/
def isDirectory (tree : FileTree) (path : Path) : FileOutcome Bool :=
  (tree.look path).map fun node => node == some .directory

/-- The content of a file. -/
def read (tree : FileTree) (path : Path) : FileOutcome String := do
  match tree.node? (← tree.locate path) with
  | some (.file content) => return content
  | some .directory => throw (.isDirectory path.text)
  | none => throw (.absent path.text)

/-- Writes a file, in the place of one that stands there. -/
def write (tree : FileTree) (path : Path) (content : String) : FileOutcome FileTree := do
  let located ← tree.locate path
  match tree.node? located with
  | some .directory => throw (.isDirectory path.text)
  | _ => return tree.put located (.file content)

/-- Takes a file away. -/
def remove (tree : FileTree) (path : Path) : FileOutcome FileTree := do
  let located ← tree.locate path
  match tree.node? located with
  | some (.file _) => return tree.erase located
  | some .directory => throw (.isDirectory path.text)
  | none => throw (.absent path.text)

/-- Moves a file over another path, in one step. -/
def move (tree : FileTree) (source target : Path) : FileOutcome FileTree := do
  let content ← tree.read source
  let start ← tree.locate source
  let stop ← tree.locate target
  match tree.node? stop with
  | some .directory => throw (.moveOntoDirectory source.text target.text)
  | _ => return (tree.erase start).put stop (.file content)

/-- Makes the directories that names lead through. -/
def makeFrom (tree : FileTree) (whole : Path) : (reached : Path) → List String →
    FileOutcome FileTree
  | _, [] => .ok tree
  | reached, name :: rest => do
      checkName whole name
      let next := enter reached name
      match tree.node? next with
      | some .directory => makeFrom tree whole next rest
      | some (.file _) =>
          throw (if rest.isEmpty then .exists whole.text else .notDirectory whole.text)
      | none => makeFrom (tree.put next .directory) whole next rest

/-- Makes a directory and those around it, as far as they are not there. -/
def makeDirectory (tree : FileTree) (path : Path) : FileOutcome FileTree := do
  checkPath path
  tree.makeFrom path [] path

/-- The names in a directory. -/
def names (tree : FileTree) (directory : Path) : List String :=
  match tree.locate directory with
  | .ok located =>
      (tree.nodes.filter fun entry =>
        decide (entry.1 ≠ [] ∧ entry.1.dropLast = located)).map fun entry => Path.name entry.1
  | .error _ => []

/-- The paths of all files, written out and in order. -/
def files (tree : FileTree) : List String :=
  let paths := tree.nodes.filterMap fun entry =>
    match entry.2 with
    | .file _ => some (Path.text entry.1)
    | .directory => none
  paths.mergeSort fun a b => decide (a ≤ b)

/-- Writes a file and makes the directories around it. -/
def plant (tree : FileTree) (path : Path) (content : String) : FileOutcome FileTree := do
  (← tree.makeDirectory path.parent).write path content

end FileTree

end Eaves
