import Eaves.Command.Invocation
import Eaves.Document.Load
import Eaves.Journal.Setup
import Eaves.Store.Directory

/-!
# The disk

A command is a function of a file tree.  What an invocation may look at is read into
a tree beforehand, and what has changed in the tree is written afterwards.  A file is
written beside its place and moved there, so it is never half written.
-/

namespace Eaves.Outside

open Command (Invocation Task)

/-! ## What is looked at -/

/-- The paths that a task may touch. -/
def taskPaths (store : String) : Task → List Path
  | .parse _ _ | .send _ _ => []
  | .compile _ out save =>
      (out.map Path.ofText).toList ++
        ((save.map fun id => DirectoryStore.recordPath (.ofText store) "local" id).bind
          Except.toOption).toList.flatMap fun path => [path, DirectoryStore.draftPath path]

/-- The paths that an invocation may touch. -/
def pathsOf (invocation : Invocation) : List Path :=
  (invocation.settings.map Path.ofText).getD settingsPath ::
    .ofText invocation.roofline :: taskPaths invocation.store invocation.task

/-- The journal's file, where the settings in a tree name one. -/
def journalPath (tree : FileTree) (invocation : Invocation) : Option Path :=
  match loadSettings tree (invocation.settings.map Path.ofText) with
  | .ok settings => (Journal.Setup.file settings.logging).map Path.ofText
  | .error _ => none

/-- The starts of a path, the shortest first. -/
def starts (path : Path) : List Path :=
  (List.range path.length).map fun n => path.take (n + 1)

/-! ## Reading -/

/-- What stands at a path on the disk. -/
def look (path : Path) : IO (Option Node) := do
  try
    return some (.file (← IO.FS.readFile path.text))
  catch error =>
    match error with
    | .noFileOrDirectory _ _ _ => return none
    | .inappropriateType _ _ _ => return some .directory
    | error => throw error

/-- The tree with what stands on the way to a path and at it. -/
def gather (tree : FileTree) (path : Path) : IO FileTree :=
  (starts path).foldlM
    (fun tree start => do
      match tree.locate start with
      | .error _ => return tree
      | .ok located =>
          if (tree.node? located).isSome then return tree
          else
            match ← look start with
            | some node => return tree.put located node
            | none => return tree)
    tree

/-- The tree that an invocation works on. -/
def treeFor (invocation : Invocation) : IO FileTree := do
  let tree ← (pathsOf invocation).foldlM gather {}
  match journalPath tree invocation with
  | some path => gather tree path
  | none => return tree

/-! ## Writing -/

/-- Writes a file beside its place and moves it there. -/
def replace (path : Path) (content : String) : IO Unit := do
  let draft := (path.parent ++ [path.name ++ ".part"]).text
  IO.FS.writeFile draft content
  IO.FS.rename draft path.text

/-- Makes what stands at a path on the disk what stands there in a tree. -/
def settleNode (path : Path) : Node → IO Unit
  | .directory => IO.FS.createDirAll path.text
  | .file content => do
      IO.FS.createDirAll path.parent.text
      replace path content

/-- Writes what has changed from one tree to another. -/
def settle (before after : FileTree) : IO Unit := do
  for (path, node) in after.nodes.reverse do
    if before.node? path ≠ some node then settleNode path node
  for (path, node) in before.nodes do
    match node, after.node? path with
    | .file _, none => IO.FS.removeFile path.text
    | _, _ => pure ()

end Eaves.Outside
