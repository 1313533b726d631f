import Eaves.Text.Search

/-!
# Paths

A path is a list of names.  Written out, names are joined by slashes; reading a text
passes over doubled slashes and names that say "here".  An absolute path starts with
the name of the root, a slash.
-/

namespace Eaves

/-- Where a file or a directory is: the names from the outermost on. -/
abbrev Path := List String

namespace Path

/-- The name of the root. -/
def root : String := "/"

/-- The name that leads outwards. -/
def outwards : String := ".."

/-- The path a text writes. -/
def ofText (text : String) : Path :=
  let names := ((Text.splitOn ['/'] text.toList).map String.ofList).filter fun name =>
    name != "" && name != "."
  if Text.startsWith ['/'] text.toList then root :: names else names

/-- A path written out. -/
def text (path : Path) : String :=
  match path with
  | [] => "."
  | first :: rest =>
      if first == root then root ++ "/".intercalate rest else "/".intercalate path

/-- The last name of a path. -/
def name (path : Path) : String :=
  path.getLast?.getD ""

/-- The directory a path is in. -/
def parent (path : Path) : Path :=
  path.dropLast

/-- A name cut before the last dot that has something on both of its sides; without such a dot
the ending is empty. -/
def cutEnding (name : String) : String × String :=
  let cs := name.toList
  let ending := (cs.reverse.takeWhile (· ≠ '.')).reverse
  let start := cs.take (cs.length - ending.length - 1)
  if ending.length < cs.length ∧ !ending.isEmpty ∧ !start.isEmpty then
    (String.ofList start, String.ofList ('.' :: ending))
  else (name, "")

/-- The ending of a path's name, with its dot. -/
def ending (path : Path) : String :=
  (cutEnding path.name).2

/-- The name of a path without its ending. -/
def stem (path : Path) : String :=
  (cutEnding path.name).1

end Path

end Eaves
