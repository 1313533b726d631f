import Eaves.Document.Cursor

/-!
# Words of documents

A word without quotes goes on to a colon that ends a key, to a comment, or, inside
brackets, to one of their marks.  It may go on over several lines, as long as these are
indented far enough; the ends of lines fold into a space, or into the empty lines
between.
-/

namespace Eaves.Yaml

/-- The marks that end a word inside brackets. -/
def bracketMarks : List Char := [',', '?', '[', ']', '\x7b', '\x7d']

/-- The marks that no word starts with, unless what follows says otherwise. -/
def openingMarks : List Char :=
  "-?:,[]\x7b\x7d#&*!|>'\x22%@\x60".toList

/-- Whether a word starts here.  The marks of entries and keys may start one when no gap
follows; those of keys only outside of brackets. -/
def startsWord (inBrackets : Bool) : List Char → Bool
  | [] => false
  | c :: cs =>
      (!isGap c && !openingMarks.contains c) ||
        (!gapAhead cs && (c == '-' || (!inBrackets && (c == '?' || c == ':'))))

/-- Whether a colon that has `cs` behind it ends a word. -/
def colonEnds (inBrackets : Bool) (cs : List Char) : Bool :=
  match cs with
  | [] => true
  | c :: _ => isGap c || (inBrackets && [',', '[', ']', '\x7b', '\x7d'].contains c)

/-- The characters of a word up to the next gap, or to what ends it. -/
def wordPart (inBrackets : Bool) : List Char → List Char
  | [] => []
  | c :: cs =>
      if isGap c || (c == ':' && colonEnds inBrackets cs) ||
          (inBrackets && bracketMarks.contains c) then []
      else c :: wordPart inBrackets cs

/-- What stands between two parts of a word; nothing at all where the word is at its end. -/
structure WordGap where
  folded : List Char
  cursor : Cursor
  /-- Whether a line ended. -/
  broke : Bool

/-- Empty lines behind the end of a line, without the spaces in them; nothing where a document
starts or ends. -/
def emptyLines : (fuel : Nat) → Cursor → Option (List Char) × Cursor
  | 0, cursor => (some [], cursor)
  | fuel + 1, cursor =>
      let cursor := cursor.passSpaces
      match cursor.lineBreak? with
      | none => (some [], cursor)
      | some (c, cursor) =>
          if documentAhead cursor.rest then (none, cursor)
          else
            let (more, cursor) := emptyLines fuel cursor
            (more.map (c :: ·), cursor)

/-- The end of a line and empty lines behind it, folded. -/
def fold (first : Char) (more : List Char) : List Char :=
  if first ≠ '\n' then first :: more else if more.isEmpty then [' '] else more

/-- What stands behind a part of a word. -/
def wordGap (cursor : Cursor) : WordGap :=
  let spaces := cursor.run (· == ' ')
  match cursor.passSpaces.lineBreak? with
  | none => ⟨spaces, cursor.passSpaces, false⟩
  | some (c, cursor) =>
      if documentAhead cursor.rest then ⟨[], cursor, true⟩
      else
        match emptyLines cursor.fuel cursor with
        | (some more, cursor) => ⟨fold c more, cursor, true⟩
        | (none, cursor) => ⟨[], cursor, true⟩

/-- A word, from a gap before its next part on: lines have to be indented at least as far as
`least`.  Gives the word, the place behind it and its gap, and whether a line ended in that. -/
def word (inBrackets : Bool) (least : Int) : (fuel : Nat) → WordGap →
    List Char × Cursor × Bool
  | 0, gap => ([], gap.cursor, gap.broke)
  | fuel + 1, gap =>
      let part := wordPart inBrackets gap.cursor.rest
      if gap.cursor.rest.head? == some '#' || part.isEmpty then ([], gap.cursor, gap.broke)
      else
        let next := wordGap (gap.cursor.skip part.length)
        let ended := next.folded.isEmpty || (!inBrackets && decide (next.cursor.column < least))
        if ended then (gap.folded ++ part, next.cursor, next.broke)
        else
          let (more, cursor, broke) := word inBrackets least fuel next
          (gap.folded ++ part ++ more, cursor, broke)

/-- The word that starts at a place. -/
def plainWord (inBrackets : Bool) (least : Int) (cursor : Cursor) : List Char × Cursor × Bool :=
  word inBrackets least cursor.fuel ⟨[], cursor, false⟩

end Eaves.Yaml
