/-!
# Places in a document

A cursor is a place in a text: what is left of it, and the line and the column that this
starts at.  Lines end in one of several ways, most of which count as a line feed.
-/

namespace Eaves.Yaml

/-! ## Characters -/

/-- Whether a character ends a line. -/
def isBreak (c : Char) : Bool :=
  c == '\n' || c == '\r' || c == '\u0085' || c == '\u2028' || c == '\u2029'

/-- Whether a character parts words: a blank or the end of a line. -/
def isGap (c : Char) : Bool :=
  c == ' ' || c == '\t' || isBreak c

/-- Whether a text is at its end or goes on with a gap. -/
def gapAhead : List Char → Bool
  | [] => true
  | c :: _ => isGap c

/-- Whether a text starts with a mark of three characters that stands alone. -/
def markAhead (mark : Char) : List Char → Bool
  | a :: b :: c :: rest => a == mark && b == mark && c == mark && gapAhead rest
  | _ => false

/-- Whether a text starts with the mark for the start or for the end of a document. -/
def documentAhead (cs : List Char) : Bool :=
  markAhead '-' cs || markAhead '.' cs

/-! ## Cursors -/

/-- A place in a text. -/
structure Cursor where
  rest : List Char
  /-- The number of characters passed. -/
  index : Nat := 0
  line : Nat := 0
  column : Nat := 0
  deriving DecidableEq, Repr

namespace Cursor

/-- The place behind one character.  The mark of byte order has no width. -/
def next (cursor : Cursor) : Cursor :=
  match cursor.rest with
  | [] => cursor
  | c :: cs =>
      let ends := isBreak c && !(c == '\r' && cs.head? == some '\n')
      if ends then ⟨cs, cursor.index + 1, cursor.line + 1, 0⟩
      else ⟨cs, cursor.index + 1, cursor.line, cursor.column + if c == '\ufeff' then 0 else 1⟩

/-- The place behind a number of characters. -/
def skip (cursor : Cursor) : Nat → Cursor
  | 0 => cursor
  | n + 1 => cursor.next.skip n

/-- The characters up to the first that does not count. -/
def run (cursor : Cursor) (counts : Char → Bool) : List Char :=
  cursor.rest.takeWhile counts

/-- The place behind a run. -/
def pass (cursor : Cursor) (counts : Char → Bool) : Cursor :=
  cursor.skip (cursor.run counts).length

/-- The place behind spaces. -/
def passSpaces (cursor : Cursor) : Cursor :=
  cursor.pass (· == ' ')

/-- The place behind a comment, if one starts here. -/
def passComment (cursor : Cursor) : Cursor :=
  if cursor.rest.head? == some '#' then cursor.pass fun c => !isBreak c else cursor

/-- The end of a line, as it counts, and the place behind it. -/
def lineBreak? (cursor : Cursor) : Option (Char × Cursor) :=
  match cursor.rest with
  | '\r' :: '\n' :: _ => some ('\n', cursor.skip 2)
  | c :: _ =>
      if c == '\u2028' || c == '\u2029' then some (c, cursor.next)
      else if isBreak c then some ('\n', cursor.next)
      else none
  | [] => none

/-- The place of the next token, and whether a line ended on the way; the fuel bounds the
lines. -/
def toToken : (fuel : Nat) → Cursor → Cursor × Bool
  | 0, cursor => (cursor, false)
  | fuel + 1, cursor =>
      let cursor := cursor.passSpaces.passComment
      match cursor.lineBreak? with
      | some (_, cursor) => ((cursor.toToken fuel).1, true)
      | none => (cursor, false)

/-- The fuel that is enough for what is left. -/
def fuel (cursor : Cursor) : Nat :=
  cursor.rest.length + 1

end Cursor

end Eaves.Yaml
