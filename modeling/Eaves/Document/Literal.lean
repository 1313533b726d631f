import Eaves.Document.Plain

/-!
# Blocks of text in documents

A block of text follows a bar, which keeps its lines, or an angle, which folds them.
Behind the mark may stand how far the lines are indented and what becomes of the ends
of lines after the last one: one is kept, or none, or all.
-/

namespace Eaves.Yaml

/-- What becomes of the ends of lines behind a block of text. -/
inductive Ending where
  | none
  | one
  | all
  deriving DecidableEq, Repr

/-- The head of a block of text. -/
structure BlockHead where
  ending : Ending := .one
  /-- How much further than what is around it the lines are indented, where this is said. -/
  further : Option Nat := Option.none

/-- The ending that a mark asks for. -/
def ending? (c : Char) : Option Ending :=
  if c == '+' then some .all else if c == '-' then some .none else Option.none

/-- The head with what one more character says; each may be said once. -/
def BlockHead.with? (head : BlockHead) (c : Char) : Option BlockHead :=
  match ending? c with
  | some ending => if head.ending = .one then some { head with ending := ending } else Option.none
  | Option.none =>
      if '1' ≤ c ∧ c ≤ '9' ∧ head.further = Option.none then
        some { head with further := some (c.toNat - '0'.toNat) }
      else Option.none

/-- The head of a block of text, behind its mark, and the place where its lines start. -/
def blockHead? (cursor : Cursor) : Option (BlockHead × Cursor) := do
  let signs := (cursor.run fun c => !isGap c).take 3
  let head ← signs.foldlM BlockHead.with? {}
  let cursor := cursor.skip signs.length
  let cursor ← if gapAhead cursor.rest && cursor.rest.head? != some '\t' then some cursor else none
  let cursor := cursor.passSpaces.passComment
  match cursor.rest, cursor.lineBreak? with
  | [], _ => return (head, cursor)
  | _, some (_, cursor) => return (head, cursor)
  | _, Option.none => none

/-- Empty lines before the first line of a block, the greatest column reached in them, and the
place of that line. -/
def leadingLines : (fuel : Nat) → (most : Nat) → Cursor → List Char × Nat × Cursor
  | 0, most, cursor => ([], most, cursor)
  | fuel + 1, most, cursor =>
      let cursor := cursor.passSpaces
      let most := max most cursor.column
      match cursor.lineBreak? with
      | some (c, cursor) =>
          let (more, most, cursor) := leadingLines fuel most cursor
          (c :: more, most, cursor)
      | Option.none => ([], most, cursor)

/-- The place behind spaces up to a column. -/
def toColumn (column : Nat) (cursor : Cursor) : Cursor :=
  cursor.skip (((cursor.run (· == ' ')).take (column - cursor.column)).length)

/-- Empty lines between two lines of a block, and the place of the next line. -/
def blankLines (column : Nat) : (fuel : Nat) → Cursor → List Char × Cursor
  | 0, cursor => ([], cursor)
  | fuel + 1, cursor =>
      let cursor := toColumn column cursor
      match cursor.lineBreak? with
      | some (c, cursor) =>
          let (more, cursor) := blankLines column fuel cursor
          (c :: more, cursor)
      | Option.none => ([], cursor)

/-- Whether a text starts with a blank. -/
def blankAhead (cs : List Char) : Bool :=
  cs.head? == some ' ' || cs.head? == some '\t'

/-- The text of a block from a line on, when some empty lines stand before it; gives what the
ends of lines behind it are as well. -/
def blockLines (folds : Bool) (column : Nat) : (fuel : Nat) → (before : List Char) → Cursor →
    List Char × List Char × List Char × Cursor
  | 0, before, cursor => ([], [], before, cursor)
  | fuel + 1, before, cursor =>
      if cursor.column ≠ column ∨ cursor.rest.isEmpty then ([], [], before, cursor)
      else
        let line := cursor.run fun c => !isBreak c
        let behind := cursor.skip line.length
        let (ends, behind) :=
          match behind.lineBreak? with
          | some (c, behind) => ([c], behind)
          | Option.none => ([], behind)
        let (blank, next) := blankLines column behind.fuel behind
        if next.column ≠ column ∨ next.rest.isEmpty then (before ++ line, ends, blank, next)
        else
          let joins := folds && ends == ['\n'] && !blankAhead cursor.rest && !blankAhead next.rest
          let join := if joins then (if blank.isEmpty then [' '] else []) else ends
          let (more, ends, blank, cursor) := blockLines folds column fuel blank next
          (before ++ line ++ join ++ more, ends, blank, cursor)

/-- The block of text that starts at a place, inside of something indented by `indent`. -/
def blockText? (folds : Bool) (indent : Int) (cursor : Cursor) : Option (List Char × Cursor) := do
  let (head, cursor) ← blockHead? cursor.next
  let least := (max (indent + 1) 1).toNat
  let (before, column, cursor) :=
    match head.further with
    | some further =>
        let column := least + further - 1
        let (before, cursor) := blankLines column cursor.fuel cursor
        (before, column, cursor)
    | Option.none =>
        let (before, most, cursor) := leadingLines cursor.fuel 0 cursor
        (before, max least most, cursor)
  let (text, ends, blank, cursor) := blockLines folds column cursor.fuel before cursor
  let tail :=
    match head.ending with
    | .none => []
    | .one => ends
    | .all => ends ++ blank
  return (text ++ tail, cursor)

end Eaves.Yaml
