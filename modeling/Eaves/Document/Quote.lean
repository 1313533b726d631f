import Eaves.Document.Plain
import Eaves.Text.Numeral
import Eaves.Text.Quoted

/-!
# Quoted text of documents

In single quotes a doubled quote is one quote; in double quotes a backslash opens an
escape.  Text may go on over several lines, which fold like those of a word; a backslash
at the end of a line joins it to the next one.
-/

namespace Eaves.Yaml

/-! ## Escapes -/

/-- The characters that a letter behind a backslash stands for. -/
def escapes : List (Char × Char) := [
  ('0', '\x00'), ('a', '\x07'), ('b', '\x08'), ('t', '\t'), ('\t', '\t'), ('n', '\n'),
  ('v', '\x0b'), ('f', '\x0c'), ('r', '\r'), ('e', '\x1b'), (' ', ' '),
  (Text.doubleQuote, Text.doubleQuote), ('\\', '\\'), ('/', '/'), ('N', '\u0085'),
  ('_', '\u00a0'), ('L', '\u2028'), ('P', '\u2029')]

/-- The number of hexadecimal digits behind a mark. -/
def escapeWidths : List (Char × Nat) := [('x', 2), ('u', 4), ('U', 8)]

/-- The character of a code in hexadecimal digits. -/
def codeChar? (width : Nat) (cs : List Char) : Option Char :=
  let digits := cs.take width
  if digits.length = width ∧ digits.all fun c => c.toNat < 128 && c != '_' then
    (Text.spelled? 16 digits).map Char.ofNat
  else none

/-- One character behind a backslash, and how many characters write it. -/
def escapedChar? : List Char → Option (Char × Nat)
  | [] => none
  | c :: cs =>
      match escapes.lookup c with
      | some shown => some (shown, 1)
      | none =>
          (escapeWidths.lookup c).bind fun width => (codeChar? width cs).map (·, width + 1)

/-! ## Lines -/

/-- Empty lines inside of quotes, without the blanks in them; refused where a document starts
or ends. -/
def quotedLines : (fuel : Nat) → Cursor → Option (List Char × Cursor)
  | 0, _ => none
  | fuel + 1, cursor =>
      if documentAhead cursor.rest then none
      else
        let cursor := cursor.pass fun c => c == ' ' || c == '\t'
        match cursor.lineBreak? with
        | none => some ([], cursor)
        | some (c, cursor) =>
            (quotedLines fuel cursor).map fun (more, cursor) => (c :: more, cursor)

/-- Blanks and ends of lines inside of quotes, folded. -/
def quotedGap (cursor : Cursor) : Option (List Char × Cursor) :=
  let blank (c : Char) : Bool := c == ' ' || c == '\t'
  let blanks := cursor.run blank
  let cursor := cursor.pass blank
  match cursor.rest, cursor.lineBreak? with
  | [], _ => none
  | _, none => some (blanks, cursor)
  | _, some (c, cursor) =>
      (quotedLines cursor.fuel cursor).map fun (more, cursor) => (fold c more, cursor)

/-! ## Text -/

/-- Quoted text, behind the opening quote, and the place behind the closing one. -/
def quotedFrom (quote : Char) : (fuel : Nat) → Cursor → Option (List Char × Cursor)
  | 0, _ => none
  | fuel + 1, cursor =>
      let following (shown : List Char) (cursor : Cursor) : Option (List Char × Cursor) :=
        (quotedFrom quote fuel cursor).map fun (more, cursor) => (shown ++ more, cursor)
      match cursor.rest with
      | [] => none
      | c :: cs =>
          if c == quote then
            if quote == Text.apostrophe && cs.head? == some quote then
              following [quote] (cursor.skip 2)
            else some ([], cursor.next)
          else if isGap c then
            (quotedGap cursor).bind fun (folded, cursor) => following folded cursor
          else if quote == Text.doubleQuote && c == '\\' then
            match escapedChar? cs, cursor.next.lineBreak? with
            | some (shown, count), _ => following [shown] (cursor.skip (count + 1))
            | none, some (_, behind) =>
                (quotedLines behind.fuel behind).bind fun (lines, cursor) =>
                  following lines cursor
            | none, none => none
          else following [c] cursor.next

/-- The quoted text that starts at a place. -/
def quotedText (quote : Char) (cursor : Cursor) : Option (List Char × Cursor) :=
  quotedFrom quote cursor.fuel cursor.next

end Eaves.Yaml
