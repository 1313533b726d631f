import Eaves.Document.Literal
import Eaves.Document.Quote

/-!
# Tokens of documents

A document is cut into tokens from its start to its end.  Outside of brackets the
indentation opens and closes mappings and lists.  That something is a key shows only when
its colon is reached, so the scanner keeps where a key may have started, one place for
each depth of brackets, and puts the mark of the key there later.  A key stands on one
line and is short.

Anchors, aliases, tags and directives are refused.
-/

namespace Eaves.Yaml

/-- A token of a document. -/
inductive Token where
  | documentStart
  | documentEnd
  /-- A list that is opened by its indentation. -/
  | openItems
  /-- A mapping that is opened by its indentation. -/
  | openEntries
  /-- What was opened by its indentation ends. -/
  | close
  | openBracket
  | closeBracket
  | openBrace
  | closeBrace
  | comma
  /-- The mark of a list item. -/
  | item
  /-- A key follows. -/
  | key
  /-- The value of a key follows. -/
  | value
  /-- A text, and whether it is a word without quotes. -/
  | scalar (text : List Char) (isWord : Bool)
  deriving DecidableEq, Repr

/-- A place where a key may have started. -/
structure Candidate where
  /-- How many tokens stand before it. -/
  number : Nat
  /-- Whether nothing but a key can stand there. -/
  isRequired : Bool
  cursor : Cursor

/-- The state of the scanner. -/
structure Scanner where
  cursor : Cursor
  /-- The tokens so far, latest first. -/
  tokens : List Token := []
  count : Nat := 0
  /-- The column that the innermost mapping or list is indented to. -/
  indent : Int := -1
  /-- The columns of those around it. -/
  outer : List Int := []
  /-- The number of brackets that are open. -/
  depth : Nat := 0
  /-- Whether a key may start at the next token. -/
  keyAllowed : Bool := true
  candidates : List (Nat × Candidate) := []

namespace Scanner

/-! ## Steps -/

/-- Adds a token. -/
def emit (token : Token) (scanner : Scanner) : Scanner :=
  { scanner with tokens := token :: scanner.tokens, count := scanner.count + 1 }

/-- Puts tokens before those from a number on. -/
def insert (number : Nat) (tokens : List Token) (scanner : Scanner) : Scanner :=
  let later := scanner.count - number
  { scanner with
    tokens := scanner.tokens.take later ++ tokens.reverse ++ scanner.tokens.drop later
    count := scanner.count + tokens.length }

/-- Goes on by a number of characters. -/
def forward (n : Nat) (scanner : Scanner) : Scanner :=
  { scanner with cursor := scanner.cursor.skip n }

/-- Says whether a key may start at the next token. -/
def allowKey (allowed : Bool) (scanner : Scanner) : Scanner :=
  { scanner with keyAllowed := allowed }

/-- The candidate at the present depth. -/
def candidate? (scanner : Scanner) : Option Candidate :=
  scanner.candidates.lookup scanner.depth

/-- Forgets the candidate at the present depth. -/
def forget (scanner : Scanner) : Scanner :=
  { scanner with
    candidates := scanner.candidates.filter fun entry => entry.1 != scanner.depth }

/-- Gives up the candidate at the present depth; refused where a key is required. -/
def giveUp (scanner : Scanner) : Option Scanner :=
  match scanner.candidate? with
  | some candidate => if candidate.isRequired then none else some scanner.forget
  | none => some scanner

/-- Remembers that a key may start here. -/
def remember (scanner : Scanner) : Option Scanner :=
  if scanner.keyAllowed then
    scanner.giveUp.map fun scanner =>
      let isRequired := scanner.depth == 0 && scanner.indent == scanner.cursor.column
      let candidate : Candidate := ⟨scanner.count, isRequired, scanner.cursor⟩
      { scanner with candidates := (scanner.depth, candidate) :: scanner.candidates }
  else some scanner

/-- The most characters of a key. -/
def longestKey : Nat := 1024

/-- Whether a candidate is too far behind a place to be a key. -/
def isStale (cursor : Cursor) (candidate : Candidate) : Bool :=
  candidate.cursor.line != cursor.line ||
    decide (longestKey < cursor.index - candidate.cursor.index)

/-- Forgets the candidates that are too far behind; refused where a key is required. -/
def dropStale (scanner : Scanner) : Option Scanner :=
  let (stale, fresh) := scanner.candidates.partition fun entry =>
    isStale scanner.cursor entry.2
  if stale.any fun entry => entry.2.isRequired then none
  else some { scanner with candidates := fresh }

/-- Closes what is indented further than a column, from the innermost on. -/
def closeTo (column : Int) (indent : Int) : List Int → Scanner → Scanner
  | outer, scanner =>
      if indent ≤ column then { scanner with indent := indent, outer := outer }
      else
        match outer with
        | [] => { scanner with indent := indent, outer := [] }
        | next :: rest => closeTo column next rest (scanner.emit .close)

/-- Closes what is indented further than a column; inside brackets indentation says nothing. -/
def unwind (column : Int) (scanner : Scanner) : Scanner :=
  if scanner.depth = 0 then closeTo column scanner.indent scanner.outer scanner else scanner

/-- Opens a mapping or a list where a column is indented further than what is open. -/
def openTo (column : Nat) (token : Token) (number : Nat) (scanner : Scanner) : Scanner :=
  if scanner.depth = 0 ∧ scanner.indent < column then
    insert number [token]
      { scanner with indent := column, outer := scanner.indent :: scanner.outer }
  else scanner

/-! ## Tokens -/

/-- The mark of the start or the end of a document. -/
def documentMark (token : Token) (scanner : Scanner) : Option Scanner :=
  (scanner.unwind (-1)).giveUp.map fun scanner => ((scanner.allowKey false).forward 3).emit token

/-- An opening bracket. -/
def openMark (token : Token) (scanner : Scanner) : Option Scanner :=
  scanner.remember.map fun scanner =>
    (({ scanner with depth := scanner.depth + 1 }.allowKey true).forward 1).emit token

/-- A closing bracket. -/
def closeMark (token : Token) (scanner : Scanner) : Option Scanner :=
  if scanner.depth = 0 then none
  else
    scanner.giveUp.map fun scanner =>
      (({ scanner with depth := scanner.depth - 1 }.allowKey false).forward 1).emit token

/-- A comma inside brackets. -/
def commaMark (scanner : Scanner) : Option Scanner :=
  (scanner.allowKey true).giveUp.map fun scanner => (scanner.forward 1).emit .comma

/-- The mark of a list item. -/
def itemMark (scanner : Scanner) : Option Scanner :=
  if scanner.depth = 0 ∧ !scanner.keyAllowed then none
  else
    let opened := scanner.openTo scanner.cursor.column .openItems scanner.count
    (opened.allowKey true).giveUp.map fun scanner => (scanner.forward 1).emit .item

/-- The mark before a key of any length. -/
def keyMark (scanner : Scanner) : Option Scanner :=
  if scanner.depth = 0 ∧ !scanner.keyAllowed then none
  else
    let opened := scanner.openTo scanner.cursor.column .openEntries scanner.count
    (opened.allowKey (scanner.depth == 0)).giveUp.map fun scanner =>
      (scanner.forward 1).emit .key

/-- The mark between a key and its value. -/
def valueMark (scanner : Scanner) : Option Scanner :=
  match scanner.candidate? with
  | some candidate =>
      let marked := scanner.forget.insert candidate.number [.key]
      let opened := marked.openTo candidate.cursor.column .openEntries candidate.number
      some (((opened.allowKey false).forward 1).emit .value)
  | none =>
      if scanner.depth = 0 ∧ !scanner.keyAllowed then none
      else
        let opened := scanner.openTo scanner.cursor.column .openEntries scanner.count
        (opened.allowKey (scanner.depth == 0)).giveUp.map fun scanner =>
          (scanner.forward 1).emit .value

/-- A block of text. -/
def block (folds : Bool) (scanner : Scanner) : Option Scanner := do
  let scanner ← (scanner.allowKey true).giveUp
  let (text, cursor) ← blockText? folds scanner.indent scanner.cursor
  return emit (.scalar text false) { scanner with cursor := cursor }

/-- A quoted text. -/
def quoted (quote : Char) (scanner : Scanner) : Option Scanner := do
  let scanner ← scanner.remember
  let (text, cursor) ← quotedText quote scanner.cursor
  return emit (.scalar text false) { scanner.allowKey false with cursor := cursor }

/-- A word; a key may start behind it where a line ended. -/
def plain (scanner : Scanner) : Option Scanner :=
  scanner.remember.map fun scanner =>
    let (text, cursor, broke) :=
      plainWord (scanner.depth != 0) (scanner.indent + 1) scanner.cursor
    emit (.scalar text true) { scanner.allowKey broke with cursor := cursor }

/-- The token that starts with a character, before what is left. -/
def token (c : Char) (behind : List Char) (scanner : Scanner) : Option Scanner :=
  let inBrackets := scanner.depth != 0
  let stands := inBrackets || gapAhead behind
  let atStart := scanner.cursor.column == 0
  if c == '%' && atStart then none
  else if atStart && markAhead '-' (c :: behind) then scanner.documentMark .documentStart
  else if atStart && markAhead '.' (c :: behind) then scanner.documentMark .documentEnd
  else if c == '[' then scanner.openMark .openBracket
  else if c == '\x7b' then scanner.openMark .openBrace
  else if c == ']' then scanner.closeMark .closeBracket
  else if c == '\x7d' then scanner.closeMark .closeBrace
  else if c == ',' then scanner.commaMark
  else if c == '-' && gapAhead behind then scanner.itemMark
  else if c == '?' && stands then scanner.keyMark
  else if c == ':' && stands then scanner.valueMark
  else if c == '|' && !inBrackets then scanner.block false
  else if c == '>' && !inBrackets then scanner.block true
  else if c == Text.apostrophe || c == Text.doubleQuote then scanner.quoted c
  else if startsWord inBrackets (c :: behind) then scanner.plain
  else none

/-- Scans up to the end; the fuel bounds the tokens. -/
def run : (fuel : Nat) → Scanner → Option Scanner
  | 0, _ => none
  | fuel + 1, scanner => do
      let (cursor, broke) := scanner.cursor.toToken scanner.cursor.fuel
      let allowed := scanner.keyAllowed || (broke && scanner.depth == 0)
      let scanner ← dropStale { scanner.allowKey allowed with cursor := cursor }
      let scanner := scanner.unwind cursor.column
      match cursor.rest with
      | [] => (scanner.unwind (-1)).giveUp
      | c :: behind => (← scanner.token c behind).run fuel

end Scanner

/-- The tokens of a text. -/
def tokens? (cs : List Char) : Option (List Token) :=
  let text := if cs.head? == some '\ufeff' then cs.drop 1 else cs
  let start : Scanner := { cursor := { rest := text } }
  (start.run (cs.length + 2)).map fun scanner => scanner.tokens.reverse

end Eaves.Yaml
