import Eaves.Text.Numeral
import Eaves.Text.Quoted
import Eaves.Value.Basic

/-!
# JSON

Reading is two passes over the text, each by recursion on it.  The first cuts the
text into tokens with a small state; the second keeps a stack of the containers
that are still open and closes them as their ends arrive.  A key that is repeated
in an object keeps its place and takes the last value.  The names of the
infinities and of the value that is not a number count as numbers.

Writing has two styles: everything on one line, or each member on a line of its
own, indented by two spaces per depth.
-/

namespace Eaves.Json

open Number (Binary64 Decimal)

/-! ## Tokens -/

/-- A token of a document. -/
inductive Token where
  | openObject
  | closeObject
  | openArray
  | closeArray
  | colon
  | comma
  | text (s : String)
  /-- A number or a name, as written. -/
  | bare (cs : List Char)
  deriving Repr

/-- What the reader is in the middle of. -/
inductive Lexing where
  /-- Between tokens. -/
  | between
  /-- Inside a bare token, latest character first. -/
  | inBare (soFar : List Char)
  /-- Inside a string, latest character first. -/
  | inText (soFar : List Char)
  /-- After a backslash inside a string. -/
  | afterEscape (soFar : List Char)
  /-- Inside a code unit of four hexadecimal digits; `high` is a first half that still waits
  for its second. -/
  | inUnit (soFar : List Char) (high : Option Nat) (left value : Nat)
  /-- After the first half of a pair of code units. -/
  | afterHigh (soFar : List Char) (high : Nat)
  /-- After the first half of a pair and a backslash. -/
  | afterHighEscape (soFar : List Char) (high : Nat)
  deriving Repr

/-- The single character tokens. -/
def punctuation? (c : Char) : Option Token :=
  if c = '\x7b' then some .openObject
  else if c = '\x7d' then some .closeObject
  else if c = '[' then some .openArray
  else if c = ']' then some .closeArray
  else if c = ':' then some .colon
  else if c = ',' then some .comma
  else none

/-- The blanks that may stand between tokens. -/
def isGap (c : Char) : Bool :=
  c = ' ' || c = '\t' || c = '\n' || c = '\r'

/-- The character shown by the letter after a backslash. -/
def escaped? (c : Char) : Option Char :=
  if c = Text.doubleQuote then some Text.doubleQuote
  else if c = '\\' then some '\\'
  else if c = '/' then some '/'
  else if c = 'b' then some '\x08'
  else if c = 'f' then some '\x0c'
  else if c = 'n' then some '\n'
  else if c = 'r' then some '\r'
  else if c = 't' then some '\t'
  else none

/-- The value of a hexadecimal digit. -/
def hexValue? (c : Char) : Option Nat :=
  if '0' ≤ c ∧ c ≤ '9' then some (c.toNat - '0'.toNat)
  else if 'a' ≤ c ∧ c ≤ 'f' then some (c.toNat - 'a'.toNat + 10)
  else if 'A' ≤ c ∧ c ≤ 'F' then some (c.toNat - 'A'.toNat + 10)
  else none

/-- Shown where half of a pair of code units stands alone. -/
def loneHalf : Char := '\ufffd'

/-- The state after the four digits of a code unit. -/
def afterUnit (soFar : List Char) (high : Option Nat) (value : Nat) : Lexing :=
  match high with
  | some first =>
      if 0xDC00 ≤ value ∧ value ≤ 0xDFFF then
        .inText (Char.ofNat (0x10000 + (first - 0xD800) * 0x400 + (value - 0xDC00)) :: soFar)
      else if 0xD800 ≤ value ∧ value ≤ 0xDBFF then .afterHigh (loneHalf :: soFar) value
      else .inText (Char.ofNat value :: loneHalf :: soFar)
  | none =>
      if 0xD800 ≤ value ∧ value ≤ 0xDBFF then .afterHigh soFar value
      else if 0xDC00 ≤ value ∧ value ≤ 0xDFFF then .inText (loneHalf :: soFar)
      else .inText (Char.ofNat value :: soFar)

/-- The step inside a string: the next state and the finished token, if any. -/
def stepText (soFar : List Char) (c : Char) : Option (Lexing × Option Token) :=
  if c = Text.doubleQuote then some (.between, some (.text (String.ofList soFar.reverse)))
  else if c = '\\' then some (.afterEscape soFar, none)
  else if c.toNat < 32 then none
  else some (.inText (c :: soFar), none)

/-- The step between tokens. -/
def stepBetween (c : Char) : Option (Lexing × Option Token) :=
  if isGap c then some (.between, none)
  else if c = Text.doubleQuote then some (.inText [], none)
  else
    match punctuation? c with
    | some token => some (.between, some token)
    | none => some (.inBare [c], none)

/-- One character: the next state and the tokens finished by it. -/
def step (state : Lexing) (c : Char) : Option (Lexing × List Token) :=
  match state with
  | .between => (stepBetween c).map fun next => (next.1, next.2.toList)
  | .inBare soFar =>
      let finished := Token.bare soFar.reverse
      if isGap c then some (.between, [finished])
      else if c = Text.doubleQuote then some (.inText [], [finished])
      else
        match punctuation? c with
        | some token => some (.between, [finished, token])
        | none => some (.inBare (c :: soFar), [])
  | .inText soFar => (stepText soFar c).map fun next => (next.1, next.2.toList)
  | .afterEscape soFar =>
      if c = 'u' then some (.inUnit soFar none 4 0, [])
      else (escaped? c).map fun shown => (.inText (shown :: soFar), [])
  | .inUnit soFar high left value =>
      (hexValue? c).map fun digit =>
        let value := value * 16 + digit
        if left ≤ 1 then (afterUnit soFar high value, [])
        else (.inUnit soFar high (left - 1) value, [])
  | .afterHigh soFar high =>
      if c = '\\' then some (.afterHighEscape soFar high, [])
      else (stepText (loneHalf :: soFar) c).map fun next => (next.1, next.2.toList)
  | .afterHighEscape soFar high =>
      if c = 'u' then some (.inUnit soFar (some high) 4 0, [])
      else (escaped? c).map fun shown => (.inText (shown :: loneHalf :: soFar), [])

/-- The tokens of a text, read from a state. -/
def tokensFrom : Lexing → List Char → Option (List Token)
  | .between, [] => some []
  | .inBare soFar, [] => some [.bare soFar.reverse]
  | _, [] => none
  | state, c :: cs =>
      match step state c with
      | none => none
      | some (next, tokens) => (tokensFrom next cs).map (tokens ++ ·)

/-! ## Numbers and names -/

/-- Whether digits form a whole part: no zero before another digit. -/
def isWholePart : List Char → Bool
  | [] => false
  | ['0'] => true
  | '0' :: _ => false
  | _ => true

/-- The number written by the characters. -/
def number? (cs : List Char) : Option Value :=
  let (negative, unsigned) :=
    match cs with
    | '-' :: rest => (true, rest)
    | _ => (false, cs)
  let whole := unsigned.takeWhile Char.isDigit
  let rest := unsigned.dropWhile Char.isDigit
  if !isWholePart whole then none
  else if rest.isEmpty then
    (Text.spelled? 10 whole).map fun n => .int (if negative then -(n : Int) else n)
  else
    let fractionFits :=
      match rest with
      | '.' :: more => more.headD ' ' |>.isDigit
      | _ => true
    if fractionFits && rest.all fun c => c != '_' && c.toNat < 128 then
      (Text.unsignedDecimal? negative unsigned).map fun decimal => .float decimal.toBinary64
    else none

/-- The value of a bare token. -/
def bare? (cs : List Char) : Option Value :=
  match String.ofList cs with
  | "null" => some .null
  | "true" => some (.bool true)
  | "false" => some (.bool false)
  | "NaN" => some (.float .nan)
  | "Infinity" => some (.float (.infinite false))
  | "-Infinity" => some (.float (.infinite true))
  | _ => number? cs

/-! ## Containers -/

/-- A container that is still open, with its members, latest first. -/
inductive Frame where
  | array (items : List Value)
  | object (entries : List (String × Value))
  /-- An object that waits for the value of a key. -/
  | member (entries : List (String × Value)) (key : String)

/-- What may come next. -/
inductive Expecting where
  | value
  | valueOrClose
  | key
  | keyOrClose
  | colon
  | commaOrClose
  /-- The document is complete. -/
  | finished (value : Value)

/-- The state of reading: what may come next, and the containers still open, innermost
first. -/
structure Reading where
  expecting : Expecting := .value
  frames : List Frame := []

/-- The entries of an object from those read, latest first. -/
def closeEntries (entries : List (String × Value)) : Entries :=
  entries.reverse.foldl (fun kept entry => Entries.put kept entry.1 entry.2) []

/-- Puts a finished value where it belongs. -/
def deliver (value : Value) : List Frame → Option Reading
  | [] => some ⟨.finished value, []⟩
  | .array items :: rest => some ⟨.commaOrClose, .array (value :: items) :: rest⟩
  | .member entries key :: rest =>
      some ⟨.commaOrClose, .object ((key, value) :: entries) :: rest⟩
  | .object _ :: _ => none

/-- The reading of one more token. -/
def accept (reading : Reading) (token : Token) : Option Reading :=
  match reading.expecting, token, reading.frames with
  | .value, .text s, frames | .valueOrClose, .text s, frames => deliver (.text s) frames
  | .value, .bare cs, frames | .valueOrClose, .bare cs, frames =>
      match bare? cs with
      | some value => deliver value frames
      | none => none
  | .value, .openArray, frames | .valueOrClose, .openArray, frames =>
      some ⟨.valueOrClose, .array [] :: frames⟩
  | .value, .openObject, frames | .valueOrClose, .openObject, frames =>
      some ⟨.keyOrClose, .object [] :: frames⟩
  | .valueOrClose, .closeArray, .array items :: rest
  | .commaOrClose, .closeArray, .array items :: rest => deliver (.list items.reverse) rest
  | .keyOrClose, .closeObject, .object entries :: rest
  | .commaOrClose, .closeObject, .object entries :: rest =>
      deliver (.object (closeEntries entries)) rest
  | .key, .text s, .object entries :: rest | .keyOrClose, .text s, .object entries :: rest =>
      some ⟨.colon, .member entries s :: rest⟩
  | .colon, .colon, frames => some ⟨.value, frames⟩
  | .commaOrClose, .comma, .array items :: rest => some ⟨.value, .array items :: rest⟩
  | .commaOrClose, .comma, .object entries :: rest => some ⟨.key, .object entries :: rest⟩
  | _, _, _ => none

/-- The value a list of tokens makes up, from a reading on. -/
def readTokens : Reading → List Token → Option Value
  | reading, [] =>
      match reading.expecting with
      | .finished value => some value
      | _ => none
  | reading, token :: rest =>
      match accept reading token with
      | some next => readTokens next rest
      | none => none

/-- The value a text holds. -/
def parse? (text : String) : Option Value :=
  (tokensFrom .between text.toList).bind (readTokens {})

/-! ## Writing -/

/-- How a document is laid out, and which characters of a string are written as they are. -/
structure Style where
  /-- Each member on a line of its own. -/
  indented : Bool := false
  /-- Characters beyond ASCII are written as code units. -/
  asciiOnly : Bool := true
  /-- Numbers without digits are written as nothing. -/
  finiteOnly : Bool := false

/-- A code unit as written. -/
def unitText (n : Nat) : List Char :=
  ['\\', 'u'] ++ Text.hexDigits 4 n

/-- A character inside a written string. -/
def writeChar (style : Style) (c : Char) : List Char :=
  if c = Text.doubleQuote then ['\\', Text.doubleQuote]
  else if c = '\\' then ['\\', '\\']
  else if c = '\n' then ['\\', 'n']
  else if c = '\r' then ['\\', 'r']
  else if c = '\t' then ['\\', 't']
  else if c = '\x08' then ['\\', 'b']
  else if c = '\x0c' then ['\\', 'f']
  else if c.toNat < 32 then unitText c.toNat
  else if style.asciiOnly ∧ 127 ≤ c.toNat then
    if c.toNat < 0x10000 then unitText c.toNat
    else
      let offset := c.toNat - 0x10000
      unitText (0xD800 + offset / 0x400) ++ unitText (0xDC00 + offset % 0x400)
  else [c]

/-- A written string. -/
def writeText (style : Style) (s : String) : List Char :=
  Text.doubleQuote :: s.toList.flatMap (writeChar style) ++ [Text.doubleQuote]

/-- A written number. -/
def writeFloat (style : Style) (x : Binary64) : List Char :=
  match x with
  | .nan => if style.finiteOnly then "null".toList else "NaN".toList
  | .infinite negative =>
      if style.finiteOnly then "null".toList
      else if negative then "-Infinity".toList else "Infinity".toList
  | _ => x.shortest.toList

/-- A line break and the indentation of a depth; nothing where all is on one line. -/
def lineBreak (style : Style) (depth : Nat) : List Char :=
  if style.indented then '\n' :: List.replicate (2 * depth) ' ' else []

/-- What stands between members. -/
def separator (style : Style) (depth : Nat) : List Char :=
  if style.indented then ',' :: lineBreak style depth else [',', ' ']

/-- A container from its written members. -/
def enclose (style : Style) (depth : Nat) (first last : Char) (members : List (List Char)) :
    List Char :=
  if members.isEmpty then [first, last]
  else
    first :: lineBreak style (depth + 1) ++
      (separator style (depth + 1)).intercalate members ++ lineBreak style depth ++ [last]

mutual

/-- A written value, at a depth. -/
def write (style : Style) (depth : Nat) : Value → List Char
  | .null => "null".toList
  | .bool truth => if truth then "true".toList else "false".toList
  | .int n => (toString n).toList
  | .float x => writeFloat style x
  | .text s => writeText style s
  | .list items => enclose style depth '[' ']' (writeItems style (depth + 1) items)
  | .object entries => enclose style depth '\x7b' '\x7d' (writeEntries style (depth + 1) entries)
  -- plain data holds no terms
  | _ => "null".toList

/-- The written items of a list. -/
def writeItems (style : Style) (depth : Nat) : List Value → List (List Char)
  | [] => []
  | item :: rest => write style depth item :: writeItems style depth rest

/-- The written entries of an object. -/
def writeEntries (style : Style) (depth : Nat) : List (String × Value) → List (List Char)
  | [] => []
  | (key, value) :: rest =>
      (writeText style key ++ [':', ' '] ++ write style depth value) ::
        writeEntries style depth rest

end

/-- A value as a document; terms are written as plain data. -/
def render (style : Style) (value : Value) : String :=
  String.ofList (write style 0 value.plain)

end Eaves.Json
