import Eaves.Document.Scalar
import Eaves.Document.Token

/-!
# YAML documents

The tokens of a document are put together to a value.  What is missing where a value may
stand is nothing.  Keys are texts, numbers and the like; a key that is repeated keeps its
place and takes the last value.  Fuel bounds the depth and the number of what is read.
-/

namespace Eaves.Yaml

/-- A value, and the tokens behind it. -/
abbrev Reading := Option (Value × List Token)

/-- Whether one of some tokens comes next. -/
def ahead (ends : List Token) (tokens : List Token) : Bool :=
  match tokens with
  | token :: _ => ends.contains token
  | [] => false

/-- The mapping of keys to values, in the order they were given. -/
def mapping? (pairs : List (Value × Value)) : Option Value :=
  (pairs.foldlM
    (fun (kept : Entries) pair => (keyText pair.1).map fun key => kept.put key pair.2) []).map
      .object

/-- What stands behind a comma. -/
def afterComma? : List Token → Option (List Token)
  | .comma :: rest => some rest
  | _ => none

mutual

/-- A value; outside of brackets it may be indented, and below a key a list may stand without
further indentation. -/
def node : (fuel : Nat) → (isBlock isBelow : Bool) → List Token → Reading
  | 0, _, _, _ => none
  | fuel + 1, isBlock, isBelow, tokens =>
      match tokens with
      | .item :: _ =>
          if isBelow then
            (looseItems fuel tokens).map fun (items, rest) => (.list items, rest)
          else none
      | .scalar text isWord :: rest =>
          (if isWord then scalar text else some (.text (String.ofList text))).map (·, rest)
      | .openBracket :: rest =>
          (bracketItems fuel true rest).map fun (items, rest) => (.list items, rest)
      | .openBrace :: rest => do
          let (pairs, rest) ← braceEntries fuel true rest
          return (← mapping? pairs, rest)
      | .openItems :: rest =>
          if isBlock then (items fuel rest).map fun (items, rest) => (.list items, rest) else none
      | .openEntries :: rest =>
          if isBlock then do
            let (pairs, rest) ← entries fuel rest
            return (← mapping? pairs, rest)
          else none
      | _ => none

/-- A value that may be missing before some tokens. -/
def nodeUnless (ends : List Token) : (fuel : Nat) → (isBlock isBelow : Bool) → List Token → Reading
  | 0, _, _, _ => none
  | fuel + 1, isBlock, isBelow, tokens =>
      if ahead ends tokens then some (.null, tokens) else node fuel isBlock isBelow tokens

/-- The items of an indented list. -/
def items : (fuel : Nat) → List Token → Option (List Value × List Token)
  | 0, _ => none
  | fuel + 1, tokens =>
      match tokens with
      | .item :: rest => do
          let (first, rest) ← nodeUnless [.item, .close] fuel true false rest
          let (more, rest) ← items fuel rest
          return (first :: more, rest)
      | .close :: rest => some ([], rest)
      | _ => none

/-- The items of a list that is not indented further than its key. -/
def looseItems : (fuel : Nat) → List Token → Option (List Value × List Token)
  | 0, _ => none
  | fuel + 1, tokens =>
      match tokens with
      | .item :: rest => do
          let (first, rest) ← nodeUnless [.item, .key, .value, .close] fuel true false rest
          let (more, rest) ← looseItems fuel rest
          return (first :: more, rest)
      | _ => some ([], tokens)

/-- The entries of an indented mapping. -/
def entries : (fuel : Nat) → List Token → Option (List (Value × Value) × List Token)
  | 0, _ => none
  | fuel + 1, tokens =>
      match tokens with
      | .key :: rest => do
          let ends := [.key, .value, .close]
          let (key, rest) ← nodeUnless ends fuel true true rest
          let (value, rest) ← member ends fuel true rest
          let (more, rest) ← entries fuel rest
          return ((key, value) :: more, rest)
      | .close :: rest => some ([], rest)
      | _ => none

/-- The value behind a key; nothing where no mark for it stands there. -/
def member (ends : List Token) : (fuel : Nat) → (isBlock : Bool) → List Token → Reading
  | 0, _, _ => none
  | fuel + 1, isBlock, tokens =>
      match tokens with
      | .value :: rest => nodeUnless ends fuel isBlock isBlock rest
      | _ => some (.null, tokens)

/-- The items of a list in brackets; before all but the first stands a comma.  An item with a
key is a mapping of one entry. -/
def bracketItems : (fuel : Nat) → (isFirst : Bool) → List Token → Option (List Value × List Token)
  | 0, _, _ => none
  | fuel + 1, isFirst, tokens =>
      match tokens with
      | .closeBracket :: rest => some ([], rest)
      | _ => do
          let tokens ← if isFirst then some tokens else afterComma? tokens
          match tokens with
          | .closeBracket :: rest => return ([], rest)
          | .key :: rest =>
              let (key, rest) ← nodeUnless [.value, .comma, .closeBracket] fuel false false rest
              let (value, rest) ← member [.comma, .closeBracket] fuel false rest
              let first ← mapping? [(key, value)]
              let (more, rest) ← bracketItems fuel false rest
              return (first :: more, rest)
          | _ =>
              let (first, rest) ← node fuel false false tokens
              let (more, rest) ← bracketItems fuel false rest
              return (first :: more, rest)

/-- The entries of a mapping in braces; before all but the first stands a comma.  A key without
a value stands for nothing. -/
def braceEntries : (fuel : Nat) → (isFirst : Bool) → List Token →
    Option (List (Value × Value) × List Token)
  | 0, _, _ => none
  | fuel + 1, isFirst, tokens =>
      match tokens with
      | .closeBrace :: rest => some ([], rest)
      | _ => do
          let tokens ← if isFirst then some tokens else afterComma? tokens
          match tokens with
          | .closeBrace :: rest => return ([], rest)
          | .key :: rest =>
              let (key, rest) ← nodeUnless [.value, .comma, .closeBrace] fuel false false rest
              let (value, rest) ← member [.comma, .closeBrace] fuel false rest
              let (more, rest) ← braceEntries fuel false rest
              return ((key, value) :: more, rest)
          | _ =>
              let (key, rest) ← node fuel false false tokens
              let (more, rest) ← braceEntries fuel false rest
              return ((key, .null) :: more, rest)

end

/-! ## Documents -/

/-- Whether a document may hold a character. -/
def isAllowed (c : Char) : Bool :=
  let n := c.toNat
  n == 9 || n == 10 || n == 13 || decide (0x20 ≤ n ∧ n ≤ 0x7E) || n == 0x85 ||
    decide (0xA0 ≤ n ∧ n ≤ 0xD7FF) || decide (0xE000 ≤ n ∧ n ≤ 0xFFFD) || decide (0x10000 ≤ n)

/-- The content of a document whose start is passed. -/
def content (tokens : List Token) : Reading :=
  if tokens.isEmpty then some (.null, [])
  else nodeUnless [.documentStart, .documentEnd] (4 * tokens.length + 4) true false tokens

/-- The value of the only document among tokens; where there is none it is nothing. -/
def document? (tokens : List Token) : Option Value := do
  let (value, rest) ←
    match tokens with
    | [] => some (.null, [])
    | .documentStart :: rest => content rest
    | _ => node (4 * tokens.length + 4) true false tokens
  if (rest.dropWhile (· == .documentEnd)).isEmpty then some value else none

/-- The value a document holds. -/
def parse? (text : String) : Option Value :=
  let cs := text.toList
  if cs.all isAllowed then (tokens? cs).bind document? else none

end Eaves.Yaml
