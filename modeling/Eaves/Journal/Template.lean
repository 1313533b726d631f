/-!
# Message templates

A template is text with fields.  A field starts with a percent sign and says, in this
order: which argument it takes (the next one, or one by its key), its flags, its
width, its precision, and its kind.  Two percent signs stand for one.  Reading a
template never fails: a field that is not finished is a field without a kind, and is
refused only when it is filled.
-/

namespace Eaves.Journal

/-- Where a field takes its argument from. -/
inductive Source where
  | next
  | key (name : String)
  /-- A key whose closing bracket is missing. -/
  | unclosed
  deriving DecidableEq, Repr

/-- A width or a precision. -/
inductive Extent where
  | fixed (n : Nat)
  /-- The next argument says. -/
  | given
  deriving DecidableEq, Repr

/-- The flags of a field. -/
structure Flags where
  /-- Filled up on the right. -/
  left : Bool := false
  /-- Numbers carry a sign. -/
  plus : Bool := false
  /-- Numbers without a sign have a blank in its place. -/
  blank : Bool := false
  /-- The long form of a number. -/
  long : Bool := false
  /-- Numbers are filled up with zeros. -/
  zero : Bool := false
  deriving DecidableEq, Repr

/-- A field of a template. -/
structure Field where
  source : Source := .next
  flags : Flags := {}
  width : Option Extent := none
  precision : Option Extent := none
  kind : Option Char := none
  /-- Where the kind stands in the template. -/
  position : Nat := 0
  deriving DecidableEq, Repr

/-- A piece of a template. -/
inductive Piece where
  | char (c : Char)
  | field (field : Field)
  deriving DecidableEq, Repr

namespace Template

/-- A key up to the bracket that closes it, and what follows; brackets inside come in pairs. -/
def takeKey : (depth : Nat) → List Char → Option (List Char × List Char)
  | _, [] => none
  | depth, c :: cs =>
      if c = ')' then
        match depth with
        | 0 => some ([], cs)
        | more + 1 => (takeKey more cs).map fun taken => (c :: taken.1, taken.2)
      else
        (takeKey (if c = '(' then depth + 1 else depth) cs).map fun taken =>
          (c :: taken.1, taken.2)

/-- The source of a field, and what follows. -/
def takeSource : List Char → Source × List Char
  | '(' :: cs =>
      match takeKey 0 cs with
      | some (name, rest) => (.key (String.ofList name), rest)
      | none => (.unclosed, [])
  | cs => (.next, cs)

/-- The flags with one more, when a character is a flag. -/
def addFlag? (flags : Flags) (c : Char) : Option Flags :=
  if c = '-' then some { flags with left := true }
  else if c = '+' then some { flags with plus := true }
  else if c = ' ' then some { flags with blank := true }
  else if c = '#' then some { flags with long := true }
  else if c = '0' then some { flags with zero := true }
  else none

/-- The flags at the start of a text, and what follows. -/
def takeFlags (flags : Flags) : List Char → Flags × List Char
  | [] => (flags, [])
  | c :: cs =>
      match addFlag? flags c with
      | some more => takeFlags more cs
      | none => (flags, c :: cs)

/-- The number that digits spell. -/
def number (digits : List Char) : Nat :=
  digits.foldl (fun value c => 10 * value + (c.toNat - 48)) 0

/-- A width at the start of a text, and what follows. -/
def takeExtent : List Char → Option Extent × List Char
  | '*' :: cs => (some .given, cs)
  | cs =>
      let digits := cs.takeWhile Char.isDigit
      (if digits.isEmpty then none else some (.fixed (number digits)), cs.drop digits.length)

/-- A precision at the start of a text, and what follows; a point alone means none. -/
def takePrecision : List Char → Option Extent × List Char
  | '.' :: cs =>
      let (extent, rest) := takeExtent cs
      (some (extent.getD (.fixed 0)), rest)
  | cs => (none, cs)

/-- What follows a mark of length, which says nothing. -/
def skipLength : List Char → List Char
  | c :: cs => if c = 'h' ∨ c = 'l' ∨ c = 'L' then cs else c :: cs
  | [] => []

/-- A field after its percent sign, and what follows it; `total` is the length of the whole
template. -/
def takeField (total : Nat) (cs : List Char) : Field × List Char :=
  let (source, rest) := takeSource cs
  let (flags, rest) := takeFlags {} rest
  let (width, rest) := takeExtent rest
  let (precision, rest) := takePrecision rest
  let rest := skipLength rest
  (⟨source, flags, width, precision, rest.head?, total - rest.length⟩, rest.drop 1)

/-- The pieces of the rest of a template; the fuel is its length. -/
def piecesFrom (total : Nat) : (fuel : Nat) → List Char → List Piece
  | 0, _ => []
  | _, [] => []
  | fuel + 1, c :: cs =>
      if c = '%' then
        match cs with
        | '%' :: rest => .char '%' :: piecesFrom total fuel rest
        | cs =>
            let (field, rest) := takeField total cs
            .field field :: piecesFrom total fuel rest
      else .char c :: piecesFrom total fuel cs

/-- The pieces of a template. -/
def pieces (template : String) : List Piece :=
  let cs := template.toList
  piecesFrom cs.length cs.length cs

/-! ## Layouts -/

/-- Whether a character may stand in the key of a layout's field. -/
def isKeyChar (c : Char) : Bool :=
  c.isAlphanum || c = '_'

/-- The kinds of fields in a layout. -/
def layoutKinds : List Char :=
  "diouxefgcrsa%".toList

/-- A text after a width; one without a width is kept. -/
def skipExtent (cs : List Char) : List Char :=
  (takeExtent cs).2

/-- A text after a precision, which needs digits or a star. -/
def skipPrecision : List Char → List Char
  | '.' :: cs => if (takeExtent cs).1.isSome then (takeExtent cs).2 else '.' :: cs
  | cs => cs

/-- Whether a text starts with a field that names its argument by a key. -/
def startsWithKeyed : List Char → Bool
  | '%' :: '(' :: cs =>
      let name := cs.takeWhile isKeyChar
      match cs.drop name.length with
      | ')' :: rest =>
          let rest := skipPrecision (skipExtent (takeFlags {} rest).2)
          !name.isEmpty && (rest.head?.map fun c => layoutKinds.contains c.toLower).getD false
      | _ => false
  | _ => false

/-- Whether some field of a template names its argument by a key. -/
def hasKeyed : List Char → Bool
  | [] => false
  | c :: cs => startsWithKeyed (c :: cs) || hasKeyed cs

end Template

end Eaves.Journal
