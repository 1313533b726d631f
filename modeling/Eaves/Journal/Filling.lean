import Eaves.Failure
import Eaves.Journal.Template
import Eaves.Number.Scientific
import Eaves.Value.Literal

/-!
# Filling templates

The fields of a template are filled from left to right.  Arguments come in a list,
every one of which has to be used, or under keys.  A value that a field's kind does
not fit is refused.
-/

namespace Eaves.Journal

open Number (Binary64)

/-! ## Arguments -/

/-- Arguments of a message. -/
inductive Arguments where
  | listed (values : List Value)
  | keyed (entries : Entries)
  deriving Repr

/-- Arguments as they are handed in: an object that is alone, and not empty, holds them under
keys. -/
def Arguments.ofValues : List Value → Arguments
  | [.object (entry :: rest)] => .keyed (entry :: rest)
  | values => .listed values

/-- What fields take their arguments from. -/
structure Supply where
  entries : Option Entries
  /-- The values that the next fields take. -/
  pending : List Value

namespace Supply

/-- The supply at the start. -/
def ofArguments : Arguments → Supply
  | .listed values => ⟨none, values⟩
  | .keyed entries => ⟨some entries, [.object entries]⟩

/-- The supply for a field, by its source. -/
def select (supply : Supply) : Source → Outcome Supply
  | .next => .ok supply
  | .key name =>
      match supply.entries with
      | none => .error (.logArguments "format requires a mapping")
      | some entries =>
          match Entries.value? entries name with
          | some value => .ok { supply with pending := [value] }
          | none => .error (.noLogArgument name)
  | .unclosed =>
      match supply.entries with
      | none => .error (.logArguments "format requires a mapping")
      | some _ => .error (.logTemplate "incomplete format key")

/-- The next value, and the supply after it. -/
def take (supply : Supply) : Outcome (Value × Supply) :=
  match supply.pending with
  | value :: rest => .ok (value, { supply with pending := rest })
  | [] => .error (.logArguments "not enough arguments for format string")

/-- The greatest width and the greatest precision. -/
def greatestExtent : Nat := 2147483647

/-- A width or a precision that is not too great. -/
def checkExtent (what : String) (n : Int) : Outcome (Option Int) :=
  if n.natAbs ≤ greatestExtent then .ok (some n)
  else .error (.logTemplate (what ++ " too big"))

/-- The integer of a width or a precision, and the supply after it. -/
def takeExtent (supply : Supply) (what : String) :
    Option Extent → Outcome (Option Int × Supply)
  | none => .ok (none, supply)
  | some (.fixed n) => (checkExtent what n).map (·, supply)
  | some .given => do
      match ← supply.take with
      | (.int n, supply) => return (← checkExtent what n, supply)
      | (.bool truth, supply) => return (some (if truth then 1 else 0), supply)
      | _ => throw (.logArguments "* wants int")

/-- Whether every argument has been used. -/
def isUsed (supply : Supply) : Bool :=
  supply.entries.isSome || supply.pending.isEmpty

end Supply

/-! ## Values in fields -/

/-- A text in which characters outside the basic range are written by their code points. -/
def basicOnly (cs : List Char) : List Char :=
  cs.flatMap fun c =>
    if c.toNat < 128 then [c]
    else if c.toNat < 0x100 then ['\\', 'x'] ++ Text.hexDigits 2 c.toNat
    else if c.toNat < 0x10000 then ['\\', 'u'] ++ Text.hexDigits 4 c.toNat
    else ['\\', 'U'] ++ Text.hexDigits 8 c.toNat

/-- The refusal of a value by a kind of field. -/
def misfit (kind : Char) (wanted : String) (value : Value) : Failure :=
  .logArguments ("%" ++ String.singleton kind ++ " format: " ++ wanted ++ ", not " ++
    value.kindName)

/-- The integer that a value counts as where a decimal one is wanted. -/
def decimalInteger (kind : Char) : Value → Outcome Int
  | .int n => .ok n
  | .bool truth => .ok (if truth then 1 else 0)
  | .float x => liftNumber x.truncate
  | value => .error (misfit kind "a real number is required" value)

/-- The integer that a value counts as where another base is wanted. -/
def basedInteger (kind : Char) : Value → Outcome Int
  | .int n => .ok n
  | .bool truth => .ok (if truth then 1 else 0)
  | value => .error (misfit kind "an integer is required" value)

/-- The real number that a value counts as. -/
def realNumber : Value → Outcome Binary64
  | .int n => liftNumber (Binary64.ofInt n)
  | .bool truth => .ok (.finite (if truth then 1 else 0))
  | .float x => .ok x
  | value => .error (.logArguments ("must be real number, not " ++ value.kindName))

/-- The character that a value counts as. -/
def character : Value → Outcome Char
  | .text s =>
      match s.toList with
      | [c] => .ok c
      | _ => .error (.logArguments "%c requires int or char")
  | .int n =>
      if h : 0 ≤ n ∧ n.toNat.isValidChar then .ok (Char.ofNatAux n.toNat h.2)
      else .error (.number .noCharacter)
  | .bool truth => .ok (if truth then '\x01' else '\x00')
  | _ => .error (.logArguments "%c requires int or char")

/-- A number before it is filled up: its sign, the mark of its base, and its digits. -/
structure Figure where
  sign : List Char
  mark : List Char := []
  digits : List Char

/-- The sign that flags give a number that is not negative. -/
def Flags.sign (flags : Flags) : List Char :=
  if flags.plus then ['+'] else if flags.blank then [' '] else []

/-- An integer in a base, with at least as many digits as the precision says. -/
def integerFigure (flags : Flags) (base : Nat) (mark : List Char) (precision : Option Int)
    (n : Int) : Figure :=
  let digits := Nat.toDigits base n.natAbs
  let missing := (precision.getD 0).toNat - digits.length
  ⟨if n < 0 then ['-'] else flags.sign, if flags.long then mark else [],
    List.replicate missing '0' ++ digits⟩

/-- The digits of a magnitude in a kind of field; six places where none are said. -/
def realDigits (flags : Flags) (kind : Char) (precision : Option Int) (magnitude : Rat) :
    List Char :=
  let places := (precision.getD 6).toNat
  if kind = 'f' then Binary64.plainDigits flags.long places magnitude
  else if kind = 'e' then Binary64.scientificDigits flags.long places magnitude
  else Binary64.generalDigits flags.long (max places 1) magnitude

/-- A real number in a kind of field, given in small letters. -/
def realFigure (flags : Flags) (kind : Char) (precision : Option Int) (x : Binary64) : Figure :=
  let digits :=
    match x.abs.specialText with
    | some text => text.toList
    | none => realDigits flags kind precision x.toRat.abs
  ⟨if x.isNegative then ['-'] else flags.sign, [], digits⟩

/-- A figure in capital letters. -/
def Figure.capital (figure : Figure) : Figure :=
  { figure with mark := figure.mark.map Char.toUpper, digits := figure.digits.map Char.toUpper }

/-- What a field shows, before it is filled up. -/
inductive Content where
  | words (cs : List Char)
  | figure (figure : Figure)

/-- A text cut to a precision. -/
def cut (precision : Option Int) (cs : List Char) : List Char :=
  match precision with
  | some n => cs.take n.toNat
  | none => cs

/-- What a field of a kind shows of a value. -/
def content (flags : Flags) (precision : Option Int) (kind : Char) (position : Nat)
    (value : Value) : Outcome Content :=
  let integer (base : Nat) (mark : List Char) (n : Int) : Content :=
    .figure (integerFigure flags base mark precision n)
  let real (x : Binary64) : Content := .figure (realFigure flags kind.toLower precision x)
  let realCapital (x : Binary64) : Content :=
    .figure (realFigure flags kind.toLower precision x).capital
  match kind with
  | 's' => .ok (.words (cut precision value.shown.toList))
  | 'r' => .ok (.words (cut precision value.literal.toList))
  | 'a' => .ok (.words (cut precision (basicOnly value.literal.toList)))
  | 'c' => (character value).map fun c => .words [c]
  | 'd' | 'i' | 'u' => (decimalInteger kind value).map (integer 10 [])
  | 'o' => (basedInteger kind value).map (integer 8 ['0', 'o'])
  | 'x' => (basedInteger kind value).map (integer 16 ['0', 'x'])
  | 'X' =>
      (basedInteger kind value).map fun n =>
        .figure (integerFigure flags 16 ['0', 'x'] precision n).capital
  | 'e' | 'f' | 'g' => (realNumber value).map real
  | 'E' | 'F' | 'G' => (realNumber value).map realCapital
  | _ =>
      let shown := if 31 < kind.toNat ∧ kind.toNat < 128 then kind else '?'
      .error (.logTemplate ("unsupported format character '" ++ String.singleton shown ++
        "' (0x" ++ String.ofList (Text.hexDigits 1 kind.toNat) ++ ") at index " ++
        toString position))

/-- A content filled up to a width; a negative width fills up on the right. -/
def Content.fill (flags : Flags) (width : Int) (content : Content) : List Char :=
  let isLeft := flags.left || decide (width < 0)
  let blanks (length : Nat) : List Char := List.replicate (width.natAbs - length) ' '
  match content with
  | .words cs => if isLeft then cs ++ blanks cs.length else blanks cs.length ++ cs
  | .figure ⟨sign, mark, digits⟩ =>
      let cs := sign ++ mark ++ digits
      if isLeft then cs ++ blanks cs.length
      else if flags.zero then
        sign ++ mark ++ List.replicate (width.natAbs - cs.length) '0' ++ digits
      else blanks cs.length ++ cs

/-! ## Templates -/

/-- A field filled, and the supply after it. -/
def Field.fill (field : Field) (supply : Supply) : Outcome (List Char × Supply) := do
  let supply ← supply.select field.source
  let (width, supply) ← supply.takeExtent "width" field.width
  let (precision, supply) ← supply.takeExtent "precision" field.precision
  match field.kind with
  | none => throw (.logTemplate "incomplete format")
  | some kind =>
      let (value, supply) ← supply.take
      let shown ← content field.flags precision kind field.position value
      return (shown.fill field.flags (width.getD 0), supply)

/-- The text of pieces, when the supply is used up by them. -/
def fillPieces (supply : Supply) : List Piece → Outcome (List Char)
  | [] =>
      if supply.isUsed then .ok []
      else .error (.logArguments "not all arguments converted during string formatting")
  | .char c :: rest => (fillPieces supply rest).map (c :: ·)
  | .field field :: rest => do
      let (cs, supply) ← field.fill supply
      return cs ++ (← fillPieces supply rest)

/-- A template filled with arguments. -/
def fill (template : String) (arguments : Arguments) : Outcome String :=
  (fillPieces (.ofArguments arguments) (Template.pieces template)).map String.ofList

/-- A message; without arguments its text is no template. -/
def message (text : String) (arguments : List Value) : Outcome String :=
  if arguments.isEmpty then .ok text else fill text (.ofValues arguments)

end Eaves.Journal
