import Eaves.Address.Fault
import Eaves.Address.Label
import Eaves.Text.Numeral

/-!
# Escapes and hosts

Every part of an address keeps some visible ASCII characters for itself.  A character
that a part does not allow is written as the bytes of its code, each after a percent
sign.  The percent sign is always allowed, so what is escaped already stays as it is.

A host is four numbers, an address of the longer kind in square brackets, or a name.
What looks like one of the first two must be one.
-/

namespace Eaves.Address

/-! ## Escapes -/

/-- A character as the bytes of its code, each after a percent sign. -/
def escape (c : Char) : List Char :=
  (String.utf8EncodeChar c).flatMap fun byte =>
    '%' :: (Text.hexDigits 2 byte.toNat).map Char.toUpper

/-- Whether a character is visible and in ASCII. -/
def isVisible (c : Char) : Bool :=
  decide (0x21 ≤ c.toNat ∧ c.toNat ≤ 0x7E)

/-- A text with escapes for everything but the visible ASCII characters that are not
reserved. -/
def escaped (reserved cs : List Char) : List Char :=
  cs.flatMap fun c => if isVisible c && !reserved.contains c then [c] else escape c

/-- What is not allowed in a fragment. -/
def fragmentReserved : List Char := "\x22<>\x60".toList

/-- What is not allowed in a query. -/
def queryReserved : List Char := "\x22#<>".toList

/-- What is not allowed in a path. -/
def pathReserved : List Char := queryReserved ++ "?\x60\x7b\x7d".toList

/-- What is not allowed in the name of a user. -/
def userReserved : List Char := pathReserved ++ "/;=@[\\]^|".toList

/-- What is not allowed in the name of a host. -/
def hostReserved : List Char := "#/:<>?@[]^".toList

/-! ## Four numbers -/

/-- Whether a text is some digits, any character, some digits and so on, with so many
characters between digits. -/
def isNumbers : (between : Nat) → List Char → Bool
  | _, [] => false
  | 0, cs => cs.all Char.isDigit
  | between + 1, c :: cs =>
      c.isDigit && (isNumbers (between + 1) cs || isNumbers between (cs.drop 1))
termination_by _ cs => cs.length

/-- Whether a text is a number below 256, without a zero before it. -/
def isByte (cs : List Char) : Bool :=
  match Text.latinDigits? cs with
  | some n => decide (n < 256) && (toString n).toList == cs
  | none => false

/-- Whether a text is four numbers between full stops. -/
def isIPv4 (cs : List Char) : Bool :=
  let parts := Text.splitOn ['.'] cs
  parts.length == 4 && parts.all isByte

/-! ## The longer kind -/

/-- Whether a text is a number of at most four hexadecimal digits. -/
def isHextet (cs : List Char) : Bool :=
  !cs.isEmpty && decide (cs.length ≤ 4) && cs.all fun c =>
    (Text.digitIn? 16 c).isSome && c.toNat < 128

/-- What stands on one side of the gap; nothing at all may. -/
def besideGap (parts : List (List Char)) : List (List Char) :=
  if parts == [[]] then [] else parts

/-- Whether parts are eight numbers, or fewer with one gap for the rest. -/
def isHextets (parts : List (List Char)) : Bool :=
  let inner := (parts.drop 1).dropLast
  match (inner.filter List.isEmpty).length with
  | 0 => parts.length == 8 && parts.all isHextet
  | 1 =>
      let before := parts.take 1 ++ inner.takeWhile fun part => !part.isEmpty
      let high := besideGap before
      let low := besideGap (parts.drop (before.length + 1))
      decide (high.length + low.length < 8) && high.all isHextet && low.all isHextet
  | _ => false

/-- Whether a text is an address of the longer kind.  Its end may be written as four numbers,
and a percent sign may lead to the name of a zone. -/
def isIPv6 (cs : List Char) : Bool :=
  let number := cs.takeWhile (· ≠ '%')
  let zone := cs.drop number.length
  let parts := Text.splitOn [':'] number
  let last := parts.getLast?.getD []
  let zoned := zone.isEmpty || decide (1 < zone.length) && !(zone.drop 1).contains '%'
  zoned &&
    if last.contains '.' then
      decide (2 < parts.length) && isIPv4 last && isHextets (parts.dropLast ++ [['0'], ['0']])
    else isHextets parts

/-! ## Any host -/

/-- Whether a text stands in square brackets. -/
def isBracketed (cs : List Char) : Bool :=
  cs.head? == some '[' && cs.getLast? == some ']'

/-- A host as it is written in an address, without the brackets. -/
def readHost (cs : List Char) : Except AddressFault (List Char) :=
  if isNumbers 3 cs then
    if isIPv4 cs then .ok cs else .error (.invalidIPv4 (String.ofList cs))
  else if isBracketed cs then
    let inner := (cs.drop 1).dropLast
    if isIPv6 inner then .ok inner else .error (.invalidIPv6 (String.ofList cs))
  else if cs.all Punycode.isBasic then .ok (escaped hostReserved (cs.map Char.toLower))
  else
    match asciiName? cs with
    | some name => .ok name
    | none => .error (.invalidName (String.ofList cs))

end Eaves.Address
