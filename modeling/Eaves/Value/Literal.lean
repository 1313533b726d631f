import Eaves.Text.Quoted
import Eaves.Value.Basic
import Eaves.Number.Decimal

/-!
# Values inside messages

A value as it is shown in a message: a text stands for itself, everything else is
written as it would be inside a list, where texts are quoted.  A term is shown by what
it is called, or by its fields.
-/

namespace Eaves

/-! ## Terms -/

section

variable {α : Type} [Vocabulary α]

/-- A term of a vocabulary as it is shown. -/
def memberName (member : α) : String :=
  Vocabulary.title α ++ "." ++ (Vocabulary.word member).toUpper

/-- A term of a vocabulary as it is written inside a list. -/
def memberLiteral (member : α) : String :=
  "<" ++ memberName member ++ ": " ++ Text.quoted (Vocabulary.word member) ++ ">"

end

/-- Items as a list is written. -/
def listLiteral (items : List String) : String :=
  "[" ++ ", ".intercalate items ++ "]"

/-- A truth value as it is written. -/
def truthLiteral (truth : Bool) : String :=
  if truth then "True" else "False"

/-- A record as it is written: what it is called, and its fields in order. -/
structure Portrait where
  title : String
  fields : List (String × String)

namespace Portrait

/-- Every field with its value. -/
def pairs (portrait : Portrait) : List String :=
  portrait.fields.map fun (name, value) => name ++ "=" ++ value

/-- A record as it is shown. -/
def shown (portrait : Portrait) : String :=
  " ".intercalate portrait.pairs

/-- A record as it is written inside a list. -/
def literal (portrait : Portrait) : String :=
  portrait.title ++ "(" ++ ", ".intercalate portrait.pairs ++ ")"

end Portrait

/-- A colour as it is written. -/
def Color.portrait (color : Color) : Portrait :=
  ⟨"RGBColor", (["r", "g", "b", "w"].zip color.rgbw).map fun (name, n) => (name, toString n)⟩

/-- A range as it is written. -/
def PixelRange.portrait (range : PixelRange) : Portrait :=
  ⟨"PixelRange", [("start", toString range.first), ("end", toString range.last)]⟩

/-- A zone as it is written. -/
def Zone.portrait (zone : Zone) : Portrait :=
  let (title, fields) : String × List (String × String) :=
    match zone with
    | .all => ("AllZone", [])
    | .segments ids => ("SegmentsZone", [("segment_ids", listLiteral (ids.val.map Text.quoted))])
    | .features named =>
        ("ArchitecturalZone", [("roles", listLiteral (named.val.map memberLiteral))])
    | .side face => ("LocationZone", [("location", memberLiteral face)])
    | .level storey => ("LevelZone", [("level", toString storey.val)])
    | .custom spans =>
        ("CustomZone",
          [("pixel_ranges", listLiteral (spans.val.map fun span => span.portrait.literal))])
  ⟨title, ("kind", Text.quoted zone.tag) :: fields⟩

/-- A spacing rule as it is written. -/
def Spacing.portrait (rule : Spacing) : Portrait :=
  let (title, fields) : String × List (String × String) :=
    match rule with
    | .pattern on off startLit =>
        ("PatternSpacing", [("on_count", toString on), ("off_count", toString off),
          ("start_with_on", truthLiteral startLit)])
    | .equallySpaced count => ("EquallySpaced", [("count", toString count)])
    | .everyNth interval => ("EveryNth", [("interval", toString interval)])
    | .anchorsOnly => ("AnchorsOnly", [])
    | .continuous => ("Continuous", [])
  ⟨title, ("kind", Text.quoted rule.tag) :: fields⟩

/-! ## Values -/

mutual

/-- A value as it is written inside a list. -/
def Value.literal : Value → String
  | .null => "None"
  | .bool truth => truthLiteral truth
  | .int n => toString n
  | .float x => x.shortest
  | .text s => Text.quoted s
  | .list items => listLiteral (literalItems items)
  | .object entries => "\x7b" ++ ", ".intercalate (literalEntries entries) ++ "\x7d"
  | .date written => written
  | .color color => color.portrait.literal
  | .zone zone => zone.portrait.literal
  | .spacing rule => rule.portrait.literal
  | .direction direction => memberLiteral direction
  | .motion kind => memberLiteral kind
  | .speed preset => memberLiteral preset

/-- Every item as it is written. -/
def literalItems : List Value → List String
  | [] => []
  | item :: rest => item.literal :: literalItems rest

/-- Every entry as it is written. -/
def literalEntries : List (String × Value) → List String
  | [] => []
  | (key, value) :: rest => (Text.quoted key ++ ": " ++ value.literal) :: literalEntries rest

end

/-- A value as it is shown. -/
def Value.shown : Value → String
  | .text s => s
  | .color shade => shade.portrait.shown
  | .zone part => part.portrait.shown
  | .spacing rule => rule.portrait.shown
  | .direction way => memberName way
  | .motion kind => memberName kind
  | .speed preset => memberName preset
  | value => value.literal

mutual

/-- A value with its records as they are shown. -/
def Value.told : Value → Value
  | .list items => .list (toldItems items)
  | .object entries => .object (toldEntries entries)
  | .date written => .text written
  | .color color => .text color.portrait.shown
  | .zone zone => .text zone.portrait.shown
  | .spacing rule => .text rule.portrait.shown
  | .direction direction => .ofWord direction
  | .motion kind => .ofWord kind
  | .speed preset => .ofWord preset
  | .null => .null
  | .bool truth => .bool truth
  | .int n => .int n
  | .float x => .float x
  | .text s => .text s

/-- Every item with its records as they are shown. -/
def toldItems : List Value → List Value
  | [] => []
  | item :: rest => item.told :: toldItems rest

/-- Every entry with its records as they are shown. -/
def toldEntries : List (String × Value) → List (String × Value)
  | [] => []
  | (key, value) :: rest => (key, value.told) :: toldEntries rest

end

/-- What a kind of value is called. -/
def Value.kindName : Value → String
  | .null => "NoneType"
  | .bool _ => "bool"
  | .int _ => "int"
  | .float _ => "float"
  | .text _ => "str"
  | .list _ => "list"
  | .object _ => "dict"
  | .date _ => "date"
  | .color shade => shade.portrait.title
  | .zone part => part.portrait.title
  | .spacing rule => rule.portrait.title
  | .direction _ => Vocabulary.title Direction
  | .motion _ => Vocabulary.title MotionKind
  | .speed _ => Vocabulary.title SpeedPreset

end Eaves
