import Eaves.Design.Layer

/-!
# Untyped values

Some slots of a design carry whatever was put there: the value behind a choice, a
ready-made preview.  A value is plain data as found in documents, or a term of the
domain put there by the program itself.  Written out, a term becomes plain data;
nothing tells the plain form from data that never was a term.
-/

namespace Eaves

open Number (Binary64)

/-- Plain data, or a term of the domain in a slot for data. -/
inductive Value where
  | null
  | bool (truth : Bool)
  | int (n : Int)
  | float (x : Binary64)
  | text (s : String)
  | list (items : List Value)
  | object (entries : List (String × Value))
  /-- A day or a moment of a document, as it is written there. -/
  | date (written : String)
  | color (color : Color)
  | zone (zone : Zone)
  | spacing (rule : Spacing)
  | direction (direction : Direction)
  | motion (kind : MotionKind)
  | speed (preset : SpeedPreset)
  deriving Repr

instance : Inhabited Value := ⟨.null⟩

/-- The keys and values of an object, in the order they were given. -/
abbrev Entries := List (String × Value)

namespace Entries

/-- The value under a key. -/
def value? (entries : Entries) (key : String) : Option Value :=
  List.lookup key entries

/-- Puts a value under a key; a key that is there keeps its place. -/
def put (entries : Entries) (key : String) (value : Value) : Entries :=
  if entries.any fun entry => entry.1 == key then
    entries.map fun entry => if entry.1 == key then (key, value) else entry
  else entries ++ [(key, value)]

end Entries

namespace Value

/-- A text, or nothing. -/
def ofText? : Option String → Value
  | some s => .text s
  | none => .null

/-- A word of a vocabulary. -/
def ofWord {α : Type} [Vocabulary α] (member : α) : Value :=
  .text (Vocabulary.word member)

/-- A list of integers. -/
def ofInts (ns : List Int) : Value :=
  .list (ns.map .int)

/-- The members of an optional value, or nothing. -/
def ofOption {α : Type} (write : α → Value) : Option α → Value
  | some value => write value
  | none => .null

end Value

/-! ## Terms as plain data -/

/-- A level as data. -/
def Level.toValue (level : Level) : Value :=
  .int level.toInt

/-- A colour as data. -/
def Color.toValue (color : Color) : Value :=
  .object [("r", color.red.toValue), ("g", color.green.toValue), ("b", color.blue.toValue),
    ("w", color.white.toValue)]

/-- A range as data. -/
def PixelRange.toValue (range : PixelRange) : Value :=
  .object [("start", .int range.first), ("end", .int range.last)]

/-- A zone as data. -/
def Zone.toValue (zone : Zone) : Value :=
  let rest : Entries :=
    match zone with
    | .all => []
    | .segments ids => [("segment_ids", .list (ids.val.map .text))]
    | .features named => [("roles", .list (named.val.map .ofWord))]
    | .side face => [("location", .ofWord face)]
    | .level storey => [("level", .int storey.val)]
    | .custom spans => [("pixel_ranges", .list (spans.val.map PixelRange.toValue))]
  .object (("kind", .text zone.tag) :: rest)

/-- A spacing rule as data. -/
def Spacing.toValue (rule : Spacing) : Value :=
  let rest : Entries :=
    match rule with
    | .pattern on off startLit =>
        [("on_count", .int on), ("off_count", .int off), ("start_with_on", .bool startLit)]
    | .equallySpaced count => [("count", .int count)]
    | .everyNth interval => [("interval", .int interval)]
    | .anchorsOnly | .continuous => []
  .object (("kind", .text rule.tag) :: rest)

mutual

/-- A value as plain data: every term is written out. -/
def Value.plain : Value → Value
  | .list items => .list (plainItems items)
  | .object entries => .object (plainEntries entries)
  | .date written => .text written
  | .color color => color.toValue
  | .zone zone => zone.toValue
  | .spacing rule => rule.toValue
  | .direction direction => .ofWord direction
  | .motion kind => .ofWord kind
  | .speed preset => .ofWord preset
  | .null => .null
  | .bool truth => .bool truth
  | .int n => .int n
  | .float x => .float x
  | .text s => .text s

/-- Every item as plain data. -/
def plainItems : List Value → List Value
  | [] => []
  | item :: rest => item.plain :: plainItems rest

/-- Every entry's value as plain data. -/
def plainEntries : List (String × Value) → List (String × Value)
  | [] => []
  | (key, value) :: rest => (key, value.plain) :: plainEntries rest

end

namespace Value

@[simp]
theorem plain_null : null.plain = null :=
  rfl

@[simp]
theorem plain_bool (truth : Bool) : (bool truth).plain = bool truth :=
  rfl

@[simp]
theorem plain_int (n : Int) : (int n).plain = int n :=
  rfl

@[simp]
theorem plain_float (x : Binary64) : (float x).plain = float x :=
  rfl

@[simp]
theorem plain_text (s : String) : (text s).plain = text s :=
  rfl

@[simp]
theorem plain_list (items : List Value) : (list items).plain = list (plainItems items) :=
  rfl

@[simp]
theorem plain_object (entries : Entries) : (object entries).plain = object (plainEntries entries) :=
  rfl

end Value

@[simp]
theorem plainItems_nil : plainItems [] = [] :=
  rfl

@[simp]
theorem plainItems_cons (item : Value) (rest : List Value) :
    plainItems (item :: rest) = item.plain :: plainItems rest :=
  rfl

@[simp]
theorem plainEntries_nil : plainEntries [] = [] :=
  rfl

@[simp]
theorem plainEntries_cons (key : String) (value : Value) (rest : Entries) :
    plainEntries ((key, value) :: rest) = (key, value.plain) :: plainEntries rest :=
  rfl

mutual

/-- The whole numbers in a value, in order. -/
def Value.wholes : Value → List Int
  | .int n => [n]
  | .list items => itemWholes items
  | .object entries => entryWholes entries
  | _ => []

/-- The whole numbers in every item. -/
def itemWholes : List Value → List Int
  | [] => []
  | item :: rest => item.wholes ++ itemWholes rest

/-- The whole numbers in every entry's value. -/
def entryWholes : List (String × Value) → List Int
  | [] => []
  | (_, value) :: rest => value.wholes ++ entryWholes rest

end

end Eaves
