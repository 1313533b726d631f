import Eaves.Proofs.Record.Written
import Eaves.Record.Pixels

/-!
# The form of a design's data

Each record of a design promises a form of the data it is written as: which fields
there are, which of them are words of a vocabulary, and the bounds of those that are
numbers.  The forms are stated about plain data, without the types in which the
program keeps levels, counts and ranges.

The data of a design has its form exactly if the design can be read back: all that
its types leave open is its confidence and the places of its gradients' stops.
-/

namespace Eaves

open Number (Binary64)

/-! ## Forms of data -/

/-- A form of data: the values that have it. -/
abbrev Form := Value → Prop

namespace Form

def truth : Form
  | .bool _ => True
  | _ => False

def text : Form
  | .text _ => True
  | _ => False

def whole : Form
  | .int _ => True
  | _ => False

/-- A whole number from a least one on. -/
def wholeFrom (least : Int) : Form
  | .int n => least ≤ n
  | _ => False

/-- A whole number between two others, both included. -/
def wholeWithin (least most : Int) : Form
  | .int n => least ≤ n ∧ n ≤ most
  | _ => False

/-- A level of a channel, of brightness, of speed or of intensity. -/
def level : Form := wholeWithin 0 255

/-- A real number between zero and one, both included. -/
def share : Form
  | .float x => x.isFinite = true ∧ 0 ≤ x.toRat ∧ x.toRat ≤ 1
  | _ => False

/-- A word of a vocabulary. -/
def wordOf (α : Type) [Vocabulary α] : Form
  | .text s => ∃ member : α, Vocabulary.word member = s
  | _ => False

/-- Anything at all. -/
def any : Form := fun _ => True

/-- An object with any keys. -/
def entries : Form
  | .object _ => True
  | _ => False

def nothingOr (form : Form) : Form
  | .null => True
  | value => form value

def listOf (form : Form) : Form
  | .list items => ∀ item ∈ items, form item
  | _ => False

def nonEmptyListOf (form : Form) : Form
  | .list items => items ≠ [] ∧ ∀ item ∈ items, form item
  | _ => False

/-- Entries with exactly the given keys, in order, each of its form. -/
def Fields (fields : List (String × Form)) (es : Entries) : Prop :=
  List.Forall₂ (fun field entry => entry.1 = field.1 ∧ field.2 entry.2) fields es

def record (fields : List (String × Form)) : Form
  | .object es => Fields fields es
  | _ => False

/-- A record of one of several kinds; the entry `kind`, in front, says which. -/
def oneOf (kinds : List (String × List (String × Form))) : Form
  | .object es => ∃ kind ∈ kinds, Fields (("kind", (· = .text kind.1)) :: kind.2) es
  | _ => False

/-- A first and a last position, the first of them at least zero and none after the last. -/
def Stretch (first last : String) (es : Entries) : Prop :=
  ∃ m n : Int, es.value? first = some (.int m) ∧ es.value? last = some (.int n) ∧ 0 ≤ m ∧ m ≤ n

end Form

open Form

/-- The form of a colour: four levels. -/
def Color.form : Form :=
  record [("r", level), ("g", level), ("b", level), ("w", level)]

/-- The form of a range of lights. -/
def PixelRange.form : Form
  | .object es => Fields [("start", whole), ("end", whole)] es ∧ Stretch "start" "end" es
  | _ => False

/-- The form of a group of lights. -/
def Group.form : Form
  | .object es =>
      Fields [("start_led", whole), ("end_led", whole), ("color", Color.form)] es ∧
        Stretch "start_led" "end_led" es
  | _ => False

/-- The form of a zone: what a zone names is never nothing, and storeys count from one. -/
def Zone.form : Form :=
  oneOf [("all", []), ("segments", [("segment_ids", nonEmptyListOf text)]),
    ("architectural", [("roles", nonEmptyListOf (wordOf Feature))]),
    ("location", [("location", wordOf Side)]), ("level", [("level", wholeFrom 1)]),
    ("custom", [("pixel_ranges", nonEmptyListOf PixelRange.form)])]

/-- The form of a spacing rule: its counts may be any numbers, since checking a rule is what
finds out which of them can be lit. -/
def Spacing.form : Form :=
  oneOf [("pattern", [("on_count", whole), ("off_count", whole), ("start_with_on", truth)]),
    ("equally_spaced", [("count", whole)]), ("every_nth", [("interval", whole)]),
    ("anchors_only", []), ("continuous", [])]

/-- The form of a layer's colours. -/
def Coloring.form : Form :=
  record [("primary", Color.form), ("primary_name", text), ("secondary", nothingOr Color.form),
    ("accent", nothingOr Color.form), ("fill", nothingOr Color.form),
    ("spacing", nothingOr Spacing.form), ("accepted_spacing", nothingOr Spacing.form)]

/-- The form of a stop of a gradient. -/
def GradientStop.form : Form :=
  record [("position", share), ("color", Color.form)]

/-- The form of a pattern. -/
def Pattern.form : Form :=
  record [("type", wordOf Layout), ("gradient_stops", listOf GradientStop.form)]

/-- The number of an effect of the catalogue. -/
def Effect.form : Form
  | .int n => ∃ effect : Effect, (effect.id : Int) = n
  | _ => False

/-- The form of a motion. -/
def Motion.form : Form :=
  record [("motion_type", wordOf MotionKind), ("direction", wordOf Direction), ("speed", level),
    ("intensity", level), ("reverse", truth), ("effect", nothingOr Effect.form)]

/-- The form of a layer. -/
def Layer.form : Form :=
  record [("id", text), ("name", text), ("zone", Zone.form), ("colors", Coloring.form),
    ("pattern", Pattern.form), ("motion", nothingOr Motion.form), ("priority", whole),
    ("enabled", truth)]

/-- The form of a choice; what stands behind it may be anything. -/
def Choice.form : Form :=
  record [("id", text), ("label", text), ("description", text), ("is_recommended", truth),
    ("value", any), ("preview", nothingOr entries)]

/-- The form of a flag. -/
def Ambiguity.form : Form :=
  record [("type", wordOf AmbiguityKind), ("description", text), ("source_clause", text),
    ("affected_layer_id", nothingOr text), ("choices", listOf Choice.form)]

/-- The form of a design's settings. -/
def SceneSettings.form : Form :=
  record [("brightness", level), ("smooth_transition", truth), ("transition_ms", wholeFrom 0)]

/-- The form of a design. -/
def Intent.form : Form :=
  record [("original_prompt", text), ("layers", listOf Layer.form),
    ("ambiguities", listOf Ambiguity.form), ("confidence", share),
    ("global_settings", SceneSettings.form)]

/-! ## What is written has its form -/

namespace Form

variable {α : Type} {write : α → Value} {form : Form}

@[simp]
theorem fields_nil : Fields [] [] :=
  .nil

@[simp]
theorem fields_cons {field : String × Form} {fields : List (String × Form)}
    {entry : String × Value} {es : Entries} :
    Fields (field :: fields) (entry :: es) ↔
      (entry.1 = field.1 ∧ field.2 entry.2) ∧ Fields fields es :=
  List.forall₂_cons

@[simp]
theorem level_toValue (own : Level) : level own.toValue := by
  have bound := own.isLt
  refine ⟨Int.natCast_nonneg _, ?_⟩
  unfold Level.toInt
  omega

@[simp]
theorem wordOf_ofWord [Vocabulary α] (member : α) : wordOf α (.ofWord member) :=
  ⟨member, rfl⟩

@[simp]
theorem nothingOr_ofText? (own : Option String) : nothingOr text (.ofText? own) := by
  cases own <;> trivial

theorem nothingOr_ofOption (each : ∀ member, form (write member)) (own : Option α) :
    nothingOr form (.ofOption write own) := by
  cases own with
  | none => trivial
  | some member =>
      have own := each member
      rw [Value.ofOption]
      unfold nothingOr
      split
      · trivial
      · exact own

theorem listOf_map {members : List α} (each : ∀ member ∈ members, form (write member)) :
    listOf form (.list (members.map write)) := by
  intro item mem
  rcases List.mem_map.mp mem with ⟨member, memberMem, rfl⟩
  exact each member memberMem

theorem nonEmptyListOf_map {members : NonEmpty α} (each : ∀ member, form (write member)) :
    nonEmptyListOf form (.list (members.val.map write)) :=
  ⟨by simpa using members.property, listOf_map fun member _ => each member⟩

theorem share_float_iff {x : Binary64} : share (.float x) ↔ x.IsUnit :=
  Binary64.isUnit_iff.symm

end Form

theorem Color.form_toValue (color : Color) : Color.form color.toValue := by
  simp [form, toValue, record]

theorem PixelRange.form_toValue (range : PixelRange) : PixelRange.form range.toValue := by
  refine ⟨by simp [whole], range.first, range.last, rfl, rfl, Int.natCast_nonneg _, ?_⟩
  exact_mod_cast range.ordered

theorem Group.form_toValue (group : Group) : Group.form group.toValue := by
  refine ⟨by simp [whole, Color.form_toValue], group.first, group.last, rfl, rfl,
    Int.natCast_nonneg _, ?_⟩
  exact_mod_cast group.ordered

theorem Zone.form_toValue (zone : Zone) : Zone.form zone.toValue := by
  unfold Zone.form Zone.toValue oneOf
  cases zone with
  | all => simp [Zone.tag]
  | segments ids =>
      have named : nonEmptyListOf text (.list (ids.val.map .text)) :=
        nonEmptyListOf_map fun _ => trivial
      refine ⟨_, .tail _ (.head _), ?_⟩
      simp [Zone.tag, named]
  | features named =>
      have words : nonEmptyListOf (wordOf Feature) (.list (named.val.map .ofWord)) :=
        nonEmptyListOf_map wordOf_ofWord
      refine ⟨_, .tail _ (.tail _ (.head _)), ?_⟩
      simp [Zone.tag, words]
  | side face =>
      refine ⟨_, .tail _ (.tail _ (.tail _ (.head _))), ?_⟩
      simp [Zone.tag]
  | level storey =>
      have fromOne : wholeFrom 1 (.int storey.val) := by
        have := storey.property
        unfold wholeFrom
        omega
      refine ⟨_, .tail _ (.tail _ (.tail _ (.tail _ (.head _)))), ?_⟩
      simp [Zone.tag, fromOne]
  | custom spans =>
      have ranges : nonEmptyListOf PixelRange.form (.list (spans.val.map PixelRange.toValue)) :=
        nonEmptyListOf_map PixelRange.form_toValue
      refine ⟨_, .tail _ (.tail _ (.tail _ (.tail _ (.tail _ (.head _))))), ?_⟩
      simp [Zone.tag, ranges]

theorem Spacing.form_toValue (rule : Spacing) : Spacing.form rule.toValue := by
  unfold Spacing.form Spacing.toValue oneOf
  cases rule <;> simp [Spacing.tag, whole, truth]

theorem Coloring.form_toValue (coloring : Coloring) : Coloring.form coloring.toValue := by
  simp [Coloring.form, toValue, record, text, Color.form_toValue,
    nothingOr_ofOption Color.form_toValue, nothingOr_ofOption Spacing.form_toValue]

theorem Motion.form_toValue (motion : Motion) : Motion.form motion.toValue := by
  have effect := nothingOr_ofOption
    (fun effect : Effect => show Effect.form (.int effect.id) from ⟨effect, rfl⟩) motion.effect
  simp [Motion.form, toValue, record, truth, effect]

theorem Choice.form_toValue (choice : Choice) : Choice.form choice.toValue := by
  have preview := nothingOr_ofOption
    (fun es : Entries => show entries (.object es) from trivial) choice.preview
  simp [Choice.form, toValue, record, text, truth, any, preview]

theorem Ambiguity.form_toValue (flag : Ambiguity) : Ambiguity.form flag.toValue := by
  have choices := listOf_map fun choice (_ : choice ∈ flag.choices) => choice.form_toValue
  simp [Ambiguity.form, toValue, record, text, choices]

theorem SceneSettings.form_toValue (settings : SceneSettings) :
    SceneSettings.form settings.toValue := by
  simp [SceneSettings.form, toValue, record, truth, wholeFrom]

theorem GradientStop.form_toValue_iff {stop : GradientStop} :
    GradientStop.form stop.toValue ↔ stop.position.IsUnit := by
  simp [GradientStop.form, toValue, record, share_float_iff, Color.form_toValue]

/-- The data of a layer has its form exactly if the stops of its gradient are between zero and
one. -/
theorem Layer.form_toValue_iff {layer : Layer} :
    Layer.form layer.toValue ↔ ∀ stop ∈ layer.pattern.stops, stop.position.IsUnit := by
  have motion := nothingOr_ofOption Motion.form_toValue layer.motion
  have pattern : Pattern.form layer.pattern.toValue ↔
      ∀ stop ∈ layer.pattern.stops, stop.position.IsUnit := by
    simp [Pattern.form, Pattern.toValue, record, listOf, GradientStop.form_toValue_iff]
  simp [Layer.form, toValue, record, text, whole, truth, Zone.form_toValue,
    Coloring.form_toValue, motion, pattern]

/-- The data of a design has its form exactly if the design can be read back. -/
theorem Intent.form_toValue_iff {intent : Intent} :
    Intent.form intent.toValue ↔ intent.IsRecordable := by
  have flags := listOf_map fun flag (_ : flag ∈ intent.ambiguities) => flag.form_toValue
  have layers : listOf Layer.form (.list (intent.layers.map Layer.toValue)) ↔
      ∀ layer ∈ intent.layers, ∀ stop ∈ layer.pattern.stops, stop.position.IsUnit := by
    simp [listOf, Layer.form_toValue_iff]
  have parts : Intent.form intent.toValue ↔
      listOf Layer.form (.list (intent.layers.map Layer.toValue)) ∧ intent.confidence.IsUnit := by
    simp [Intent.form, toValue, record, text, flags, share_float_iff, SceneSettings.form_toValue]
  rw [parts, layers]
  exact ⟨fun both => ⟨both.2, both.1⟩, fun recordable => ⟨recordable.stops, recordable.confidence⟩⟩

/-! ## What is read has its form -/

namespace Reader

variable {α : Type}

/-- A record that is read is an object whose fields are read. -/
theorem of_strictRecord {known : List String} {fields : Entries → Checked α} {value : Value}
    {result : α} (read : strictRecord known fields value = .valid result) :
    ∃ es, fields es = .valid result := by
  unfold strictRecord at read
  split at read
  · rename_i es
    refine ⟨es, ?_⟩
    unfold Checked.guardedBy at read
    revert read
    cases fields es <;> cases onlyKnown known es <;> simp [Checked.map, Checked.ap]
  · cases read

/-- What stands in a list that is read was read itself. -/
theorem of_listFrom {reader : Reader α} {items : List Value} {position : Nat} {members : List α}
    (read : Checked.listFrom reader position items = .valid members) :
    ∀ member ∈ members, ∃ value, reader value = .valid member := by
  induction items generalizing position members with
  | nil =>
      cases read
      intro member mem
      cases mem
  | cons item rest ih =>
      rcases Checked.seq_eq_valid_iff.mp read with ⟨front, behind, isFront, isBehind, rfl⟩
      rcases Checked.map_eq_valid_iff.mp isFront with ⟨first, isFirst, rfl⟩
      intro member mem
      rcases List.mem_cons.mp mem with rfl | later
      · exact ⟨item, Checked.under_eq_valid_iff.mp isFirst⟩
      · exact ih isBehind member later

theorem of_list {reader : Reader α} {value : Value} {members : List α}
    (read : list reader value = .valid members) :
    ∀ member ∈ members, ∃ value, reader value = .valid member := by
  unfold list at read
  split at read
  · exact of_listFrom read
  · cases read

end Reader

open Checked (map_eq_valid_iff seq_eq_valid_iff under_eq_valid_iff)

theorem GradientStop.isUnit_of_read {value : Value} {stop : GradientStop}
    (isRead : GradientStop.read value = .valid stop) : stop.position.IsUnit := by
  rcases Reader.of_strictRecord isRead with ⟨es, fields⟩
  rcases seq_eq_valid_iff.mp fields with ⟨_, color, front, -, rfl⟩
  rcases map_eq_valid_iff.mp front with ⟨position, isPosition, rfl⟩
  unfold Reader.required at isPosition
  split at isPosition
  · exact Reader.isUnit_of_share (under_eq_valid_iff.mp isPosition)
  · cases isPosition

theorem Pattern.isUnit_of_read {value : Value} {pattern : Pattern}
    (isRead : Pattern.read value = .valid pattern) :
    ∀ stop ∈ pattern.stops, stop.position.IsUnit := by
  rcases Reader.of_strictRecord isRead with ⟨es, fields⟩
  rcases seq_eq_valid_iff.mp fields with ⟨_, stops, front, areStops, rfl⟩
  rcases map_eq_valid_iff.mp front with ⟨layout, -, rfl⟩
  intro stop mem
  rcases Reader.of_defaulted areStops with rfl | ⟨listed, isListed⟩
  · cases mem
  · rcases Reader.of_list isListed stop mem with ⟨own, isOwn⟩
    exact GradientStop.isUnit_of_read isOwn

theorem Layer.isUnit_of_read {value : Value} {layer : Layer}
    (isRead : Layer.read value = .valid layer) :
    ∀ stop ∈ layer.pattern.stops, stop.position.IsUnit := by
  rcases Reader.of_strictRecord isRead with ⟨es, fields⟩
  rcases seq_eq_valid_iff.mp fields with ⟨_, enabled, fields, -, shape⟩
  rcases seq_eq_valid_iff.mp fields with ⟨_, priority, fields, -, shape⟩
  rcases seq_eq_valid_iff.mp fields with ⟨_, motion, fields, -, shape⟩
  rcases seq_eq_valid_iff.mp fields with ⟨_, pattern, fields, isPattern, shape⟩
  rcases seq_eq_valid_iff.mp fields with ⟨_, coloring, fields, -, shape⟩
  rcases seq_eq_valid_iff.mp fields with ⟨_, zone, fields, -, shape⟩
  rcases seq_eq_valid_iff.mp fields with ⟨_, name, fields, -, shape⟩
  rcases map_eq_valid_iff.mp fields with ⟨id, -, shape⟩
  subst_vars
  intro stop mem
  rcases Reader.of_defaulted isPattern with rfl | ⟨own, isOwn⟩
  · cases mem
  · exact Pattern.isUnit_of_read isOwn stop mem

/-- Whatever a design is read from, it can be written and read again. -/
theorem Intent.isRecordable_of_read {value : Value} {intent : Intent}
    (isRead : Intent.read value = .valid intent) : intent.IsRecordable := by
  rcases Reader.of_strictRecord isRead with ⟨es, fields⟩
  rcases seq_eq_valid_iff.mp fields with ⟨_, settings, fields, -, shape⟩
  rcases seq_eq_valid_iff.mp fields with ⟨_, parsedAt, fields, -, shape⟩
  rcases seq_eq_valid_iff.mp fields with ⟨_, confidence, fields, isConfidence, shape⟩
  rcases seq_eq_valid_iff.mp fields with ⟨_, ambiguities, fields, -, shape⟩
  rcases seq_eq_valid_iff.mp fields with ⟨_, layers, fields, areLayers, shape⟩
  rcases map_eq_valid_iff.mp fields with ⟨prompt, -, shape⟩
  subst_vars
  constructor
  · rcases Reader.of_defaulted isConfidence with rfl | ⟨own, isOwn⟩
    · exact Binary64.isUnit_zero
    · exact Reader.isUnit_of_share isOwn
  · intro layer mem
    rcases Reader.of_defaulted areLayers with rfl | ⟨listed, isListed⟩
    · cases mem
    · rcases Reader.of_list isListed layer mem with ⟨own, isOwn⟩
      exact Layer.isUnit_of_read isOwn

end Eaves
