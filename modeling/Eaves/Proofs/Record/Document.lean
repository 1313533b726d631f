import Eaves.Device.Payload
import Eaves.Proofs.Record.Written
import Eaves.Proofs.Value.Document
import Eaves.Store.Record

/-!
# Records that were written

A record is written as a document and read again.  What comes back is the record with
everything behind its choices, and its payload, as plain data of finite numbers; written
once more it is the same document.

A document can hold data that is made of numbers of the format and of objects without a
repeated key.  The records of a design have keys of their own, and of all their fields
only the confidence and the places in a gradient are numbers that would have to be
rounded.  Payloads have none.
-/

namespace Eaves

open Reader
open Json (IsLossless)
open Number (Binary64)

/-! ## The parts of a design -/

section

variable {α : Type}

theorem writtenItems_eq_map (items : List Value) :
    writtenItems items = items.map Value.written := by
  induction items with
  | nil => rfl
  | cons item rest ih => rw [writtenItems, ih, List.map_cons]

theorem writtenItems_map {write : α → Value} {members : List α}
    (each : ∀ member ∈ members, (write member).written = write member) :
    writtenItems (members.map write) = members.map write := by
  rw [writtenItems_eq_map, List.map_map]
  exact List.map_congr_left each

theorem written_ofOption {write : α → Value}
    (each : ∀ member, (write member).written = write member) (own : Option α) :
    (Value.ofOption write own).written = Value.ofOption write own := by
  cases own with
  | none => rfl
  | some member => exact each member

end

theorem Color.written_toValue (color : Color) : color.toValue.written = color.toValue :=
  rfl

theorem Spacing.written_toValue (rule : Spacing) : rule.toValue.written = rule.toValue := by
  cases rule <;> rfl

theorem Zone.written_toValue (zone : Zone) : zone.toValue.written = zone.toValue := by
  cases zone with
  | all => rfl
  | segments ids =>
      have members : writtenItems (ids.val.map Value.text) = ids.val.map .text :=
        writtenItems_map fun _ _ => rfl
      simp [Zone.toValue, members]
  | features named =>
      have members : writtenItems (named.val.map Value.ofWord) = named.val.map .ofWord :=
        writtenItems_map fun _ _ => rfl
      simp [Zone.toValue, members]
  | side face => rfl
  | level storey => rfl
  | custom spans =>
      have members : writtenItems (spans.val.map PixelRange.toValue) =
          spans.val.map PixelRange.toValue :=
        writtenItems_map fun _ _ => rfl
      simp [Zone.toValue, members]

theorem Coloring.written_toValue (coloring : Coloring) :
    coloring.toValue.written = coloring.toValue := by
  simp [Coloring.toValue, Color.written_toValue, written_ofOption Color.written_toValue,
    written_ofOption Spacing.written_toValue]

theorem Pattern.written_toValue {pattern : Pattern}
    (placed : ∀ stop ∈ pattern.stops, stop.position.IsUnit) :
    pattern.toValue.written = pattern.toValue := by
  have stops : writtenItems (pattern.stops.map GradientStop.toValue) =
      pattern.stops.map GradientStop.toValue := by
    apply writtenItems_map
    intro stop mem
    simp [GradientStop.toValue, (placed stop mem).isFinite, Color.written_toValue]
  simp [Pattern.toValue, stops, Value.ofWord]

theorem Motion.written_toValue (motion : Motion) : motion.toValue.written = motion.toValue := by
  have effect : (Value.ofOption (fun effect : Effect => .int effect.id) motion.effect).written =
      .ofOption (fun effect : Effect => .int effect.id) motion.effect :=
    written_ofOption (fun _ => rfl) motion.effect
  simp [Motion.toValue, effect, Value.ofWord, Level.toValue]

theorem Layer.written_toValue {layer : Layer}
    (placed : ∀ stop ∈ layer.pattern.stops, stop.position.IsUnit) :
    layer.toValue.written = layer.toValue := by
  simp [Layer.toValue, Zone.written_toValue, Coloring.written_toValue,
    Pattern.written_toValue placed, written_ofOption Motion.written_toValue]

/-! ## What is kept of a design -/

/-- A choice with what a document keeps of everything behind it. -/
def Choice.kept (choice : Choice) : Choice :=
  { choice with
    value := choice.value.plain.written
    preview := choice.preview.map fun es => writtenEntries (plainEntries es) }

/-- A flag with what a document keeps of everything behind its choices. -/
def Ambiguity.kept (flag : Ambiguity) : Ambiguity :=
  { flag with choices := flag.choices.map Choice.kept }

/-- A design with what a document keeps of everything behind the choices of its flags. -/
def Intent.kept (intent : Intent) : Intent :=
  { intent with ambiguities := intent.ambiguities.map Ambiguity.kept }

/-- A record with what a document keeps of its design and its payload. -/
def SavedDesign.kept (design : SavedDesign) : SavedDesign :=
  { design with
    intent := design.intent.kept
    payload := design.payload.map fun es => writtenEntries (plainEntries es) }

theorem written_plain_ofOption (own : Option Entries) :
    (Value.ofOption .object own).plain.written =
      .ofOption .object (own.map fun es => writtenEntries (plainEntries es)) := by
  cases own <;> simp [Value.ofOption]

theorem written_ofText? (own : Option String) :
    (Value.ofText? own).plain.written = .ofText? own := by
  cases own <;> rfl

theorem Choice.kept_toValue (choice : Choice) :
    choice.toValue.plain.written = choice.kept.toValue := by
  simp [Choice.toValue, Choice.kept, written_plain_ofOption]

theorem Ambiguity.kept_toValue (flag : Ambiguity) :
    flag.toValue.plain.written = flag.kept.toValue := by
  have choices : writtenItems (plainItems (flag.choices.map Choice.toValue)) =
      (flag.choices.map Choice.kept).map Choice.toValue := by
    rw [plainItems_eq_map, writtenItems_eq_map, List.map_map, List.map_map, List.map_map]
    exact List.map_congr_left fun choice _ => choice.kept_toValue
  simp [Ambiguity.toValue, Ambiguity.kept, written_ofText?, choices, Value.ofWord]

theorem Intent.kept_toValue {intent : Intent} (recordable : intent.IsRecordable) :
    intent.toValue.plain.written = intent.kept.toValue := by
  have layers : writtenItems (plainItems (intent.layers.map Layer.toValue)) =
      intent.layers.map Layer.toValue := by
    rw [plainItems_map fun layer _ => layer.plain_toValue]
    exact writtenItems_map fun layer mem => Layer.written_toValue (recordable.stops layer mem)
  have flags : writtenItems (plainItems (intent.ambiguities.map Ambiguity.toValue)) =
      (intent.ambiguities.map Ambiguity.kept).map Ambiguity.toValue := by
    rw [plainItems_eq_map, writtenItems_eq_map, List.map_map, List.map_map, List.map_map]
    exact List.map_congr_left fun flag _ => flag.kept_toValue
  have settings : intent.settings.toValue.plain.written = intent.settings.toValue := rfl
  simp [Intent.toValue, Intent.kept, layers, flags, settings, recordable.confidence.isFinite]

theorem Intent.IsRecordable.kept {intent : Intent} (recordable : intent.IsRecordable) :
    intent.kept.IsRecordable :=
  ⟨recordable.confidence, recordable.stops⟩

/-! ## Records -/

namespace SavedDesign

variable {design : SavedDesign}

theorem isLossless_style : IsLossless style :=
  ⟨rfl, rfl⟩

/-- A record that a document can hold: its design can be read back, and its data is made of numbers
of the format, of whole numbers that are not too long to be read, and of objects without a repeated
key. -/
structure IsLasting (design : SavedDesign) : Prop where
  intent : design.intent.IsRecordable
  held : design.toValue.plain.IsHeld
  wholes : ∀ n ∈ design.toValue.plain.wholes, n.natAbs < Number.tenTo Text.digitLimit

theorem kept_toValue (recordable : design.intent.IsRecordable) :
    design.toValue.plain.written = design.kept.toValue := by
  have intent := Intent.kept_toValue recordable
  simp [toValue, kept, intent, written_ofText?, written_plain_ofOption]

/-- A record with valid parts is read. -/
theorem read_toValue (isId : design.id ≠ "") (isUserId : design.userId ≠ "")
    (recordable : design.intent.IsRecordable) : read design.toValue = .valid design := by
  have id : nonEmptyText (.text design.id) = .valid design.id := by
    simp [nonEmptyText, isId]
  have userId : nonEmptyText (.text design.userId) = .valid design.userId := by
    simp [nonEmptyText, isUserId]
  have rooflineId : nullable text (.ofText? design.rooflineId) = .valid design.rooflineId := by
    cases design.rooflineId <;> rfl
  have payload : nullable entries (.ofOption .object design.payload) = .valid design.payload :=
    nullable_ofOption (fun _ => Value.noConfusion) fun _ _ => rfl
  apply strictRecord_eq_valid rfl
  simp [id, userId, Intent.read_toValue recordable, rooflineId, payload]

/-- A record that is written and read is the record, as a document keeps it. -/
theorem ofDocument?_document (isId : design.id ≠ "") (isUserId : design.userId ≠ "")
    (lasting : design.IsLasting) :
    ofDocument? design.document = some design.kept := by
  have parsed := Json.parse?_render isLossless_style lasting.held
  have short : (design.toValue.plain.written.wholes.all fun n =>
      decide (n.natAbs < Number.tenTo Text.digitLimit)) = true := by
    rw [Value.wholes_written, List.all_eq_true]
    exact fun n mem => decide_eq_true (lasting.wholes n mem)
  have isRead : read design.kept.toValue = .valid design.kept :=
    read_toValue isId isUserId lasting.intent.kept
  unfold ofDocument? document
  rw [parsed]
  change (if _ then _ else none) = _
  rw [if_pos short, kept_toValue lasting.intent, isRead]
  rfl

/-- Writing a record that was read gives the document that it was read from. -/
theorem document_kept (recordable : design.intent.IsRecordable) :
    design.kept.document = design.document := by
  unfold document Json.render
  rw [← kept_toValue recordable, Value.plain_written, Json.write_written isLossless_style]

end SavedDesign

/-! ## What documents can hold of a design -/

section

variable {α : Type} {write : α → Value}

theorem areHeld_map {members : List α} (each : ∀ member ∈ members, (write member).IsHeld) :
    AreHeld (members.map write) := by
  induction members with
  | nil => trivial
  | cons member rest ih =>
      exact ⟨each member List.mem_cons_self,
        ih fun other mem => each other (List.mem_cons_of_mem _ mem)⟩

theorem Value.isHeld_ofOption (each : ∀ member, (write member).IsHeld) (own : Option α) :
    (Value.ofOption write own).IsHeld := by
  cases own with
  | none => trivial
  | some member => exact each member

end

theorem Value.isHeld_plain_ofText? (own : Option String) : (Value.ofText? own).plain.IsHeld := by
  cases own <;> trivial

theorem Value.isHeld_ofInts (ns : List Int) : (Value.ofInts ns).IsHeld :=
  areHeld_map fun _ _ => trivial

/-! ## Parts of a layer -/

theorem Color.isHeld_toValue (color : Color) : color.toValue.IsHeld := by
  simp [toValue, Level.toValue]

theorem Spacing.isHeld_toValue (rule : Spacing) : rule.toValue.IsHeld := by
  cases rule <;> simp [toValue]

theorem Zone.isHeld_toValue (zone : Zone) : zone.toValue.IsHeld := by
  cases zone with
  | segments ids =>
      have members : AreHeld (ids.val.map Value.text) := areHeld_map fun _ _ => trivial
      simp [toValue, members]
  | features named =>
      have members : AreHeld (named.val.map Value.ofWord) := areHeld_map fun _ _ => trivial
      simp [toValue, members]
  | custom spans =>
      have members : AreHeld (spans.val.map PixelRange.toValue) := by
        refine areHeld_map fun span _ => ?_
        simp [PixelRange.toValue]
      simp [toValue, members]
  | all | side | level => simp [toValue, Value.ofWord]

theorem Coloring.isHeld_toValue (coloring : Coloring) : coloring.toValue.IsHeld := by
  simp [toValue, Color.isHeld_toValue,
    Value.isHeld_ofOption Color.isHeld_toValue, Value.isHeld_ofOption Spacing.isHeld_toValue]

theorem Pattern.isHeld_toValue {pattern : Pattern}
    (placed : ∀ stop ∈ pattern.stops, stop.position.IsRounded) : pattern.toValue.IsHeld := by
  have stops : AreHeld (pattern.stops.map GradientStop.toValue) := by
    refine areHeld_map fun stop mem => ?_
    simp [GradientStop.toValue, Color.isHeld_toValue, placed stop mem]
  simp [toValue, Value.ofWord, stops]

theorem Motion.isHeld_toValue (motion : Motion) : motion.toValue.IsHeld := by
  have effect : (Value.ofOption (fun effect : Effect => .int effect.id) motion.effect).IsHeld := by
    cases motion.effect <;> trivial
  simp [toValue, Value.ofWord, Level.toValue, effect]

theorem Layer.isHeld_toValue {layer : Layer}
    (placed : ∀ stop ∈ layer.pattern.stops, stop.position.IsRounded) :
    layer.toValue.IsHeld := by
  simp [toValue, Zone.isHeld_toValue, Coloring.isHeld_toValue,
    Pattern.isHeld_toValue placed, Value.isHeld_ofOption Motion.isHeld_toValue]

theorem SceneSettings.isHeld_toValue (settings : SceneSettings) : settings.toValue.IsHeld := by
  simp [toValue, Level.toValue]

/-! ## Payloads -/

theorem Payload.isHeld_segmentEntries (payload : Payload) :
    (Value.object payload.segmentEntries).IsHeld := by
  unfold segmentEntries
  cases payload.scene with
  | individual lights => simp [Value.isHeld_ofInts]
  | effect colors id speed intensity reverse =>
      have members : AreHeld (colors.map Value.ofInts) :=
        areHeld_map fun own _ => Value.isHeld_ofInts own
      cases reverse <;> simp [members]

theorem Payload.isHeld_toEntries (payload : Payload) :
    (Value.object payload.toEntries).IsHeld := by
  have segment : AreHeld [.object payload.segmentEntries] :=
    ⟨payload.isHeld_segmentEntries, trivial⟩
  unfold toEntries
  generalize [Value.object payload.segmentEntries] = segments at segment ⊢
  cases payload.transition <;> simp [segment]

/-- Payloads are plain data. -/
theorem Payload.plain_toEntries (payload : Payload) :
    plainEntries payload.toEntries = payload.toEntries := by
  have ints : ∀ ns : List Int, (Value.ofInts ns).plain = Value.ofInts ns := by
    intro ns
    have members : plainItems (ns.map Value.int) = ns.map .int := plainItems_map fun _ _ => rfl
    rw [Value.ofInts, Value.plain_list, members]
  have segment : plainEntries payload.segmentEntries = payload.segmentEntries := by
    unfold segmentEntries
    cases payload.scene with
    | individual lights => simp [ints]
    | effect colors id speed intensity reverse =>
        have members : plainItems (colors.map Value.ofInts) = colors.map .ofInts :=
          plainItems_map fun own _ => ints own
        cases reverse <;> simp [members]
  unfold toEntries
  cases payload.transition <;> simp [segment]

end Eaves
