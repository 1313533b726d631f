import Eaves.Proofs.Number.Finite
import Eaves.Proofs.Outcome
import Eaves.Record.Design

/-!
# Reading what was written

A design is kept as plain data, and what is read from that data is the design again:
each record is an object with every one of its keys, and each key holds what the
field's reader accepts.  A term behind a choice comes back as the plain data it was
written as, so the design that is read differs from the one that was written in the
form of those values, and in nothing else.
-/

namespace Eaves

open Reader
open Number (Binary64)

namespace Checked

variable {α β : Type}

@[simp]
theorem functor_map_valid (f : α → β) (value : α) :
    (f <$> (valid value : Checked α)) = valid (f value) :=
  rfl

@[simp]
theorem seq_valid (f : α → β) (value : α) :
    ((valid f : Checked (α → β)) <*> valid value) = valid (f value) :=
  rfl

/-- A list is read where every member is. -/
theorem listFrom_map {read : β → Checked α} {write : α → β} {members : List α}
    (each : ∀ member ∈ members, read (write member) = .valid member) (position : Nat) :
    listFrom read position (members.map write) = .valid members := by
  induction members generalizing position with
  | nil => rfl
  | cons member rest ih =>
      rw [List.map_cons, listFrom, each member List.mem_cons_self,
        ih fun other mem => each other (List.mem_cons_of_mem _ mem)]
      rfl

end Checked

namespace Reader

variable {α : Type}

/-- A field with a default has the default, or what its reader accepts. -/
theorem of_defaulted {es : Entries} {key : String} {default result : α} {reader : Reader α}
    (read : defaulted es key default reader = .valid result) :
    result = default ∨ ∃ value, reader value = .valid result := by
  unfold defaulted at read
  split at read
  · exact .inr ⟨_, Checked.under_eq_valid_iff.mp read⟩
  · cases read
    exact .inl rfl

/-- A record that is read is an object, and its fields are read. -/
theorem of_openRecord {fields : Entries → Checked α} {value : Value} {result : α}
    (read : openRecord fields value = .valid result) : ∃ es, fields es = .valid result := by
  unfold openRecord at read
  split at read
  · exact ⟨_, read⟩
  · cases read

/-- A key that must be there is looked for entry by entry. -/
@[simp]
theorem required_cons (key other : String) (value : Value) (rest : Entries)
    (reader : Reader α) :
    required ((other, value) :: rest) key reader =
      if key == other then (reader value).under key else required rest key reader := by
  unfold required Entries.value?
  rw [List.lookup_cons]
  cases key == other <;> rfl

/-- A key that may be absent is looked for entry by entry. -/
@[simp]
theorem defaulted_cons (key other : String) (value : Value) (rest : Entries) (default : α)
    (reader : Reader α) :
    defaulted ((other, value) :: rest) key default reader =
      if key == other then (reader value).under key else defaulted rest key default reader := by
  unfold defaulted Entries.value?
  rw [List.lookup_cons]
  cases key == other <;> rfl

@[simp]
theorem defaulted_nil (key : String) (default : α) (reader : Reader α) :
    defaulted [] key default reader = .valid default :=
  rfl

/-- A record is read where its fields are and its keys are known. -/
theorem strictRecord_eq_valid {known : List String} {fields : Entries → Checked α} {es : Entries}
    {result : α} (areKnown : (es.all fun entry => known.contains entry.1) = true)
    (read : fields es = .valid result) :
    strictRecord known fields (.object es) = .valid result := by
  have noUnknown : (es.filter fun entry => !known.contains entry.1) = [] := by
    rw [List.filter_eq_nil_iff]
    intro entry mem
    simpa using List.all_eq_true.mp areKnown entry mem
  have nothing : onlyKnown known es = .valid () := by
    rw [onlyKnown]
    simp only [noUnknown]
    rfl
  change (fields es).guardedBy (onlyKnown known es) = .valid result
  rw [read, nothing]
  rfl

/-! ## Single values -/

@[simp]
theorem int_int (n : Int) : int (.int n) = .valid n :=
  rfl

@[simp]
theorem bool_bool (truth : Bool) : Reader.bool (.bool truth) = .valid truth :=
  rfl

@[simp]
theorem text_text (s : String) : text (.text s) = .valid s :=
  rfl

@[simp]
theorem level_toValue (own : Level) : level own.toValue = .valid own := by
  simp [level, int, Level.toValue, Color.channel]

@[simp]
theorem nat_int (n : Nat) : nat (.int n) = .valid n := by
  simp [nat, int]

@[simp]
theorem positive_int (count : Positive) : positive (.int count.val) = .valid count := by
  simp [positive, int]

/-- A word of a vocabulary is read where it spells one member only. -/
theorem word_ofWord [Vocabulary α] {member : α}
    (spelled : Vocabulary.ofWord? (Vocabulary.word member) = some member) :
    word (.ofWord member) = .valid member := by
  simp [word, Value.ofWord, text, Checked.toOption, spelled]

theorem list_map {read : Reader α} {write : α → Value} {members : List α}
    (each : ∀ member ∈ members, read (write member) = .valid member) :
    list read (.list (members.map write)) = .valid members := by
  rw [list, members?]
  exact Checked.listFrom_map each 0

theorem nonEmptyList_map {read : Reader α} {write : α → Value} {members : NonEmpty α}
    (each : ∀ member ∈ members.val, read (write member) = .valid member) :
    nonEmptyList read (.list (members.val.map write)) = .valid members := by
  rw [nonEmptyList, list_map each]
  simp

/-- A value that is not nothing is read by the reader below. -/
theorem nullable_ofOption {read : Reader α} {write : α → Value} {own : Option α}
    (isSome : ∀ member, write member ≠ .null)
    (each : ∀ member, own = some member → read (write member) = .valid member) :
    nullable read (.ofOption write own) = .valid own := by
  cases own with
  | none => rfl
  | some member =>
      have readOwn := each member rfl
      have notNull := isSome member
      rw [Value.ofOption]
      unfold nullable
      split
      · rename_i isNull
        exact absurd isNull notNull
      · rw [readOwn]
        rfl

/-! ## Bounds of what is read -/

/-- What is read as a number that is not negative is at least zero. -/
theorem notNegative_of_nonNegative {value : Value} {x : Binary64}
    (read : nonNegative value = .valid x) : (Binary64.finite 0).le x = true := by
  obtain ⟨y, -, within⟩ := Checked.andThen_eq_valid_iff.mp read
  split at within
  · cases within
    assumption
  · cases within

/-- What is read as a share lies between zero and one. -/
theorem isUnit_of_share {value : Value} {x : Binary64} (read : Reader.share value = .valid x) :
    x.IsUnit := by
  rcases Checked.andThen_eq_valid_iff.mp read with ⟨y, atMost, bounded⟩
  rcases Checked.andThen_eq_valid_iff.mp atMost with ⟨z, -, boundedToo⟩
  split at bounded
  · rename_i notNegative
    cases bounded
    split at boundedToo
    · rename_i atMostOne
      cases boundedToo
      exact ⟨atMostOne, notNegative⟩
    · cases boundedToo
  · cases bounded

end Reader

/-! ## Vocabularies -/

section Vocabularies

theorem Feature.ofWord?_word (feature : Feature) :
    Vocabulary.ofWord? (Vocabulary.word feature) = some feature := by
  cases feature <;> rfl

theorem Side.ofWord?_word (side : Side) :
    Vocabulary.ofWord? (Vocabulary.word side) = some side := by
  cases side <;> rfl

theorem Layout.ofWord?_word (layout : Layout) :
    Vocabulary.ofWord? (Vocabulary.word layout) = some layout := by
  cases layout <;> rfl

theorem MotionKind.ofWord?_word (kind : MotionKind) :
    Vocabulary.ofWord? (Vocabulary.word kind) = some kind := by
  cases kind <;> rfl

theorem Direction.ofWord?_word (direction : Direction) :
    Vocabulary.ofWord? (Vocabulary.word direction) = some direction := by
  cases direction <;> rfl

theorem AmbiguityKind.ofWord?_word (kind : AmbiguityKind) :
    Vocabulary.ofWord? (Vocabulary.word kind) = some kind := by
  cases kind <;> rfl

end Vocabularies

/-! ## Colours, zones and rules -/

theorem Color.read_toValue (color : Color) : Color.read color.toValue = .valid color := by
  unfold Color.read Color.toValue
  apply strictRecord_eq_valid rfl
  simp

theorem PixelRange.read_toValue (range : PixelRange) :
    PixelRange.read range.toValue = .valid range := by
  have ends : strictRecord ["start", "end"]
      (fun es => Prod.mk <$> required es "start" nat <*> required es "end" nat) range.toValue =
        .valid (range.first, range.last) := by
    apply strictRecord_eq_valid rfl
    simp
  rw [PixelRange.read, ends]
  simp [range.ordered]

/-- An object of one of several forms is read by the form that its kind names. -/
theorem readKind_eq_valid {α : Type} {kinds : List (KindReader α)} {tag : String} {rest : Entries}
    {kind : KindReader α} {result : α}
    (named : (kinds.find? fun kind => kind.tag == tag) = some kind)
    (areKnown : (rest.all fun entry => ("kind" :: kind.keys).contains entry.1) = true)
    (read : kind.fields (("kind", .text tag) :: rest) = .valid result) :
    readKind kinds (.object (("kind", .text tag) :: rest)) = .valid result := by
  have known : ((("kind", Value.text tag) :: rest).all fun entry =>
      ("kind" :: kind.keys).contains entry.1) = true := by
    rw [List.all_cons, areKnown]
    simp
  have tagged : Entries.value? (("kind", Value.text tag) :: rest) "kind" = some (.text tag) :=
    List.lookup_cons_self
  simp only [readKind, tagged, named]
  rw [strictRecord_eq_valid known read, Checked.under_valid]

theorem Zone.read_toValue (zone : Zone) : Zone.read zone.toValue = .valid zone := by
  unfold Zone.read Zone.toValue
  cases zone with
  | all => rfl
  | segments ids =>
      have members : nonEmptyList text (.list (ids.val.map .text)) = .valid ids :=
        nonEmptyList_map fun _ _ => rfl
      apply readKind_eq_valid rfl rfl
      simp [members]
  | features named =>
      have members : nonEmptyList word (.list (named.val.map .ofWord)) = .valid named :=
        nonEmptyList_map fun feature _ => word_ofWord feature.ofWord?_word
      apply readKind_eq_valid rfl rfl
      simp [members]
  | side face =>
      apply readKind_eq_valid rfl rfl
      simp [word_ofWord face.ofWord?_word]
  | level storey =>
      apply readKind_eq_valid rfl rfl
      simp
  | custom spans =>
      have members : nonEmptyList PixelRange.read (.list (spans.val.map PixelRange.toValue)) =
          .valid spans :=
        nonEmptyList_map fun span _ => span.read_toValue
      apply readKind_eq_valid rfl rfl
      simp [members]

theorem Spacing.read_toValue (rule : Spacing) : Spacing.read rule.toValue = .valid rule := by
  unfold Spacing.read Spacing.toValue
  cases rule with
  | pattern on off startLit =>
      apply readKind_eq_valid rfl rfl
      simp
  | equallySpaced count =>
      apply readKind_eq_valid rfl rfl
      simp
  | everyNth interval =>
      apply readKind_eq_valid rfl rfl
      simp
  | anchorsOnly => rfl
  | continuous => rfl

/-! ## Layers -/

theorem Coloring.read_toValue (coloring : Coloring) :
    Coloring.read coloring.toValue = .valid coloring := by
  have color (own : Option Color) :
      nullable Color.read (.ofOption Color.toValue own) = .valid own :=
    nullable_ofOption (fun _ => Value.noConfusion) fun member _ => member.read_toValue
  have rule (own : Option Spacing) :
      nullable Spacing.read (.ofOption Spacing.toValue own) = .valid own :=
    nullable_ofOption (fun _ => Value.noConfusion) fun member _ => member.read_toValue
  apply strictRecord_eq_valid rfl
  simp [Color.read_toValue, color, rule]

/-- A real number between zero and one is read as a share. -/
theorem Reader.share_float {x : Binary64} (atMostOne : x.le (.finite 1) = true)
    (notNegative : (Binary64.finite 0).le x = true) : share (.float x) = .valid x := by
  simp [share, Reader.atMostOne, Reader.float, atMostOne, notNegative]

theorem Pattern.read_toValue {pattern : Pattern}
    (placed : ∀ stop ∈ pattern.stops, stop.position.IsUnit) :
    Pattern.read pattern.toValue = .valid pattern := by
  have stops : list GradientStop.read (.list (pattern.stops.map GradientStop.toValue)) =
      .valid pattern.stops := by
    apply list_map
    intro stop mem
    have position := share_float (placed stop mem).atMostOne (placed stop mem).notNegative
    apply strictRecord_eq_valid rfl
    simp [position, Color.read_toValue]
  have layout : word (.ofWord pattern.layout) = .valid pattern.layout :=
    word_ofWord pattern.layout.ofWord?_word
  apply strictRecord_eq_valid rfl
  simp [layout, stops]

theorem Motion.read_toValue (motion : Motion) : Motion.read motion.toValue = .valid motion := by
  have effect : readEffect (.ofOption (fun effect : Effect => .int effect.id) motion.effect) =
      .valid motion.effect := by
    cases motion.effect with
    | none => rfl
    | some effect => simp [Value.ofOption, readEffect, Effect.ofId_id]
  have kind : word (.ofWord motion.kind) = .valid motion.kind :=
    word_ofWord motion.kind.ofWord?_word
  have direction : word (.ofWord motion.direction) = .valid motion.direction :=
    word_ofWord motion.direction.ofWord?_word
  apply strictRecord_eq_valid rfl
  simp [kind, direction, effect]

theorem Layer.read_toValue {layer : Layer}
    (placed : ∀ stop ∈ layer.pattern.stops, stop.position.IsUnit) :
    Layer.read layer.toValue = .valid layer := by
  have motion : nullable Motion.read (.ofOption Motion.toValue layer.motion) =
      .valid layer.motion :=
    nullable_ofOption (fun _ => Value.noConfusion) fun motion _ => motion.read_toValue
  apply strictRecord_eq_valid rfl
  simp [Zone.read_toValue, Coloring.read_toValue,
    Pattern.read_toValue placed, motion]

/-! ## Flags -/

theorem Choice.read_toValue (choice : Choice) : Choice.read choice.toValue = .valid choice := by
  have preview : nullable entries (.ofOption .object choice.preview) = .valid choice.preview :=
    nullable_ofOption (fun _ => Value.noConfusion) fun _ _ => rfl
  apply strictRecord_eq_valid rfl
  simp [any, preview]

theorem Ambiguity.read_toValue (flag : Ambiguity) :
    Ambiguity.read flag.toValue = .valid flag := by
  have layerId : nullable text (.ofText? flag.layerId) = .valid flag.layerId := by
    cases flag.layerId <;> rfl
  have choices : list Choice.read (.list (flag.choices.map Choice.toValue)) =
      .valid flag.choices :=
    list_map fun choice _ => choice.read_toValue
  have kind : word (.ofWord flag.kind) = .valid flag.kind :=
    word_ofWord flag.kind.ofWord?_word
  apply strictRecord_eq_valid rfl
  simp [kind, layerId, choices]

/-! ## Designs -/

theorem SceneSettings.read_toValue (settings : SceneSettings) :
    SceneSettings.read settings.toValue = .valid settings := by
  apply strictRecord_eq_valid rfl
  simp

/-- A design that can be read back: its confidence and the stops of its gradients lie between
zero and one. -/
structure Intent.IsRecordable (intent : Intent) : Prop where
  confidence : intent.confidence.IsUnit
  stops : ∀ layer ∈ intent.layers, ∀ stop ∈ layer.pattern.stops, stop.position.IsUnit

theorem Intent.read_toValue {intent : Intent} (recordable : intent.IsRecordable) :
    Intent.read intent.toValue = .valid intent := by
  have layers : list Layer.read (.list (intent.layers.map Layer.toValue)) =
      .valid intent.layers :=
    list_map fun layer mem => Layer.read_toValue (recordable.stops layer mem)
  have flags : list Ambiguity.read (.list (intent.ambiguities.map Ambiguity.toValue)) =
      .valid intent.ambiguities :=
    list_map fun flag _ => flag.read_toValue
  have confidence :=
    share_float recordable.confidence.atMostOne recordable.confidence.notNegative
  apply strictRecord_eq_valid rfl
  simp [layers, flags, confidence, SceneSettings.read_toValue]

/-! ## The form it is written in -/

theorem plainItems_eq_map (items : List Value) : plainItems items = items.map Value.plain := by
  induction items with
  | nil => rfl
  | cons item rest ih => rw [plainItems, ih, List.map_cons]

/-- A list of what is written plainly is plain. -/
theorem plainItems_map {α : Type} {write : α → Value} {members : List α}
    (each : ∀ member ∈ members, (write member).plain = write member) :
    plainItems (members.map write) = members.map write := by
  rw [plainItems_eq_map, List.map_map]
  exact List.map_congr_left each

theorem plain_ofOption {α : Type} {write : α → Value}
    (each : ∀ member, (write member).plain = write member) (own : Option α) :
    (Value.ofOption write own).plain = Value.ofOption write own := by
  cases own with
  | none => rfl
  | some member => exact each member

theorem Color.plain_toValue (color : Color) : color.toValue.plain = color.toValue :=
  rfl

theorem Spacing.plain_toValue (rule : Spacing) : rule.toValue.plain = rule.toValue := by
  cases rule <;> rfl

theorem Zone.plain_toValue (zone : Zone) : zone.toValue.plain = zone.toValue := by
  cases zone with
  | all => rfl
  | segments ids =>
      have members : plainItems (ids.val.map Value.text) = ids.val.map .text :=
        plainItems_map fun _ _ => rfl
      simp [Zone.toValue, members]
  | features named =>
      have members : plainItems (named.val.map Value.ofWord) = named.val.map .ofWord :=
        plainItems_map fun _ _ => rfl
      simp [Zone.toValue, members]
  | side face => rfl
  | level storey => rfl
  | custom spans =>
      have members : plainItems (spans.val.map PixelRange.toValue) =
          spans.val.map PixelRange.toValue :=
        plainItems_map fun _ _ => rfl
      simp [Zone.toValue, members]

theorem Coloring.plain_toValue (coloring : Coloring) :
    coloring.toValue.plain = coloring.toValue := by
  simp [Coloring.toValue, Color.plain_toValue, plain_ofOption Color.plain_toValue,
    plain_ofOption Spacing.plain_toValue]

theorem Pattern.plain_toValue (pattern : Pattern) : pattern.toValue.plain = pattern.toValue := by
  have stops : plainItems (pattern.stops.map GradientStop.toValue) =
      pattern.stops.map GradientStop.toValue :=
    plainItems_map fun _ _ => rfl
  simp [Pattern.toValue, stops, Value.ofWord]

theorem Motion.plain_toValue (motion : Motion) : motion.toValue.plain = motion.toValue := by
  have effect : (Value.ofOption (fun effect : Effect => .int effect.id) motion.effect).plain =
      .ofOption (fun effect : Effect => .int effect.id) motion.effect :=
    plain_ofOption (fun _ => rfl) motion.effect
  simp [Motion.toValue, effect, Value.ofWord, Level.toValue]

theorem Layer.plain_toValue (layer : Layer) : layer.toValue.plain = layer.toValue := by
  simp [Layer.toValue, Zone.plain_toValue, Coloring.plain_toValue, Pattern.plain_toValue,
    plain_ofOption Motion.plain_toValue]

/-- A choice with everything behind it as plain data. -/
def Choice.plain (choice : Choice) : Choice :=
  { choice with value := choice.value.plain, preview := choice.preview.map plainEntries }

/-- A flag with everything behind its choices as plain data. -/
def Ambiguity.plain (flag : Ambiguity) : Ambiguity :=
  { flag with choices := flag.choices.map Choice.plain }

/-- A design with everything behind the choices of its flags as plain data. -/
def Intent.plain (intent : Intent) : Intent :=
  { intent with ambiguities := intent.ambiguities.map Ambiguity.plain }

theorem Choice.plain_toValue (choice : Choice) :
    choice.toValue.plain = choice.plain.toValue := by
  have preview : (Value.ofOption .object choice.preview).plain =
      .ofOption .object (choice.preview.map plainEntries) := by
    cases choice.preview <;> simp [Value.ofOption]
  simp [Choice.toValue, Choice.plain, preview]

theorem Ambiguity.plain_toValue (flag : Ambiguity) :
    flag.toValue.plain = flag.plain.toValue := by
  have layerId : (Value.ofText? flag.layerId).plain = .ofText? flag.layerId := by
    cases flag.layerId <;> rfl
  have choices : plainItems (flag.choices.map Choice.toValue) =
      (flag.choices.map Choice.plain).map Choice.toValue := by
    rw [plainItems_eq_map, List.map_map, List.map_map]
    exact List.map_congr_left fun choice _ => choice.plain_toValue
  simp [Ambiguity.toValue, Ambiguity.plain, layerId, choices, Value.ofWord]

/-- A design as plain data is what is written of the design with plain flags. -/
theorem Intent.plain_toValue (intent : Intent) :
    intent.toValue.plain = intent.plain.toValue := by
  have layers : plainItems (intent.layers.map Layer.toValue) = intent.layers.map Layer.toValue :=
    plainItems_map fun layer _ => layer.plain_toValue
  have flags : plainItems (intent.ambiguities.map Ambiguity.toValue) =
      (intent.ambiguities.map Ambiguity.plain).map Ambiguity.toValue := by
    rw [plainItems_eq_map, List.map_map, List.map_map]
    exact List.map_congr_left fun flag _ => flag.plain_toValue
  have settings : intent.settings.toValue.plain = intent.settings.toValue := rfl
  simp [Intent.toValue, Intent.plain, layers, flags, settings]

/-- What is written of a design reads back as the design with plain flags. -/
theorem Intent.read_plain_toValue {intent : Intent} (recordable : intent.IsRecordable) :
    Intent.read intent.toValue.plain = .valid intent.plain := by
  rw [intent.plain_toValue]
  exact read_toValue ⟨recordable.confidence, recordable.stops⟩

end Eaves
