import Eaves.Prompt.Parse
import Eaves.Proofs.Design.Within

/-!
# What a prompt leaves open

The flags of a parsed prompt are about the layers it became.  None of them is about
spacing, one about a colour names shades, and one about a conflict lets one of two
layers win.  No zone of a parsed prompt is made of plain ranges.
-/

namespace Eaves

open Outcome

/-- A flag that reading a clause may leave on its layer. -/
structure Prompt.LeavesOpen (layerId : String) (flag : Ambiguity) : Prop where
  layerId_eq : flag.layerId = some layerId
  no_spacing : flag.kind ≠ .spacingImpossible
  no_conflict : flag.kind ≠ .conflict
  shades : flag.kind = .color → flag.choices ≠ []
  within : ∀ most, flag.IsWithin most
  flat : flag.IsFlat

/-- A flag about the conflict of two of so many layers. -/
structure ConflictBelow (count : Nat) (flag : Ambiguity) : Prop where
  kind_eq : flag.kind = .conflict
  choice_ids : ∀ choice ∈ flag.choices,
    choice.id = "blend" ∨ ∃ position < count, choice.id = winnerId position
  within : ∀ most, flag.IsWithin most
  flat : flag.IsFlat

namespace Prompt

/-! ## One clause -/

section Clause

variable {origin : Origin}

theorem listedOr_isListed (side : Side) (ids : List String) : (listedOr side ids).IsListed := by
  unfold listedOr
  split <;> trivial

theorem leavesOpen_manySegments (feature : Feature) (named : NonEmpty Feature)
    (matching : List Segment) :
    LeavesOpen origin.layerId (manySegments origin feature (.features named) matching) := by
  refine ⟨rfl, by rintro ⟨⟩, by rintro ⟨⟩, by rintro ⟨⟩, ?_, ?_⟩
  · intro most choice mem
    simp only [manySegments, Origin.flag, List.mem_cons, List.not_mem_nil, or_false] at mem
    rcases mem with rfl | rfl | rfl
    · exact Value.isWithin_zone trivial
    · exact Value.isWithin_zone (listedOr_isListed _ _)
    · exact Value.isWithin_of_zone? rfl fun _ => by rintro ⟨⟩
  · intro choice mem
    simp only [manySegments, Origin.flag, List.mem_cons, List.not_mem_nil, or_false] at mem
    rcases mem with rfl | rfl | rfl <;> trivial

theorem leavesOpen_whichShade (vague : VagueColor) :
    LeavesOpen origin.layerId (whichShade origin vague) := by
  refine ⟨rfl, by rintro ⟨⟩, by rintro ⟨⟩, fun _ => List.cons_ne_nil _ _, ?_, ?_⟩
  · intro most choice mem
    simp only [whichShade, Origin.flag, List.mem_cons, List.mem_map] at mem
    rcases mem with rfl | ⟨shade, -, rfl⟩
    · exact Value.isWithin_of_zone? rfl fun _ => by rintro ⟨⟩
    · exact Value.isWithin_of_zone? rfl fun _ => by rintro ⟨⟩
  · intro choice mem
    simp only [whichShade, Origin.flag, List.mem_cons, List.mem_map] at mem
    rcases mem with rfl | ⟨shade, -, rfl⟩ <;> trivial

theorem leavesOpen_whichDirection (kind : MotionKind) :
    LeavesOpen origin.layerId (whichDirection origin kind) := by
  refine ⟨rfl, by rintro ⟨⟩, by rintro ⟨⟩, by rintro ⟨⟩, ?_, ?_⟩
  · intro most choice mem
    simp only [whichDirection, Origin.flag, List.mem_cons, List.not_mem_nil, or_false] at mem
    rcases mem with rfl | rfl
    · exact Value.isWithin_of_zone? rfl fun _ => by rintro ⟨⟩
    · exact Value.isWithin_of_zone? rfl fun _ => by rintro ⟨⟩
  · intro choice mem
    simp only [whichDirection, Origin.flag, List.mem_cons, List.not_mem_nil, or_false] at mem
    rcases mem with rfl | rfl <;> trivial

theorem leavesOpen_whichMotion : LeavesOpen origin.layerId (whichMotion origin) := by
  refine ⟨rfl, by rintro ⟨⟩, by rintro ⟨⟩, by rintro ⟨⟩, ?_, ?_⟩
  · intro most choice mem
    simp only [whichMotion, Origin.flag, List.mem_cons, List.not_mem_nil, or_false] at mem
    rcases mem with rfl | rfl | rfl | rfl
    · exact Value.isWithin_of_zone? rfl fun _ => by rintro ⟨⟩
    · exact Value.isWithin_of_zone? rfl fun _ => by rintro ⟨⟩
    · exact Value.isWithin_of_zone? rfl fun _ => by rintro ⟨⟩
    · exact Value.isWithin_of_zone? rfl fun _ => by rintro ⟨⟩
  · intro choice mem
    simp only [whichMotion, Origin.flag, List.mem_cons, List.not_mem_nil, or_false] at mem
    rcases mem with rfl | rfl | rfl | rfl <;> trivial

theorem leavesOpen_featureFlags {named : NonEmpty Feature} {roofline : Option Roofline}
    {settings : ParserSettings} {flag : Ambiguity}
    (mem : flag ∈ featureFlags origin named roofline settings) :
    LeavesOpen origin.layerId flag := by
  unfold featureFlags at mem
  split at mem
  · dsimp only at mem
    split at mem
    · rw [List.mem_singleton] at mem
      exact mem ▸ leavesOpen_manySegments _ named _
    · cases mem
  · cases mem

/-- The zone of a clause, and what is left open about it. -/
theorem zone_spec (origin : Origin) (roofline : Option Roofline) (settings : ParserSettings) :
    (zone origin roofline settings).1.IsListed ∧
      ∀ flag ∈ (zone origin roofline settings).2, LeavesOpen origin.layerId flag := by
  unfold zone
  generalize placeText origin.clause = text
  dsimp only
  generalize NonEmpty.ofList? (features.found text) = named
  generalize sides.first? text = side
  generalize storeys.first? text = storey
  rcases named with _ | named
  · rcases side with _ | side
    · rcases storey with _ | storey
      · exact ⟨trivial, by simp⟩
      · exact ⟨trivial, by simp⟩
    · exact ⟨trivial, by simp⟩
  · exact ⟨trivial, fun flag mem => leavesOpen_featureFlags mem⟩

theorem leavesOpen_motion {flag : Ambiguity} (mem : flag ∈ (motion origin).2) :
    LeavesOpen origin.layerId flag := by
  unfold motion at mem
  split at mem
  · dsimp only at mem
    split at mem
    · rw [List.mem_singleton] at mem
      exact mem ▸ leavesOpen_whichMotion
    · cases mem
  · dsimp only at mem
    split at mem
    · cases mem
    · rw [List.mem_singleton] at mem
      exact mem ▸ leavesOpen_whichDirection _

end Clause

/-- What reading a clause gives: a layer with the id of its number, on a listed zone, and flags
of that layer. -/
theorem understand_spec {clause : List Char} {index : Int} {roofline : Option Roofline}
    {settings : ParserSettings} {understood : Understanding}
    (read : understand clause index roofline settings = .ok understood) :
    understood.layer.id = layerId index ∧ understood.layer.zone.IsListed ∧
      ∀ flag ∈ understood.flags, LeavesOpen (layerId index) flag := by
  unfold understand at read
  dsimp only at read
  generalize isOrigin : (⟨clause, layerId index⟩ : Origin) = origin at read
  have sameId : origin.layerId = layerId index := isOrigin ▸ rfl
  have zoneSpec := zone_spec origin roofline settings
  have colorSpec : ∀ flag ∈ (coloring origin).2, LeavesOpen origin.layerId flag := by
    intro flag mem
    rcases List.mem_map.mp mem with ⟨mention, -, rfl⟩
    exact leavesOpen_whichShade mention.vague
  have motionSpec : ∀ flag ∈ (motion origin).2, LeavesOpen origin.layerId flag :=
    fun flag mem => leavesOpen_motion mem
  rw [sameId] at zoneSpec colorSpec motionSpec
  generalize zone origin roofline settings = place at zoneSpec read
  generalize coloring origin = colors at colorSpec read
  generalize motion origin = movement at motionSpec read
  rcases bind_eq_ok_iff.mp read with ⟨rule, -, shape⟩
  rw [pure_eq_ok_iff] at shape
  subst shape
  refine ⟨rfl, zoneSpec.1, ?_⟩
  intro flag mem
  simp only [List.mem_append] at mem
  rcases mem with (ofZone | ofColor) | ofMotion
  · exact zoneSpec.2 flag ofZone
  · exact colorSpec flag ofColor
  · exact motionSpec flag ofMotion

/-! ## All clauses -/

/-- Clauses are read one by one, numbered from the start. -/
theorem understandFrom_eq_ok {roofline : Option Roofline} {settings : ParserSettings}
    {start : Nat} {clauses : List (List Char)} {understood : List Understanding}
    (read : understandFrom roofline settings start clauses = .ok understood) :
    List.Forall₂
      (fun clause result => understand clause.1 clause.2 roofline settings = .ok result)
      (clauses.zipIdx start) understood := by
  induction clauses generalizing start understood with
  | nil =>
      cases read
      exact .nil
  | cons clause rest ih =>
      rcases bind_eq_ok_iff.mp read with ⟨first, firstRead, others⟩
      rcases bind_eq_ok_iff.mp others with ⟨restUnderstood, restRead, shape⟩
      rw [pure_eq_ok_iff] at shape
      subst shape
      exact .cons firstRead (ih restRead)

end Prompt

/-! ## Conflicts -/

theorem conflictBelow_conflictFlag {count i j : Nat} (first second : Layer) (iBelow : i < count)
    (jBelow : j < count) : ConflictBelow count (conflictFlag i j first second) := by
  have cases_ : ∀ choice ∈ (conflictFlag i j first second).choices,
      (choice.id = "blend" ∨ ∃ position < count, choice.id = winnerId position) ∧
        (∀ most, choice.value.IsWithin most) ∧ choice.value.IsFlat := by
    intro choice mem
    simp only [conflictFlag, List.mem_cons, List.not_mem_nil, or_false] at mem
    rcases mem with rfl | rfl | rfl
    · exact ⟨.inr ⟨i, iBelow, rfl⟩, fun _ =>
        Value.isWithin_of_zone? rfl fun _ => by rintro ⟨⟩, trivial⟩
    · exact ⟨.inr ⟨j, jBelow, rfl⟩, fun _ =>
        Value.isWithin_of_zone? rfl fun _ => by rintro ⟨⟩, trivial⟩
    · exact ⟨.inl rfl, fun _ => Value.isWithin_of_zone? rfl fun _ => by rintro ⟨⟩, trivial⟩
  exact ⟨rfl, fun choice mem => (cases_ choice mem).1,
    fun most choice mem => (cases_ choice mem).2.1 most,
    fun choice mem => (cases_ choice mem).2.2⟩

theorem conflictBelow_of_mem_conflictsOf {i start count : Nat} {first : Layer}
    {layers : List Layer} (iBelow : i < count) (fits : start + layers.length ≤ count)
    {flag : Ambiguity} (mem : flag ∈ conflictsOf i first start layers) :
    ConflictBelow count flag ∧ ∃ layer ∈ layers, flag.layerId = some layer.id := by
  induction layers generalizing start with
  | nil => cases mem
  | cons second rest ih =>
      rw [List.length_cons] at fits
      have later := fun inside => @ih (start + 1) (by omega) inside
      rw [conflictsOf] at mem
      split at mem
      · rcases List.mem_cons.mp mem with here | inside
        · subst here
          exact ⟨conflictBelow_conflictFlag first second iBelow (by omega), second,
            List.mem_cons_self, rfl⟩
        · rcases later inside with ⟨below, layer, layerMem, about⟩
          exact ⟨below, layer, List.mem_cons_of_mem _ layerMem, about⟩
      · rcases later mem with ⟨below, layer, layerMem, about⟩
        exact ⟨below, layer, List.mem_cons_of_mem _ layerMem, about⟩

theorem conflictBelow_of_mem_conflictsFrom {start count : Nat} {layers : List Layer}
    (fits : start + layers.length ≤ count) {flag : Ambiguity}
    (mem : flag ∈ conflictsFrom start layers) :
    ConflictBelow count flag ∧ ∃ layer ∈ layers, flag.layerId = some layer.id := by
  induction layers generalizing start with
  | nil => cases mem
  | cons first rest ih =>
      rw [List.length_cons] at fits
      rw [conflictsFrom] at mem
      rcases List.mem_append.mp mem with here | later
      · have first : start < count := by omega
        have others : start + 1 + rest.length ≤ count := by omega
        obtain ⟨below, layer, layerMem, about⟩ := conflictBelow_of_mem_conflictsOf first others here
        exact ⟨below, layer, List.mem_cons_of_mem _ layerMem, about⟩
      · rcases ih (by omega) later with ⟨below, layer, layerMem, about⟩
        exact ⟨below, layer, List.mem_cons_of_mem _ layerMem, about⟩

namespace Prompt

/-! ## The prompt -/

/-- A flag of a prompt that was parsed into layers with the given ids. -/
inductive ParsedFlag (ids : List String) (flag : Ambiguity) : Prop where
  | ofClause (id : String) (mem : id ∈ ids) (leaves : LeavesOpen id flag)
  | ofConflict (id : String) (mem : id ∈ ids) (about : flag.layerId = some id)
      (conflict : ConflictBelow ids.length flag)

/-- What parsing a prompt gives: layers numbered from zero, on listed zones, and flags of those
layers. -/
theorem parse_spec {text : String} {roofline : Option Roofline} {settings : ParserSettings}
    {intent : Intent} (parsed : parse text roofline settings = .ok intent) :
    (intent.layers.map Layer.id = (List.range intent.layers.length).map fun i : Nat => layerId i) ∧
      (∀ layer ∈ intent.layers, layer.zone.IsListed) ∧
      ∀ flag ∈ intent.ambiguities, ParsedFlag (intent.layers.map Layer.id) flag := by
  rcases bind_eq_ok_iff.mp parsed with ⟨understood, read, rest⟩
  rcases bind_eq_ok_iff.mp rest with ⟨confidence, -, shape⟩
  rw [pure_eq_ok_iff] at shape
  subst shape
  have related := understandFrom_eq_ok read
  have each : ∀ result ∈ understood, ∃ index : Nat,
      result.layer.id = layerId index ∧ result.layer.zone.IsListed ∧
        ∀ flag ∈ result.flags, LeavesOpen (layerId index) flag := by
    intro result mem
    rcases exists_partner related.flip mem with ⟨clause, -, readOne⟩
    exact ⟨clause.2, understand_spec readOne⟩
  refine ⟨?_, ?_, ?_⟩
  · have ids : (understood.map Understanding.layer).map Layer.id =
        ((clauses (normalize text.toList)).zipIdx).map fun clause => layerId clause.2 := by
      rw [List.map_map, ← List.forall₂_eq_eq_eq, List.forall₂_map_left_iff,
        List.forall₂_map_right_iff]
      exact related.flip.imp fun _ _ readOne => (understand_spec readOne).1
    have count : understood.length = (clauses (normalize text.toList)).length := by
      rw [← related.length_eq, List.length_zipIdx]
    rw [ids, List.length_map, count, List.range_eq_range', ← List.zipIdx_map_snd 0 (clauses _),
      List.map_map]
    rfl
  · intro layer mem
    rcases List.mem_map.mp mem with ⟨result, resultMem, rfl⟩
    rcases each result resultMem with ⟨-, -, listed, -⟩
    exact listed
  · intro flag mem
    rcases List.mem_append.mp mem with ofClause | ofConflict
    · rcases List.mem_flatMap.mp ofClause with ⟨result, resultMem, inside⟩
      rcases each result resultMem with ⟨index, sameId, -, leaves⟩
      exact .ofClause result.layer.id (List.mem_map_of_mem (List.mem_map_of_mem resultMem))
        (sameId ▸ leaves flag inside)
    · obtain ⟨below, layer, layerMem, about⟩ :=
        conflictBelow_of_mem_conflictsFrom (Nat.le_of_eq (Nat.zero_add _)) ofConflict
      apply ParsedFlag.ofConflict layer.id (List.mem_map_of_mem layerMem) about
      rw [List.length_map]
      exact below

/-- A parsed design is within every bound. -/
theorem isWithin_parse {text : String} {roofline : Option Roofline} {settings : ParserSettings}
    {intent : Intent} (parsed : parse text roofline settings = .ok intent) (most : Int) :
    intent.IsWithin most := by
  rcases parse_spec parsed with ⟨-, listed, flags⟩
  constructor
  · exact listed
  · intro flag mem
    cases flags flag mem with
    | ofClause _ _ leaves => exact leaves.within most
    | ofConflict _ _ _ conflict => exact conflict.within most

/-- Nothing behind the choices of a parsed design has anything inside it. -/
theorem isFlat_parse {text : String} {roofline : Option Roofline} {settings : ParserSettings}
    {intent : Intent} (parsed : parse text roofline settings = .ok intent) :
    ∀ flag ∈ intent.ambiguities, flag.IsFlat := by
  intro flag mem
  cases (parse_spec parsed).2.2 flag mem with
  | ofClause _ _ leaves => exact leaves.flat
  | ofConflict _ _ _ conflict => exact conflict.flat

/-- Whoever names a colour vaguely is asked which shade of it is meant. -/
theorem exists_shade_of_vague {text : String} {roofline : Option Roofline}
    {settings : ParserSettings} {intent : Intent}
    (parsed : parse text roofline settings = .ok intent) {clause : List Char}
    (mem : clause ∈ clauses (normalize text.toList)) {mention : VagueMention}
    (isVague : mention ∈ vagueMentions clause) :
    ∃ origin, whichShade origin mention.vague ∈ intent.ambiguities := by
  rcases bind_eq_ok_iff.mp parsed with ⟨understood, read, rest⟩
  rcases bind_eq_ok_iff.mp rest with ⟨confidence, -, shape⟩
  rw [pure_eq_ok_iff] at shape
  subst shape
  rcases List.mem_iff_getElem?.mp mem with ⟨index, there⟩
  obtain ⟨result, together, readOne⟩ :=
    exists_partner (understandFrom_eq_ok read) (List.mk_mem_zipIdx_iff_getElem?.mpr there)
  rcases bind_eq_ok_iff.mp readOne with ⟨rule, -, isResult⟩
  rw [pure_eq_ok_iff] at isResult
  subst isResult
  refine ⟨⟨clause, layerId index⟩, List.mem_append_left _ (List.mem_flatMap.mpr
    ⟨_, (List.of_mem_zip together).2, ?_⟩)⟩
  exact List.mem_append_left _ (List.mem_append_right _ (List.mem_map_of_mem isVague))

end Prompt

end Eaves
