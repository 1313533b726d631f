import Eaves.Proofs.Answer.Settling
import Eaves.Proofs.Answer.Step
import Eaves.Proofs.Check.Validation
import Eaves.Proofs.Design.Within

/-!
# What answers do to layers

Choosing an option changes one layer at most, and never its id.  A zone comes in only
by an option of a zone question, and a spacing that is settled stays settled
whatever is chosen, so that answers to other questions do not open it again.
-/

namespace Eaves

open Outcome

/-- What a layer keeps while answers are applied to it. -/
structure Layer.Follows (before after : Layer) : Prop where
  id_eq : after.id = before.id
  listed : before.zone.IsListed → after.zone.IsListed
  settled : before.IsSettled → after.IsSettled

namespace Layer

theorem Follows.refl (layer : Layer) : layer.Follows layer :=
  ⟨rfl, fun listed => listed, fun settled => settled⟩

theorem Follows.trans {first second third : Layer} (left : first.Follows second)
    (right : second.Follows third) : first.Follows third :=
  ⟨right.id_eq.trans left.id_eq, right.listed ∘ left.listed, right.settled ∘ left.settled⟩

/-! ## One layer -/

theorem follows_chooseZone {layer : Layer} {offer : Offer}
    (listed : ∀ zone, offer.zone? = some zone → zone.IsListed) :
    layer.Follows (layer.chooseZone offer) := by
  unfold chooseZone
  split
  · rename_i zone isZone
    exact ⟨rfl, fun _ => listed zone isZone, fun settled => settled⟩
  · exact .refl layer

theorem follows_chooseColor (layer : Layer) (offer : Offer) :
    layer.Follows (layer.chooseColor offer) := by
  unfold chooseColor
  split
  · exact ⟨rfl, fun listed => listed, fun settled => settled⟩
  · exact .refl layer

theorem follows_chooseDirection (layer : Layer) (offer : Offer) :
    layer.Follows (layer.chooseDirection offer) := by
  unfold chooseDirection
  split
  · exact ⟨rfl, fun listed => listed, fun settled => settled⟩
  · exact .refl layer

theorem follows_chooseEffect (layer : Layer) (offer : Offer) :
    layer.Follows (layer.chooseEffect offer) := by
  unfold chooseEffect
  split
  · exact ⟨rfl, fun listed => listed, fun settled => settled⟩
  · exact .refl layer

theorem follows_chooseSpeed (layer : Layer) (offer : Offer) :
    layer.Follows (layer.chooseSpeed offer) := by
  unfold chooseSpeed
  split
  · exact ⟨rfl, fun listed => listed, fun settled => settled⟩
  · exact .refl layer

theorem follows_withPriority (layer : Layer) (priority : Int) :
    layer.Follows { layer with priority := priority } :=
  ⟨rfl, fun listed => listed, fun settled => settled⟩

/-- After a spacing question the spacing of the layer is settled. -/
theorem chooseSpacing_eq_ok {layer changed : Layer} {offer : Offer}
    (chosen : layer.chooseSpacing offer = .ok changed) :
    changed.id = layer.id ∧ changed.zone = layer.zone ∧ changed.IsSettled := by
  unfold chooseSpacing at chosen
  rcases bind_eq_ok_iff.mp chosen with ⟨offered, -, rest⟩
  split at rest
  · rw [pure_eq_ok_iff] at rest
    subst rest
    refine ⟨rfl, rfl, .inr ?_⟩
    simp [Coloring.spacingAccepted]
  · rename_i noRule
    rw [pure_eq_ok_iff] at rest
    subst rest
    exact ⟨rfl, rfl, .inl (Option.or_eq_none_iff.mp noRule).2⟩

theorem follows_chooseSpacing {layer changed : Layer} {offer : Offer}
    (chosen : layer.chooseSpacing offer = .ok changed) : layer.Follows changed := by
  rcases chooseSpacing_eq_ok chosen with ⟨sameId, sameZone, isSettled⟩
  exact ⟨sameId, fun listed => sameZone ▸ listed, fun _ => isSettled⟩

end Layer

/-! ## All layers -/

/-- Layers that follow others, one by one. -/
abbrev LayersFollow : List Layer → List Layer → Prop :=
  List.Forall₂ Layer.Follows

namespace LayersFollow

theorem refl (layers : List Layer) : LayersFollow layers layers :=
  List.forall₂_same.mpr fun layer _ => .refl layer

theorem trans {first second third : List Layer} (left : LayersFollow first second)
    (right : LayersFollow second third) : LayersFollow first third :=
  Pointwise.trans (R := Layer.Follows) Layer.Follows.trans left right

/-- Layers that follow others have their ids. -/
theorem map_id {before after : List Layer} (follow : LayersFollow before after) :
    after.map Layer.id = before.map Layer.id := by
  rw [← List.forall₂_eq_eq_eq, List.forall₂_map_left_iff, List.forall₂_map_right_iff]
  exact follow.flip.imp fun _ _ follows => follows.id_eq

end LayersFollow

namespace Settle

/-- The zones that an option of a zone question may bring in are listed. -/
def BringsListed (question : Question) (offer : Offer) : Prop :=
  question.kind = .zone → ∀ zone, offer.zone? = some zone → zone.IsListed

variable {layers changed : List Layer} {question : Question} {offer : Offer}
  {flag : Option Ambiguity}

/-- Whatever is chosen for whatever question, a layer after it follows the one before. -/
theorem admits_follows (listed : BringsListed question offer) :
    Admits Layer.Follows question offer := by
  refine ⟨?_, fun _ => Layer.follows_withPriority⟩
  intro layer next _ chooses
  generalize isKind : question.kind = kind at chooses
  cases chooses with
  | zone => exact Layer.follows_chooseZone (listed isKind)
  | color => exact layer.follows_chooseColor offer
  | spacing chosen => exact Layer.follows_chooseSpacing chosen
  | direction => exact layer.follows_chooseDirection offer
  | effect => exact layer.follows_chooseEffect offer
  | speed => exact layer.follows_chooseSpeed offer

/-! ## A run of questions -/

/-- The layers after the option that answers give a question, if any, is applied for the flag
that the question is about. -/
def changeFor (answers : Answers) (layers : List Layer)
    (asked : Question × (Ambiguity × Nat)) : Outcome (List Layer) :=
  match chosen? answers asked.1 with
  | some offer => change layers asked.1 offer (some asked.2.1)
  | none => .ok layers

variable {flags : List Ambiguity} {answers : Answers} {questions : List Question}
  {placed : List (Ambiguity × Nat)} {start done : Progress}

/-- Questions about different open flags change the layers one after another, each for its own
flag. -/
theorem foldlM_changeFor (aboutOpen : AboutOpen flags start.settled questions placed)
    (ran : questions.foldlM (applyOne flags answers) start = .ok done) :
    (questions.zip placed).foldlM (changeFor answers) start.layers = .ok done.layers := by
  have about := aboutOpen.about
  induction about generalizing start with
  | nil =>
      rw [List.foldlM_nil, pure_eq_ok_iff] at ran
      rw [ran]
      rfl
  | @cons question flag questions placed first _ ih =>
      rw [List.foldlM_cons] at ran
      rcases bind_eq_ok_iff.mp ran with ⟨next, applied, restRan⟩
      have changed : changeFor answers start.layers (question, flag) = .ok next.layers := by
        rw [applyOne] at applied
        unfold changeFor
        cases isChosen : chosen? answers question with
        | none =>
            rw [isChosen] at applied
            rw [Except.ok.inj applied]
        | some offer =>
            rw [isChosen] at applied
            obtain ⟨layers, changed, rfl⟩ := change_of_applyOffer first
              (aboutOpen.inPlace flag List.mem_cons_self) (aboutOpen.isOpen flag List.mem_cons_self)
              applied
            exact changed
      rw [List.zip_cons_cons, List.foldlM_cons, changed, ok_bind]
      exact ih (aboutOpen.tail applied) restRan

/-- Whatever answers give a question, the layers after it follow those before. -/
theorem layersFollow_changeFor {asked : Question × (Ambiguity × Nat)}
    (listed : ∀ offer, chosen? answers asked.1 = some offer → BringsListed asked.1 offer)
    (changedFor : changeFor answers layers asked = .ok changed) : LayersFollow layers changed := by
  unfold changeFor at changedFor
  split at changedFor
  · rename_i offer isChosen
    exact (admits_follows (listed offer isChosen)).change Layer.Follows.refl changedFor
  · cases changedFor
    exact LayersFollow.refl layers

/-- Every option that is given is applied, between layers that follow each other. -/
theorem exists_change_of_chosen (aboutOpen : AboutOpen flags start.settled questions placed)
    (listed : ∀ question ∈ questions, ∀ offer, chosen? answers question = some offer →
      BringsListed question offer)
    (ran : questions.foldlM (applyOne flags answers) start = .ok done)
    {question : Question} {flag : Ambiguity × Nat}
    (together : (question, flag) ∈ questions.zip placed) {offer : Offer}
    (isChosen : chosen? answers question = some offer) :
    ∃ before after, LayersFollow start.layers before ∧
      change before question offer (some flag.1) = .ok after ∧
        LayersFollow after done.layers := by
  have ranFor := foldlM_changeFor aboutOpen ran
  have follow : ∀ {before after : List Layer} {some : List (Question × (Ambiguity × Nat))},
      some ⊆ questions.zip placed → some.foldlM (changeFor answers) before = .ok after →
      LayersFollow before after := by
    intro before after some inside ranSome
    refine foldlM_keeps (LayersFollow before) ?_ (LayersFollow.refl before) ranSome
    intro layers asked next mem held changedFor
    have askedMem := (List.of_mem_zip (inside mem)).1
    exact held.trans (layersFollow_changeFor (listed asked.1 askedMem) changedFor)
  rcases List.append_of_mem together with ⟨earlier, later, split⟩
  rw [split] at ranFor follow
  rcases exists_step_of_foldlM ranFor with ⟨before, after, upTo, stepped, since⟩
  rw [changeFor, isChosen] at stepped
  refine ⟨before, after, follow (List.subset_append_left _ _) upTo, stepped, ?_⟩
  exact follow (fun _ mem => List.mem_append_right _ (List.mem_cons_of_mem _ mem)) since

end Settle

namespace Intent

open Settle

variable {intent settled : Intent} {answers : Answers} {questions : List Question}

/-- The layers of a design that is settled follow those it had. -/
theorem layersFollow_settle
    (listed : ∀ question ∈ questions, ∀ offer, chosen? answers question = some offer →
      BringsListed question offer)
    (settles : intent.settle answers questions = .ok settled) :
    LayersFollow intent.layers settled.layers := by
  rcases settle_eq_ok_iff.mp settles with ⟨done, ran, rfl⟩
  exact forall₂_run Layer.Follows.refl Layer.Follows.trans
    (fun question mem offer isChosen => admits_follows (listed question mem offer isChosen)) ran

/-- Settling leaves flags of the design and makes none. -/
theorem ambiguities_settle_sublist (settles : intent.settle answers questions = .ok settled) :
    settled.ambiguities.Sublist intent.ambiguities := by
  rcases settle_eq_ok_iff.mp settles with ⟨done, -, rfl⟩
  have kept : (remaining intent.ambiguities done.settled).Sublist
      (intent.ambiguities.zipIdx.map Prod.fst) := List.filter_sublist.map Prod.fst
  rwa [List.zipIdx_map_fst] at kept

end Intent

/-! ## What answers leave alone -/

/-- What a layer keeps while options of questions of some kinds are chosen for it: each kind of
question has its own part of the layer, and the rest is never touched. -/
structure Layer.KeptBut (asked : QuestionKind → Prop) (before after : Layer) : Prop where
  id_eq : after.id = before.id
  name_eq : after.name = before.name
  pattern_eq : after.pattern = before.pattern
  enabled_eq : after.enabled = before.enabled
  secondary_eq : after.coloring.secondary = before.coloring.secondary
  accent_eq : after.coloring.accent = before.coloring.accent
  fill_eq : after.coloring.fill = before.coloring.fill
  zone_eq : ¬asked .zone → after.zone = before.zone
  primary_eq : ¬asked .color → after.coloring.primary = before.coloring.primary ∧
    after.coloring.primaryName = before.coloring.primaryName
  spacing_eq : ¬asked .spacing → after.coloring.spacing = before.coloring.spacing ∧
    after.coloring.acceptedSpacing = before.coloring.acceptedSpacing
  motion_eq : ¬asked .direction → ¬asked .effect → ¬asked .speed → after.motion = before.motion
  priority_eq : ¬asked .conflict → after.priority = before.priority
  priority_le : before.priority ≤ after.priority

namespace Layer

theorem KeptBut.refl (asked : QuestionKind → Prop) (layer : Layer) : layer.KeptBut asked layer where
  id_eq := rfl
  name_eq := rfl
  pattern_eq := rfl
  enabled_eq := rfl
  secondary_eq := rfl
  accent_eq := rfl
  fill_eq := rfl
  zone_eq _ := rfl
  primary_eq _ := ⟨rfl, rfl⟩
  spacing_eq _ := ⟨rfl, rfl⟩
  motion_eq _ _ _ := rfl
  priority_eq _ := rfl
  priority_le := le_refl _

theorem KeptBut.trans {asked : QuestionKind → Prop} {first second third : Layer}
    (left : first.KeptBut asked second) (right : second.KeptBut asked third) :
    first.KeptBut asked third where
  id_eq := right.id_eq.trans left.id_eq
  name_eq := right.name_eq.trans left.name_eq
  pattern_eq := right.pattern_eq.trans left.pattern_eq
  enabled_eq := right.enabled_eq.trans left.enabled_eq
  secondary_eq := right.secondary_eq.trans left.secondary_eq
  accent_eq := right.accent_eq.trans left.accent_eq
  fill_eq := right.fill_eq.trans left.fill_eq
  zone_eq no := (right.zone_eq no).trans (left.zone_eq no)
  primary_eq no := ⟨(right.primary_eq no).1.trans (left.primary_eq no).1,
    (right.primary_eq no).2.trans (left.primary_eq no).2⟩
  spacing_eq no := ⟨(right.spacing_eq no).1.trans (left.spacing_eq no).1,
    (right.spacing_eq no).2.trans (left.spacing_eq no).2⟩
  motion_eq noDirection noEffect noSpeed := (right.motion_eq noDirection noEffect noSpeed).trans
    (left.motion_eq noDirection noEffect noSpeed)
  priority_eq no := (right.priority_eq no).trans (left.priority_eq no)
  priority_le := left.priority_le.trans right.priority_le

theorem KeptBut.mono {asked more : QuestionKind → Prop} (le : ∀ kind, asked kind → more kind)
    {before after : Layer} (kept : before.KeptBut asked after) : before.KeptBut more after where
  id_eq := kept.id_eq
  name_eq := kept.name_eq
  pattern_eq := kept.pattern_eq
  enabled_eq := kept.enabled_eq
  secondary_eq := kept.secondary_eq
  accent_eq := kept.accent_eq
  fill_eq := kept.fill_eq
  zone_eq no := kept.zone_eq (mt (le _) no)
  primary_eq no := kept.primary_eq (mt (le _) no)
  spacing_eq no := kept.spacing_eq (mt (le _) no)
  motion_eq noDirection noEffect noSpeed :=
    kept.motion_eq (mt (le _) noDirection) (mt (le _) noEffect) (mt (le _) noSpeed)
  priority_eq no := kept.priority_eq (mt (le _) no)
  priority_le := kept.priority_le

/-- An option for a layer changes the part of it that questions of its kind are about. -/
theorem Chooses.keptBut {layer next : Layer} {offer : Offer} {kind : QuestionKind}
    (chooses : layer.Chooses offer kind next) : layer.KeptBut (· = kind) next := by
  have same := KeptBut.refl (· = kind) layer
  cases chooses with
  | zone =>
      unfold chooseZone
      split
      · exact { same with zone_eq := fun no => absurd rfl no }
      · exact same
  | color =>
      unfold chooseColor
      split
      · exact { same with primary_eq := fun no => absurd rfl no }
      · exact same
  | spacing chosen =>
      rcases bind_eq_ok_iff.mp chosen with ⟨rule, -, shape⟩
      split at shape
      all_goals
        rw [pure_eq_ok_iff] at shape
        subst shape
      · exact { same with spacing_eq := fun no => absurd rfl no }
      · exact same
  | direction =>
      unfold chooseDirection
      split
      · exact { same with motion_eq := fun no _ _ => absurd rfl no }
      · exact same
  | effect =>
      unfold chooseEffect
      split
      · exact { same with motion_eq := fun _ no _ => absurd rfl no }
      · exact same
  | speed =>
      unfold chooseSpeed
      split
      · exact { same with motion_eq := fun _ _ no => absurd rfl no }
      · exact same

theorem keptBut_withPriority (layer : Layer) {priority : Int} (le : layer.priority ≤ priority) :
    layer.KeptBut (· = .conflict) { layer with priority := priority } :=
  { KeptBut.refl (· = .conflict) layer with
    priority_eq := fun no => absurd rfl no
    priority_le := le }

end Layer

/-- As many layers in the same order, each kept but for the kinds of questions that are asked about
its position. -/
structure LayersKeptBut (asked : Nat → QuestionKind → Prop) (before after : List Layer) : Prop where
  length_eq : after.length = before.length
  each : ∀ {position : Nat} {layer next : Layer}, before[position]? = some layer →
    after[position]? = some next → layer.KeptBut (asked position) next

namespace LayersKeptBut

variable {asked more : Nat → QuestionKind → Prop} {before after : List Layer}

theorem refl (asked : Nat → QuestionKind → Prop) (layers : List Layer) :
    LayersKeptBut asked layers layers where
  length_eq := rfl
  each there same := by
    cases there.symm.trans same
    exact .refl _ _

theorem trans {third : List Layer} (left : LayersKeptBut asked before after)
    (right : LayersKeptBut asked after third) : LayersKeptBut asked before third where
  length_eq := right.length_eq.trans left.length_eq
  each := by
    intro position layer last there isLast
    obtain ⟨inside, -⟩ := List.getElem?_eq_some_iff.mp there
    have between := List.getElem?_eq_getElem (show position < after.length by
      rw [left.length_eq]
      exact inside)
    exact (left.each there between).trans (right.each between isLast)

theorem mono (le : ∀ position kind, asked position kind → more position kind)
    (kept : LayersKeptBut asked before after) : LayersKeptBut more before after where
  length_eq := kept.length_eq
  each there next := (kept.each there next).mono (le _)

/-- Another layer in the place of one changes that position only. -/
theorem set {layers : List Layer} {position : Nat} {layer changed : Layer}
    (there : layers[position]? = some layer) (kept : layer.KeptBut (asked position) changed) :
    LayersKeptBut asked layers (layers.set position changed) where
  length_eq := List.length_set
  each := by
    intro other old next isOld isNext
    rw [List.getElem?_set] at isNext
    by_cases here : position = other
    · subst here
      obtain ⟨inside, -⟩ := List.getElem?_eq_some_iff.mp there
      rw [if_pos rfl, if_pos inside] at isNext
      cases isNext
      cases there.symm.trans isOld
      exact kept
    · rw [if_neg here] at isNext
      cases isOld.symm.trans isNext
      exact .refl _ _

/-- Kept layers have the ids they had. -/
theorem map_id (kept : LayersKeptBut asked before after) :
    after.map Layer.id = before.map Layer.id := by
  apply List.ext_getElem
  · simp [kept.length_eq]
  · intro position inAfter inBefore
    rw [List.length_map] at inAfter inBefore
    rw [List.getElem_map, List.getElem_map]
    exact (kept.each (List.getElem?_eq_getElem inBefore) (List.getElem?_eq_getElem inAfter)).id_eq

/-- The layer that an id names stays where it is. -/
theorem findIdx?_eq (kept : LayersKeptBut asked before after) (id : Option String) :
    (after.findIdx? fun layer => some layer.id == id) =
      before.findIdx? fun layer => some layer.id == id := by
  have byIds : ∀ layers : List Layer, (layers.findIdx? fun layer => some layer.id == id) =
      (layers.map Layer.id).findIdx? fun own => some own == id := by
    intro layers
    rw [List.findIdx?_map]
    rfl
  rw [byIds, byIds, kept.map_id]

end LayersKeptBut

namespace Settle

/-- Answers give an option to some question of a kind that may change the layer at a position: the
first one with the id that the question names, and for a conflict, which is settled by
priorities, any layer. -/
def MayChange (answers : Answers) (questions : List Question) (layers : List Layer)
    (position : Nat) (kind : QuestionKind) : Prop :=
  ∃ question ∈ questions, question.kind = kind ∧ answers.giveOption question = true ∧
    (kind = .conflict ∨
      (layers.findIdx? fun layer => some layer.id == question.layerId) = some position)

/-- An option changes the layer that its question names, in the part that the question is about,
and an option of a conflict changes a priority. -/
theorem layersKeptBut_change {layers changed : List Layer} {question : Question} {offer : Offer}
    {flag : Option Ambiguity} (chosen : change layers question offer flag = .ok changed) :
    LayersKeptBut (fun position kind => question.kind = kind ∧ (kind = .conflict ∨
        (layers.findIdx? fun layer => some layer.id == question.layerId) = some position))
      layers changed := by
  cases changes_of_change chosen with
  | unnamed => exact .refl _ layers
  | idle => exact .refl _ layers
  | layer there named chooses first =>
      apply LayersKeptBut.set there
      apply chooses.keptBut.mono
      rintro kind rfl
      exact ⟨rfl, .inr first⟩
  | conflict isConflict settles =>
      obtain ⟨position, priority, atLeast, rfl⟩ := exists_priority_of_chooseWinner settles
      unfold withPriority
      cases there : layers[position]? with
      | none =>
          rw [List.modify_eq_set_getElem?, there]
          exact .refl _ layers
      | some layer =>
          rw [modify_eq_set there]
          apply LayersKeptBut.set there
          apply (layer.keptBut_withPriority (atLeast layer)).mono
          rintro kind rfl
          exact ⟨isConflict, .inl rfl⟩

/-- What a run of answers has changed so far, of the layers and of the settings that it started
with. -/
structure KeepsBut (answers : Answers) (questions : List Question) (start done : Progress) :
    Prop where
  layers : LayersKeptBut (MayChange answers questions start.layers) start.layers done.layers
  settings_eq : done.settings = { start.settings with brightness := done.settings.brightness }
  brightness_eq : done.settings.brightness ≠ start.settings.brightness →
    ∃ question ∈ questions, question.kind = .brightness ∧ answers.giveOption question = true

variable {answers : Answers} {questions : List Question} {start progress next : Progress}

theorem KeepsBut.refl (answers : Answers) (questions : List Question) (start : Progress) :
    KeepsBut answers questions start start :=
  ⟨.refl _ _, rfl, fun changed => absurd rfl changed⟩

/-- One more question changes what it may, and the rest stays. -/
theorem KeepsBut.applyOne (kept : KeepsBut answers questions start progress)
    {flags : List Ambiguity} {question : Question} (mem : question ∈ questions)
    (applied : applyOne flags answers progress question = .ok next) :
    KeepsBut answers questions start next := by
  have given : ∀ {offer}, chosen? answers question = some offer →
      answers.giveOption question = true := by
    intro offer isChosen
    rw [← isSome_chosen?, isChosen]
    rfl
  obtain ⟨layers, settings⟩ := applyOne_cases applied
  constructor
  · rcases layers with same | ⟨offer, flag, isChosen, changed⟩
    · rw [same]
      exact kept.layers
    · apply kept.layers.trans
      apply (layersKeptBut_change changed).mono
      rintro position kind ⟨isKind, may⟩
      rw [kept.layers.findIdx?_eq] at may
      exact ⟨question, mem, isKind, given isChosen, may⟩
  · rcases settings with same | ⟨offer, level, -, -, shape⟩
    · rw [same]
      exact kept.settings_eq
    · rw [shape, kept.settings_eq]
  · rcases settings with same | ⟨offer, level, isChosen, isBrightness, -⟩
    · rw [same]
      exact kept.brightness_eq
    · intro _
      exact ⟨question, mem, isBrightness, given isChosen⟩

end Settle

/-- Two layers with one id, of which the zone is open. -/
def twinLayers : Intent :=
  { layers := [{ id := "layer_0", name := "red" }, { id := "layer_0", name := "twin" }],
    ambiguities := [{ kind := .zone, description := "", layerId := some "layer_0" }] }

/-- Questions about the zone of the layers and about the brightness. -/
def zoneAndBrightness : List Question :=
  [{ id := "zone_0", kind := .zone, wording := "Where?", offers := [],
      layerId := some "layer_0" },
    { id := "brightness", kind := .brightness, wording := "How bright?", offers := [] }]

/-- The peaks, dimly lit. -/
def dimPeaks : Answers :=
  [("zone_0", .own { id := "peaks", label := "Peaks" }),
    ("brightness", .own { id := "dim", label := "Dim", value := .int 40 })]

end Eaves
