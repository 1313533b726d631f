import Eaves.Answer.Settle
import Eaves.Proofs.Outcome

/-!
# What one option changes

Applying an option does one of three things: it leaves the layers as they are, it puts
another layer in the place of the one that its question names, or it settles a
conflict by priorities.  What answers keep, and what they change, is read off from
these three and from what an option makes of a single layer: a relation between layers
that holds there holds between the layers before and after any number of answers.
-/

namespace Eaves

open Outcome

/-- What an option for a question of a kind makes of the layer that the question names. -/
inductive Layer.Chooses (layer : Layer) (offer : Offer) : QuestionKind → Layer → Prop
  | zone : layer.Chooses offer .zone (layer.chooseZone offer)
  | color : layer.Chooses offer .color (layer.chooseColor offer)
  | spacing {next : Layer} (chosen : layer.chooseSpacing offer = .ok next) :
      layer.Chooses offer .spacing next
  | direction : layer.Chooses offer .direction (layer.chooseDirection offer)
  | effect : layer.Chooses offer .effect (layer.chooseEffect offer)
  | speed : layer.Chooses offer .speed (layer.chooseSpeed offer)

/-- No option for a layer changes its id or its priority. -/
theorem Layer.Chooses.keeps {layer next : Layer} {offer : Offer} {kind : QuestionKind}
    (chooses : layer.Chooses offer kind next) :
    next.id = layer.id ∧ next.priority = layer.priority := by
  cases chooses with
  | zone =>
      unfold chooseZone
      split <;> exact ⟨rfl, rfl⟩
  | color =>
      unfold chooseColor
      split <;> exact ⟨rfl, rfl⟩
  | spacing chosen =>
      rcases bind_eq_ok_iff.mp chosen with ⟨rule, -, shape⟩
      split at shape
      all_goals
        rw [pure_eq_ok_iff] at shape
        subst shape
        exact ⟨rfl, rfl⟩
  | direction =>
      unfold chooseDirection
      split <;> exact ⟨rfl, rfl⟩
  | effect =>
      unfold chooseEffect
      split <;> exact ⟨rfl, rfl⟩
  | speed =>
      unfold chooseSpeed
      split <;> exact ⟨rfl, rfl⟩

/-- The layers with another priority for the one at a position. -/
def withPriority (layers : List Layer) (position : Nat) (priority : Layer → Int) : List Layer :=
  layers.modify position fun layer => { layer with priority := priority layer }

theorem withPriority_self (layers : List Layer) (position : Nat) :
    withPriority layers position Layer.priority = layers :=
  List.modify_id position layers

/-- However a conflict is settled, one layer at most gets a higher priority, and nothing else
changes. -/
theorem exists_priority_of_chooseWinner {layers changed : List Layer} {affected : Int}
    {offer : Offer} {flag : Option Ambiguity}
    (chosen : chooseWinner layers affected offer flag = .ok changed) :
    ∃ position priority, (∀ layer : Layer, layer.priority ≤ priority layer) ∧
      changed = withPriority layers position priority := by
  have same : ∃ position priority, (∀ layer : Layer, layer.priority ≤ priority layer) ∧
      layers = withPriority layers position priority :=
    ⟨0, Layer.priority, fun _ => Int.le_refl _, (withPriority_self layers 0).symm⟩
  have lifted : ∀ (winner : Int) (involved : List Int), ∃ position priority,
      (∀ layer : Layer, layer.priority ≤ priority layer) ∧
        letWin layers winner involved = withPriority layers position priority := by
    intro winner involved
    unfold letWin
    dsimp only
    split
    · exact same
    · split
      · exact ⟨_, _, fun _ => Int.le_max_left _ _, rfl⟩
      · exact same
  unfold chooseWinner at chosen
  split at chosen
  · unfold blend at chosen
    split at chosen
    · cases chosen
      exact ⟨_, _, fun layer => Int.le_of_lt (Int.lt_succ layer.priority), rfl⟩
    · cases chosen
  · rcases bind_eq_ok_iff.mp chosen with ⟨winner, -, rest⟩
    split at rest
    · rw [pure_eq_ok_iff] at rest
      exact rest ▸ same
    · dsimp only at rest
      split at rest
      all_goals
        rcases bind_eq_ok_iff.mp rest with ⟨involved, -, shape⟩
        rw [pure_eq_ok_iff] at shape
        exact shape ▸ lifted _ _

namespace Settle

/-- What applying an option can make of the layers. -/
inductive Changes (layers : List Layer) (question : Question) (offer : Offer)
    (flag : Option Ambiguity) : List Layer → Prop
  | unnamed (noLayer : ∀ layer ∈ layers, some layer.id ≠ question.layerId) :
      Changes layers question offer flag layers
  | idle (settlesNone : question.kind.settlesFlags = false) :
      Changes layers question offer flag layers
  | layer {position : Nat} {layer next : Layer} (there : layers[position]? = some layer)
      (named : some layer.id = question.layerId)
      (chosen : layer.Chooses offer question.kind next)
      (first : (layers.findIdx? fun layer => some layer.id == question.layerId) = some position) :
      Changes layers question offer flag (layers.set position next)
  | conflict {affected : Nat} {changed : List Layer} (isConflict : question.kind = .conflict)
      (chosen : chooseWinner layers affected offer flag = .ok changed) :
      Changes layers question offer flag changed

theorem modify_eq_set {layers : List Layer} {position : Nat} {layer : Layer}
    (there : layers[position]? = some layer) (change : Layer → Layer) :
    layers.modify position change = layers.set position (change layer) := by
  rw [List.modify_eq_set_getElem?, there]
  rfl

theorem changes_of_change {layers changed : List Layer} {question : Question} {offer : Offer}
    {flag : Option Ambiguity} (chosen : change layers question offer flag = .ok changed) :
    Changes layers question offer flag changed := by
  unfold change at chosen
  split at chosen
  · rename_i noLayer
    cases chosen
    apply Changes.unnamed
    intro layer mem
    simpa using List.findIdx?_eq_none_iff.mp noLayer layer mem
  · rename_i affected isFound
    rcases List.findIdx?_eq_some_iff_getElem.mp isFound with ⟨inside, isNamed, -⟩
    have there := List.getElem?_eq_getElem inside
    have named : some layers[affected].id = question.layerId := by
      simpa using isNamed
    -- what the option makes of the layer is put in its place
    have placed : ∀ choose : Layer → Layer,
        layers[affected].Chooses offer question.kind (choose layers[affected]) →
        Changes layers question offer flag (layers.modify affected choose) := by
      intro choose chooses
      rw [modify_eq_set there]
      exact .layer there named chooses isFound
    dsimp only at chosen
    split at chosen
    · rename_i isZone
      cases chosen
      exact placed (fun layer => layer.chooseZone offer) (isZone ▸ .zone)
    · rename_i isColor
      cases chosen
      exact placed (fun layer => layer.chooseColor offer) (isColor ▸ .color)
    · rename_i isSpacing
      simp only [there] at chosen
      rcases map_eq_ok_iff.mp chosen with ⟨next, chosenSpacing, rfl⟩
      exact .layer there named (isSpacing ▸ .spacing chosenSpacing) isFound
    · rename_i isDirection
      cases chosen
      exact placed (fun layer => layer.chooseDirection offer) (isDirection ▸ .direction)
    · rename_i isEffect
      cases chosen
      exact placed (fun layer => layer.chooseEffect offer) (isEffect ▸ .effect)
    · rename_i isSpeed
      cases chosen
      exact placed (fun layer => layer.chooseSpeed offer) (isSpeed ▸ .speed)
    · rename_i isConflict
      exact .conflict isConflict chosen
    all_goals
      rename_i isIdle
      cases chosen
      exact .idle (isIdle ▸ rfl)

end Settle

/-! ## Layers before and after -/

namespace Pointwise

variable {α : Type} {R : α → α → Prop}

theorem refl (isRefl : ∀ a, R a a) (members : List α) : List.Forall₂ R members members :=
  List.forall₂_same.mpr fun a _ => isRefl a

theorem trans (isTrans : ∀ {a b c : α}, R a b → R b c → R a c) {first second third : List α}
    (left : List.Forall₂ R first second) (right : List.Forall₂ R second third) :
    List.Forall₂ R first third := by
  induction left generalizing third with
  | nil => exact right
  | cons related _ ih =>
      cases right with
      | cons next rest => exact .cons (isTrans related next) (ih rest)

theorem set (isRefl : ∀ a, R a a) {members : List α} {position : Nat} {member changed : α}
    (there : members[position]? = some member) (related : R member changed) :
    List.Forall₂ R members (members.set position changed) := by
  induction members generalizing position with
  | nil => cases there
  | cons first rest ih =>
      cases position with
      | zero =>
          cases there
          exact .cons related (refl isRefl rest)
      | succ position => exact .cons (isRefl first) (ih there)

theorem modify (isRefl : ∀ a, R a a) {change : α → α} (related : ∀ a, R a (change a))
    (members : List α) (position : Nat) :
    List.Forall₂ R members (members.modify position change) := by
  cases there : members[position]? with
  | none =>
      rw [List.modify_eq_set_getElem?, there]
      exact refl isRefl members
  | some member =>
      rw [List.modify_eq_set_getElem?, there]
      exact set isRefl there (related member)

end Pointwise

namespace Settle

/-- A relation holds between every layer and what an option for a question makes of it. -/
structure Admits (R : Layer → Layer → Prop) (question : Question) (offer : Offer) : Prop where
  chooses : ∀ {layer next : Layer}, some layer.id = question.layerId →
    layer.Chooses offer question.kind next → R layer next
  priority : question.kind = .conflict → ∀ (layer : Layer) (priority : Int),
    R layer { layer with priority := priority }

variable {R : Layer → Layer → Prop}

theorem Admits.change (isRefl : ∀ layer, R layer layer) {layers changed : List Layer}
    {question : Question} {offer : Offer} (admits : Admits R question offer)
    {flag : Option Ambiguity} (chosen : change layers question offer flag = .ok changed) :
    List.Forall₂ R layers changed := by
  cases changes_of_change chosen with
  | unnamed => exact Pointwise.refl isRefl layers
  | idle => exact Pointwise.refl isRefl layers
  | layer there named chooses => exact Pointwise.set isRefl there (admits.chooses named chooses)
  | conflict isConflict settles =>
      obtain ⟨position, priority, -, rfl⟩ := exists_priority_of_chooseWinner settles
      exact Pointwise.modify isRefl (fun layer => admits.priority isConflict layer _) layers
        position

/-- An answer to one question applies the option that is chosen to the layers, or to the
brightness, or to nothing. -/
theorem applyOne_cases {flags : List Ambiguity} {answers : Answers} {progress next : Progress}
    {question : Question} (applied : applyOne flags answers progress question = .ok next) :
    (next.layers = progress.layers ∨ ∃ offer flag, chosen? answers question = some offer ∧
      change progress.layers question offer flag = .ok next.layers) ∧
    (next.settings = progress.settings ∨ ∃ offer level, chosen? answers question = some offer ∧
      question.kind = .brightness ∧
        next.settings = { progress.settings with brightness := level }) := by
  unfold applyOne at applied
  split at applied
  · rename_i offer isChosen
    unfold applyOffer at applied
    split at applied
    · rcases bind_eq_ok_iff.mp applied with ⟨found, -, rest⟩
      split at rest
      · rw [pure_eq_ok_iff] at rest
        exact rest ▸ ⟨.inl rfl, .inl rfl⟩
      · rcases bind_eq_ok_iff.mp rest with ⟨layers, changed, shape⟩
        rw [pure_eq_ok_iff] at shape
        subst shape
        exact ⟨.inr ⟨offer, _, isChosen, changed⟩, .inl rfl⟩
    · split at applied
      · rename_i isBrightness _
        cases applied
        exact ⟨.inl rfl, .inr ⟨offer, _, isChosen, isBrightness, rfl⟩⟩
      · rcases bind_eq_ok_iff.mp applied with ⟨layers, changed, shape⟩
        rw [pure_eq_ok_iff] at shape
        subst shape
        exact ⟨.inr ⟨offer, _, isChosen, changed⟩, .inl rfl⟩
  · cases applied
    exact ⟨.inl rfl, .inl rfl⟩

/-- An answer to one question relates the layers before and after it. -/
theorem forall₂_applyOne (isRefl : ∀ layer, R layer layer) {flags : List Ambiguity}
    {answers : Answers} {progress next : Progress} {question : Question}
    (admits : ∀ offer, chosen? answers question = some offer → Admits R question offer)
    (applied : applyOne flags answers progress question = .ok next) :
    List.Forall₂ R progress.layers next.layers := by
  rcases (applyOne_cases applied).1 with same | ⟨offer, flag, isChosen, changed⟩
  · rw [same]
    exact Pointwise.refl isRefl _
  · exact (admits offer isChosen).change isRefl changed

/-- Answers to any number of questions relate the layers before and after them. -/
theorem forall₂_run (isRefl : ∀ layer, R layer layer)
    (isTrans : ∀ {a b c : Layer}, R a b → R b c → R a c) {flags : List Ambiguity}
    {answers : Answers} {questions : List Question} {start done : Progress}
    (admits : ∀ question ∈ questions, ∀ offer, chosen? answers question = some offer →
      Admits R question offer)
    (ran : questions.foldlM (applyOne flags answers) start = .ok done) :
    List.Forall₂ R start.layers done.layers := by
  refine foldlM_keeps (fun progress => List.Forall₂ R start.layers progress.layers) ?_
    (Pointwise.refl isRefl _) ran
  intro _ question _ mem held applied
  have step := forall₂_applyOne isRefl (admits question mem) applied
  exact Pointwise.trans (R := R) isTrans held step

end Settle

end Eaves
