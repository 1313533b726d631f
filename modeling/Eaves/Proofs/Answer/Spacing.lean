import Eaves.Proofs.Answer.Change

/-!
# Answers about spacing

An answer to a question about the spacing of a layer settles the spacing, whichever
option it chooses, and the layer's spacing is settled from then on.  Where all the
questions are about spacing, every other layer stays exactly as it is: its zone does
not change, and so neither does what the checks say about it.

Checking a layer reads its id and name, whether it is on, its zone and its spacing, and
nothing else.  Only questions about the zone or the spacing of a layer change any of
that; so whatever else is answered, the checks say the same about it as before.
-/

namespace Eaves

open Outcome

/-! ## Layers that stay -/

/-- A layer that stays as it is, or has its spacing settled. -/
def Layer.StaysOrSettles (before after : Layer) : Prop :=
  after = before ∨ after.id = before.id ∧ after.IsSettled

namespace Layer.StaysOrSettles

theorem refl (layer : Layer) : layer.StaysOrSettles layer :=
  .inl rfl

theorem trans {first second third : Layer} (left : first.StaysOrSettles second)
    (right : second.StaysOrSettles third) : first.StaysOrSettles third := by
  rcases right with rfl | ⟨sameId, settled⟩
  · exact left
  · rcases left with rfl | ⟨earlierId, -⟩
    · exact .inr ⟨sameId, settled⟩
    · exact .inr ⟨sameId.trans earlierId, settled⟩

end Layer.StaysOrSettles

namespace Settle

variable {layers changed : List Layer} {question : Question} {offer : Offer}
  {flag : Option Ambiguity}

/-- A question about spacing sets the layer it names, if there is one, and no other. -/
theorem change_spacing_eq_ok (isSpacing : question.kind = .spacing)
    (chosen : change layers question offer flag = .ok changed) :
    (changed = layers ∧ ∀ layer ∈ layers, some layer.id ≠ question.layerId) ∨
      ∃ affected layer next, layers[affected]? = some layer ∧ some layer.id = question.layerId ∧
        next.id = layer.id ∧ next.IsSettled ∧ changed = layers.set affected next := by
  cases changes_of_change chosen with
  | unnamed noLayer => exact .inl ⟨rfl, noLayer⟩
  | idle settlesNone =>
      rw [isSpacing] at settlesNone
      cases settlesNone
  | layer there named chooses =>
      rw [isSpacing] at chooses
      cases chooses with
      | spacing chosenSpacing =>
          rcases Layer.chooseSpacing_eq_ok chosenSpacing with ⟨sameId, -, settled⟩
          exact .inr ⟨_, _, _, there, named, sameId, settled, rfl⟩
  | conflict isConflict _ => cases isSpacing.symm.trans isConflict

/-- Where a question about spacing is answered, the spacing of its layer is settled. -/
theorem isSettled_of_change (apart : (layers.map Layer.id).Nodup)
    (isSpacing : question.kind = .spacing)
    (chosen : change layers question offer flag = .ok changed) :
    ∀ layer ∈ changed, some layer.id = question.layerId → layer.IsSettled := by
  intro layer mem named
  rcases change_spacing_eq_ok isSpacing chosen with
    ⟨rfl, noLayer⟩ | ⟨affected, old, next, there, oldNamed, -, settled, rfl⟩
  · exact absurd named (noLayer layer mem)
  · rcases List.mem_iff_getElem.mp mem with ⟨position, inside, rfl⟩
    rw [List.getElem_set] at named ⊢
    split at named
    · rename_i here
      rw [if_pos here]
      exact settled
    · -- another layer of the same id cannot be
      rename_i elsewhere
      rw [List.length_set] at inside
      rcases List.getElem?_eq_some_iff.mp there with ⟨affectedInside, rfl⟩
      have affectedInIds : affected < (layers.map Layer.id).length := by
        rwa [List.length_map]
      have positionInIds : position < (layers.map Layer.id).length := by
        rwa [List.length_map]
      have sameId : (layers.map Layer.id)[affected] = (layers.map Layer.id)[position] := by
        rw [List.getElem_map, List.getElem_map]
        exact Option.some.inj (oldNamed.trans named.symm)
      exact absurd (apart.getElem_inj_iff.mp sameId) elsewhere

/-- What an option makes of a layer for a question about spacing has its spacing settled. -/
theorem admits_staysOrSettles (isSpacing : question.kind = .spacing) :
    Admits Layer.StaysOrSettles question offer := by
  constructor
  · intro layer next _ chooses
    rw [isSpacing] at chooses
    cases chooses with
    | spacing chosen =>
        rcases Layer.chooseSpacing_eq_ok chosen with ⟨sameId, -, settled⟩
        exact .inr ⟨sameId, settled⟩
  · intro isConflict
    cases isSpacing.symm.trans isConflict

end Settle

namespace Intent

open Settle

variable {intent settled : Intent} {answers : Answers} {subject : Subject}
  {questions : List Question}

/-- Where all questions are about spacing, every layer stays as it is or has its spacing
settled. -/
theorem staysOrSettles_settle (allSpacing : ∀ question ∈ questions, question.kind = .spacing)
    (settles : intent.settle answers questions = .ok settled) :
    List.Forall₂ Layer.StaysOrSettles intent.layers settled.layers := by
  rcases settle_eq_ok_iff.mp settles with ⟨done, ran, rfl⟩
  exact forall₂_run Layer.StaysOrSettles.refl Layer.StaysOrSettles.trans
    (fun question mem _ _ => admits_staysOrSettles (allSpacing question mem)) ran

/-- Answers that give an option to a question about spacing settle the spacing of its layer,
whatever else they change. -/
theorem isSettled_of_settle (apart : (intent.layers.map Layer.id).Nodup)
    (asked : ask intent.ambiguities subject = .ok questions)
    (listed : ∀ question ∈ questions, ∀ offer, chosen? answers question = some offer →
      BringsListed question offer)
    (settles : intent.settle answers questions = .ok settled) {question : Question}
    (mem : question ∈ questions) (isSpacing : question.kind = .spacing)
    (given : answers.giveOption question = true) :
    ∀ layer ∈ settled.layers, some layer.id = question.layerId → layer.IsSettled := by
  intro layer layerMem named
  rcases settle_eq_ok_iff.mp settles with ⟨done, ran, rfl⟩
  rcases exists_aboutOpen_of_ask asked with ⟨placed, -, aboutOpen, -⟩
  rcases exists_partner aboutOpen.about mem with ⟨flag, together, -⟩
  rw [← isSome_chosen?] at given
  rcases Option.isSome_iff_exists.mp given with ⟨offer, isChosen⟩
  obtain ⟨before, after, upTo, changed, since⟩ :=
    exists_change_of_chosen aboutOpen listed ran together isChosen
  have apartBefore : (before.map Layer.id).Nodup := upTo.map_id ▸ apart
  rcases exists_partner since.flip layerMem with ⟨earlier, pair, follows⟩
  apply follows.settled
  apply isSettled_of_change apartBefore isSpacing changed earlier (List.of_mem_zip pair).2
  rw [← follows.id_eq]
  exact named

end Intent

/-! ## What the checks read of a layer -/

/-- Two layers in which the checks read the same. -/
structure Layer.ReadsAlike (before after : Layer) : Prop where
  id_eq : after.id = before.id
  name_eq : after.name = before.name
  enabled_eq : after.enabled = before.enabled
  zone_eq : after.zone = before.zone
  spacing_eq : after.coloring.spacing = before.coloring.spacing
  accepted_eq : after.coloring.acceptedSpacing = before.coloring.acceptedSpacing

namespace Layer.ReadsAlike

theorem refl (layer : Layer) : layer.ReadsAlike layer :=
  ⟨rfl, rfl, rfl, rfl, rfl, rfl⟩

theorem trans {first second third : Layer} (left : first.ReadsAlike second)
    (right : second.ReadsAlike third) : first.ReadsAlike third :=
  ⟨right.id_eq.trans left.id_eq, right.name_eq.trans left.name_eq,
    right.enabled_eq.trans left.enabled_eq, right.zone_eq.trans left.zone_eq,
    right.spacing_eq.trans left.spacing_eq, right.accepted_eq.trans left.accepted_eq⟩

/-- The checks say the same about layers in which they read the same. -/
theorem check_eq {before after : Layer} (alike : before.ReadsAlike after) (roofline : Roofline)
    (settings : CheckSettings) :
    Check.layer after roofline settings = Check.layer before roofline settings := by
  simp only [Check.layer, Check.zoneExistence, Check.needsQuestion, Check.spacingFlag,
    Coloring.spacingAccepted, alike.id_eq, alike.name_eq, alike.zone_eq, alike.spacing_eq,
    alike.accepted_eq]
  rfl

end Layer.ReadsAlike

/-- Only an option that stands for a zone, and one about spacing, changes what the checks read
of a layer. -/
theorem Layer.Chooses.readsAlike {layer next : Layer} {offer : Offer} {kind : QuestionKind}
    (chooses : layer.Chooses offer kind next) (noZone : kind = .zone → offer.zone? = none)
    (noSpacing : kind ≠ .spacing) : layer.ReadsAlike next := by
  cases chooses with
  | zone =>
      rw [chooseZone, noZone rfl]
      exact .refl layer
  | color =>
      unfold chooseColor
      split
      · exact ⟨rfl, rfl, rfl, rfl, rfl, rfl⟩
      · exact .refl layer
  | spacing _ => exact absurd rfl noSpacing
  | direction =>
      unfold chooseDirection
      split
      · exact ⟨rfl, rfl, rfl, rfl, rfl, rfl⟩
      · exact .refl layer
  | effect =>
      unfold chooseEffect
      split
      · exact ⟨rfl, rfl, rfl, rfl, rfl, rfl⟩
      · exact .refl layer
  | speed =>
      unfold chooseSpeed
      split
      · exact ⟨rfl, rfl, rfl, rfl, rfl, rfl⟩
      · exact .refl layer

/-- A layer that keeps its id, and all the checks read of it if it has the given one. -/
structure Layer.KeepsReading (layerId : Option String) (before after : Layer) : Prop where
  id_eq : after.id = before.id
  alike : some before.id = layerId → before.ReadsAlike after

namespace Layer.KeepsReading

variable {layerId : Option String}

theorem refl (layer : Layer) : layer.KeepsReading layerId layer :=
  ⟨rfl, fun _ => .refl layer⟩

theorem trans {first second third : Layer} (left : first.KeepsReading layerId second)
    (right : second.KeepsReading layerId third) : first.KeepsReading layerId third := by
  refine ⟨right.id_eq.trans left.id_eq, ?_⟩
  intro named
  exact (left.alike named).trans (right.alike (left.id_eq ▸ named))

end Layer.KeepsReading

/-! ## Answers about a layer -/

namespace Answers

/-- Answers give a question about the zone of a layer an option that stands for a zone. -/
def MoveLayer (answers : Answers) (questions : List Question) (layerId : Option String) : Prop :=
  ∃ question ∈ questions, question.kind = .zone ∧ question.layerId = layerId ∧
    ∃ offer, Settle.chosen? answers question = some offer ∧ offer.zone?.isSome = true

/-- Answers give a question about the spacing of a layer an option. -/
def SpaceLayer (answers : Answers) (questions : List Question) (layerId : Option String) : Prop :=
  ∃ question ∈ questions, question.kind = .spacing ∧ question.layerId = layerId ∧
    answers.giveOption question = true

end Answers

namespace Settle

variable {question : Question} {offer : Offer} {layerId : Option String}

/-- An option changes nothing that the checks read of the layers with an id, unless it is for a
question about the zone or the spacing of these. -/
theorem admits_keepsReading
    (noZone : question.kind = .zone → question.layerId = layerId → offer.zone? = none)
    (noSpacing : question.kind = .spacing → question.layerId ≠ layerId) :
    Admits (Layer.KeepsReading layerId) question offer := by
  constructor
  · intro layer next named chooses
    refine ⟨chooses.keeps.1, ?_⟩
    intro isLayer
    have about : question.layerId = layerId := named.symm.trans isLayer
    exact chooses.readsAlike (fun isZone => noZone isZone about)
      fun isSpacing => noSpacing isSpacing about
  · intro _ layer priority
    exact ⟨rfl, fun _ => ⟨rfl, rfl, rfl, rfl, rfl, rfl⟩⟩

end Settle

namespace Intent

open Settle

variable {intent settled : Intent} {answers : Answers} {questions : List Question}
  {layerId : Option String}

/-- The layers of a design keep their ids when answers are applied. -/
theorem map_id_settle (settles : intent.settle answers questions = .ok settled) :
    settled.layers.map Layer.id = intent.layers.map Layer.id := by
  rcases settle_eq_ok_iff.mp settles with ⟨done, ran, rfl⟩
  have sameIds : List.Forall₂ (fun before after : Layer => after.id = before.id)
      intent.layers done.layers := by
    refine forall₂_run (R := fun before after => after.id = before.id) (fun _ => rfl)
      (fun left right => right.trans left) ?_ ran
    intro question _ offer _
    exact ⟨fun _ chooses => chooses.keeps.1, fun _ _ _ => rfl⟩
  rw [← List.forall₂_eq_eq_eq, List.forall₂_map_left_iff, List.forall₂_map_right_iff]
  exact sameIds.flip

/-- Answers that neither move a layer nor settle its spacing leave all that the checks read of
it. -/
theorem keepsReading_settle (stays : ¬answers.MoveLayer questions layerId)
    (unspaced : ¬answers.SpaceLayer questions layerId)
    (settles : intent.settle answers questions = .ok settled) :
    List.Forall₂ (Layer.KeepsReading layerId) intent.layers settled.layers := by
  rcases settle_eq_ok_iff.mp settles with ⟨done, ran, rfl⟩
  refine forall₂_run Layer.KeepsReading.refl Layer.KeepsReading.trans ?_ ran
  intro question mem offer isChosen
  apply admits_keepsReading
  · intro isZone about
    by_contra moves
    exact stays ⟨question, mem, isZone, about, offer, isChosen,
      Option.isSome_iff_ne_none.mpr moves⟩
  · intro isSpacing about
    apply unspaced
    refine ⟨question, mem, isSpacing, about, ?_⟩
    rw [← isSome_chosen?, isChosen]
    rfl

end Intent

end Eaves
