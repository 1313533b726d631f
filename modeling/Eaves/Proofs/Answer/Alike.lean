import Eaves.Proofs.Answer.Settling
import Eaves.Proofs.Question.Alike

/-!
# Answers to questions that are alike

An option changes a layer by what it means, so options that mean the same change the
same layers in the same way, for flags that are alike.  Hence answers settle a design
whose flags were written out and read back just as they settle the design that was
kept, and leave the same flags, written out.
-/

namespace Eaves

open Outcome

variable {offer option : Offer} {flag twin : Ambiguity}

/-! ## What an option is read as -/

theorem Offer.Alike.zone_eq (alike : offer.Alike option) : offer.zone? = option.zone? := by
  rw [zone?, zone?, alike.value.zone_eq, alike.id_eq]

theorem Offer.Alike.direction_eq (alike : offer.Alike option) :
    (offer.member? : Option Direction) = option.member? := by
  rw [member?, member?, alike.value.direction_eq, alike.id_eq]

theorem Offer.Alike.motion_eq (alike : offer.Alike option) :
    (offer.member? : Option MotionKind) = option.member? := by
  rw [member?, member?, alike.value.motion_eq, alike.id_eq]

theorem Offer.Alike.spacing_eq (alike : offer.Alike option) :
    offer.spacing? = option.spacing? := by
  rw [spacing?, spacing?, alike.value.spacing_eq, alike.id_eq, alike.label_eq]

/-! ## One option -/

/-- Flags that are alike are about the same layers of a conflict. -/
theorem contenders_alike (alike : flag.Alike twin) : contenders flag = contenders twin := by
  have sameIds : ∀ {choices others : List Choice}, List.Forall₂ Choice.Alike choices others →
      choices.mapM (fun choice => winner? choice.id) =
        others.mapM fun choice => winner? choice.id := by
    intro choices others related
    induction related with
    | nil => rfl
    | cons first _ ih => rw [List.mapM_cons, List.mapM_cons, first.id_eq, ih]
  rw [contenders, contenders, sameIds alike.choices]

theorem chooseWinner_alike (alike : offer.Alike option) {about same : Option Ambiguity}
    (flags : Option.Rel Ambiguity.Alike about same) (layers : List Layer) (affected : Int) :
    chooseWinner layers affected offer about = chooseWinner layers affected option same := by
  unfold chooseWinner
  rw [alike.id_eq]
  cases flags with
  | none => rfl
  | some isAlike => simp only [contenders_alike isAlike]

namespace Settle

/-- Options that mean the same change the layers in the same way, for questions that are alike. -/
theorem change_alike {question other : Question} (sameKind : question.kind = other.kind)
    (sameLayer : question.layerId = other.layerId) (settles : question.kind.settlesFlags = true)
    (alike : offer.Alike option) {about same : Option Ambiguity}
    (flags : Option.Rel Ambiguity.Alike about same) (layers : List Layer) :
    change layers question offer about = change layers other option same := by
  unfold change
  rw [← sameLayer, ← sameKind]
  cases layers.findIdx? fun layer => some layer.id == question.layerId with
  | none => rfl
  | some affected =>
      dsimp only
      cases kind : question.kind with
      | zone => simp only [Layer.chooseZone, alike.zone_eq]
      | color => simp only [Layer.chooseColor, alike.color_eq, alike.label_eq]
      | spacing => simp only [Layer.chooseSpacing, alike.spacing_eq]
      | direction => simp only [Layer.chooseDirection, alike.direction_eq]
      | effect => simp only [Layer.chooseEffect, alike.motion_eq]
      | conflict => exact chooseWinner_alike alike flags layers affected
      | brightness => rfl
      | speed =>
          rw [kind] at settles
          cases settles
      | confirmation => rfl
      | manualFallback => rfl

/-- An answer picks options that mean the same from questions that are alike, or none from both. -/
theorem offerFor?_alike {question other : Question} (alike : question.Alike other)
    (answer : Answer) :
    Option.Rel Offer.Alike (offerFor? question answer) (offerFor? other answer) := by
  cases answer with
  | own own => exact .some (.refl own)
  | chosen id => exact find?_related (fun _ _ same => by rw [same.id_eq]) alike.offers

theorem chosen?_alike {question other : Question} (alike : question.Alike other)
    (sameId : question.id = other.id) (answers : Answers) :
    Option.Rel Offer.Alike (chosen? answers question) (chosen? answers other) := by
  rw [chosen?, chosen?, sameId]
  cases answers.lookup other.id with
  | none => exact .none
  | some answer => exact offerFor?_alike alike answer

/-! ## All options -/

variable {flags twins : List Ambiguity} {answers : Answers}

theorem getElem?_related {α β : Type} {R : α → β → Prop} {members : List α} {others : List β}
    (related : List.Forall₂ R members others) (position : Nat) :
    Option.Rel R members[position]? others[position]? := by
  induction related generalizing position with
  | nil => exact .none
  | cons first _ ih =>
      cases position with
      | zero => exact .some first
      | succ position => exact ih position

/-- Questions that are alike, with one id, are matched with flags at the same position. -/
theorem flagFor?_alike {question other : Question} (alike : question.Alike other)
    (sameId : question.id = other.id) (flagsAlike : List.Forall₂ Ambiguity.Alike flags twins)
    (settled : List Nat) : flagFor? flags settled question = flagFor? twins settled other := by
  have sameOpen : isOpenFor flags settled question = isOpenFor twins settled other := by
    funext position
    unfold isOpenFor asksAbout
    have placed := getElem?_related flagsAlike position
    revert placed
    cases flags[position]? <;> cases twins[position]? <;> intro placed
    · rfl
    · cases placed
    · cases placed
    · cases placed with
      | some isAlike =>
          dsimp only
          rw [isAlike.kind_eq, isAlike.layerId_eq, alike.kind_eq, alike.layerId_eq]
  rw [flagFor?, flagFor?, sameId, sameOpen, flagsAlike.length_eq]

/-- An answer does the same to questions that are alike, with one id, among flags that are alike. -/
theorem applyOne_alike {question other : Question} (alike : question.Alike other)
    (sameId : question.id = other.id) (settles : question.kind.settlesFlags = true)
    (flagsAlike : List.Forall₂ Ambiguity.Alike flags twins) (progress : Progress) :
    applyOne flags answers progress question = applyOne twins answers progress other := by
  have options := chosen?_alike alike sameId answers
  unfold applyOne
  revert options
  cases chosen? answers question <;> cases chosen? answers other <;> intro options
  · rfl
  · cases options
  · cases options
  · cases options with
    | some isAlike =>
        have settlesToo : other.kind.settlesFlags = true := alike.kind_eq ▸ settles
        dsimp only
        rw [applyOffer, applyOffer, if_pos settles, if_pos settlesToo,
          flagFor?_alike alike sameId flagsAlike]
        congr 1
        funext found
        cases found with
        | none => rfl
        | some position =>
            dsimp only
            rw [change_alike alike.kind_eq alike.layerId_eq settles isAlike
              (getElem?_related flagsAlike position)]

/-- Answers do the same to questions that are alike, each with one id, among flags that are
alike. -/
theorem foldlM_applyOne_alike {questions others : List Question}
    (alike : List.Forall₂ (fun question same => question.Alike same ∧ question.id = same.id)
      questions others)
    (settle : ∀ question ∈ questions, question.kind.settlesFlags = true)
    (flagsAlike : List.Forall₂ Ambiguity.Alike flags twins) (progress : Progress) :
    questions.foldlM (applyOne flags answers) progress =
      others.foldlM (applyOne twins answers) progress := by
  induction alike generalizing progress with
  | nil => rfl
  | cons first _ ih =>
      rw [List.foldlM_cons, List.foldlM_cons,
        applyOne_alike first.1 first.2 (settle _ List.mem_cons_self) flagsAlike]
      congr 1
      funext next
      exact ih (fun other mem => settle other (List.mem_cons_of_mem _ mem)) next

/-- What is left of flags is left of them when all are changed one by one. -/
theorem remaining_map (change : Ambiguity → Ambiguity) (flags : List Ambiguity)
    (settled : List Nat) :
    remaining (flags.map change) settled = (remaining flags settled).map change := by
  rw [remaining, remaining, List.zipIdx_map, List.filter_map, List.map_map, List.map_map]
  rfl

end Settle

/-! ## Flags that are written out -/

/-- A flag that was written out is alike to the one that was kept. -/
theorem Ambiguity.IsFlat.alike_plain (flat : flag.IsFlat) : flag.Alike flag.plain := by
  refine ⟨rfl, rfl, ?_⟩
  rw [Ambiguity.plain, List.forall₂_map_right_iff]
  exact List.forall₂_same.mpr fun choice mem => ⟨rfl, rfl, (flat choice mem).alike_plain⟩

/-- What is asked about a design settles flags. -/
theorem settlesFlags_of_ask {flags : List Ambiguity} {subject : Subject}
    {questions : List Question} (asked : ask flags subject = .ok questions) :
    ∀ question ∈ questions, question.kind.settlesFlags = true := by
  intro question mem
  rcases exists_flag_of_mem_ask asked mem with ⟨flag, position, -, askedOne⟩
  rw [(isAbout_of_askOne askedOne).kind_eq]
  exact Settle.settlesFlags_question flag.kind

/-- Answers settle a design with plain flags as they settle the design, and leave the same flags,
plain. -/
theorem Intent.settle_plain {intent : Intent} (flat : ∀ flag ∈ intent.ambiguities, flag.IsFlat)
    {subject other : Subject} (sameStrip : subject.roofline = other.roofline)
    {questions others : List Question} (asked : ask intent.ambiguities subject = .ok questions)
    (askedToo : ask intent.plain.ambiguities other = .ok others) (answers : Answers) :
    intent.plain.settle answers others = (intent.settle answers questions).map Intent.plain := by
  have flagsAlike : List.Forall₂ Ambiguity.Alike intent.ambiguities intent.plain.ambiguities := by
    rw [Intent.plain, List.forall₂_map_right_iff]
    exact List.forall₂_same.mpr fun flag mem => (flat flag mem).alike_plain
  have ran : ∀ progress, questions.foldlM (Settle.applyOne intent.ambiguities answers) progress =
      others.foldlM (Settle.applyOne intent.plain.ambiguities answers) progress :=
    Settle.foldlM_applyOne_alike (ask_alike sameStrip flagsAlike asked askedToo)
      (settlesFlags_of_ask asked) flagsAlike
  have sameStart : (⟨intent.plain.layers, intent.plain.settings, []⟩ : Settle.Progress) =
      ⟨intent.layers, intent.settings, []⟩ := rfl
  rw [settle, settle, ran, sameStart]
  cases others.foldlM (Settle.applyOne intent.plain.ambiguities answers)
      ⟨intent.layers, intent.settings, []⟩ with
  | error failure => rfl
  | ok done =>
      simp only [ok_bind, Intent.plain, Settle.remaining_map]
      rfl

end Eaves
