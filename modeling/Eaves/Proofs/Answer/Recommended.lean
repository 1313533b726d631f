import Eaves.Proofs.Answer.Ranking
import Eaves.Proofs.Command.Accepting
import Eaves.Proofs.Prompt.Assumed
import Eaves.Proofs.Question.Recommending

/-!
# Taking what is recommended about a prompt

Every layer of a prompt is built on assumptions, and taking what is recommended makes
the assumptions once more.  For zones, directions and conflicts nothing changes by that.
A recommended shade is put in the place of the primary colour, whichever place the word
it is a shade of had in the clause, and so a layer ends in the shade of the last vague
word of its clause.
-/

namespace Eaves

open Outcome

/-! ## What is recommended -/

/-- A first option that is marked is the recommended one. -/
theorem Question.recommended?_of_head {question : Question} {first : Offer}
    (isFirst : question.offers.head? = some first) (marked : first.recommended = true) :
    question.recommended? = some first := by
  rcases List.head?_eq_some_iff.mp isFirst with ⟨rest, offers_eq⟩
  rw [recommended?, offers_eq, List.find?_cons_of_pos marked]
  rfl

section Asked

variable {subject : Subject} {position : Nat} {question : Question} {origin : Prompt.Origin}

/-- Of the shades of a vague word, the one that is assumed is recommended. -/
theorem exists_recommended_whichShade {vague : Prompt.VagueColor}
    (asked : askOne subject position (Prompt.whichShade origin vague) = .ok question) :
    ∃ offer, question.recommended? = some offer ∧ offer.color? = some vague.assumed.color ∧
      offer.label = vague.assumed.label := by
  rcases askOne_eq_ok_iff.mp asked with ⟨wording, offers, n, worded, -, rfl⟩
  rcases map_eq_ok_iff.mp worded with ⟨own, isOwn, shape⟩
  cases shape
  rcases bind_eq_ok_iff.mp isOwn with ⟨lights, -, rest⟩
  rw [pure_eq_ok_iff] at rest
  subst rest
  exact ⟨_, Question.recommended?_of_head rfl rfl, rfl, rfl⟩

/-- The usual direction is the one that is recommended. -/
theorem exists_recommended_whichDirection {kind : MotionKind}
    (asked : askOne subject position (Prompt.whichDirection origin kind) = .ok question) :
    ∃ offer, question.recommended? = some offer ∧
      offer.member? = some Direction.leftToRight := by
  rcases askOne_eq_ok_iff.mp asked with ⟨wording, offers, n, worded, -, rfl⟩
  cases worded
  exact ⟨_, Question.recommended?_of_head rfl rfl, by decide⟩

/-- The option of everything of a feature is the zone itself. -/
theorem zone?_of_mem_zoneOffers {feature : Feature} {zone : Zone} {matching : List Segment}
    {offer : Offer} (mem : offer ∈ zoneOffers subject
      (Prompt.manySegments origin feature zone matching)) (isAll : offer.id = "all") :
    offer.zone? = some zone := by
  -- everything of the feature is the first of the options, whatever is added to them
  have first : ∃ own rest, zoneOffers subject (Prompt.manySegments origin feature zone matching) =
      Offer.withLast (own :: rest) wholeRoofline [] ∧ own.id = "all" ∧ own.zone? = some zone := by
    unfold zoneOffers
    cases subject.roofline with
    | none => exact ⟨_, _, rfl, rfl, rfl⟩
    | some roofline => exact ⟨_, _, rfl, rfl, rfl⟩
  obtain ⟨own, rest, offers_eq, ownIsAll, isZone⟩ := first
  rw [offers_eq, Offer.withLast, List.mem_append] at mem
  rcases mem with other | isLast
  · have notAll := (List.mem_filter.mp (List.mem_of_mem_take other)).2
    simp [isAll, wholeRoofline] at notAll
  · rw [List.find?_cons_of_pos (by simp [ownIsAll, wholeRoofline]), Option.getD_some,
      List.mem_singleton] at isLast
    rw [isLast]
    exact isZone

/-- The zone of a layer is what is recommended where many segments are in it. -/
theorem exists_recommended_manySegments {feature : Feature} {zone : Zone}
    {matching : List Segment} (asked : askOne subject position
      (Prompt.manySegments origin feature zone matching) = .ok question) :
    ∃ offer, question.recommended? = some offer ∧ offer.zone? = some zone := by
  have recommends := (recommend_of_askOne (.zone rfl rfl) asked).recommended
  rw [← Question.recommended?_map_id, Option.map_eq_some_iff] at recommends
  rcases recommends with ⟨offer, isRecommended, sameId⟩
  have offered := Question.mem_offers_of_recommended? isRecommended
  rcases askOne_eq_ok_iff.mp asked with ⟨wording, offers, n, worded, -, rfl⟩
  cases worded
  exact ⟨offer, isRecommended, zone?_of_mem_zoneOffers (List.mem_of_mem_take offered) sameId⟩

/-- Of two layers in conflict, the later one is recommended to win. -/
theorem exists_recommended_conflictFlag {i j : Nat} {first second : Layer} (before : i < j)
    (asked : askOne subject position (conflictFlag i j first second) = .ok question) :
    ∃ offer, question.recommended? = some offer ∧ offer.id = winnerId j := by
  have recommends := (recommend_of_askOne (.conflict rfl i j before rfl) asked).recommended
  rw [← Question.recommended?_map_id, Option.map_eq_some_iff] at recommends
  exact recommends

end Asked

/-! ## Layers in other colours -/

/-- A layer that is another one in some primary colour. -/
def Layer.IsRecolored (before after : Layer) : Prop :=
  ∃ asked, after = before.inColor asked

theorem Layer.IsRecolored.refl (layer : Layer) : layer.IsRecolored layer :=
  ⟨(layer.coloring.primaryName, layer.coloring.primary), rfl⟩

theorem Layer.IsRecolored.trans {first second third : Layer} (left : first.IsRecolored second)
    (right : second.IsRecolored third) : first.IsRecolored third := by
  rcases left with ⟨asked, rfl⟩
  rcases right with ⟨other, rfl⟩
  exact ⟨other, rfl⟩

/-- The layer after the option that its flag recommends is taken. -/
def Layer.accept (layer : Layer) (flag : Ambiguity) : Layer :=
  match flag.shadeFor? layer.id with
  | some shade => layer.inColor shade
  | none => layer

theorem Layer.accept_of_none {layer : Layer} {flag : Ambiguity}
    (noShade : flag.shadeFor? layer.id = none) : layer.accept flag = layer := by
  rw [accept, noShade]

theorem Layer.accept_of_some {layer : Layer} {flag : Ambiguity} {shade : Prompt.Asked}
    (isShade : flag.shadeFor? layer.id = some shade) : layer.accept flag = layer.inColor shade := by
  rw [accept, isShade]

theorem Layer.isRecolored_accept (layer : Layer) (flag : Ambiguity) :
    layer.IsRecolored (layer.accept flag) := by
  cases isShade : flag.shadeFor? layer.id with
  | none =>
      rw [accept_of_none isShade]
      exact .refl layer
  | some shade => exact ⟨shade, accept_of_some isShade⟩

/-- Flags give a layer the last of the shades that they recommend for it. -/
theorem Layer.foldl_accept (flags : List Ambiguity) (layer : Layer) :
    flags.foldl accept layer =
      ((flags.filterMap (Ambiguity.shadeFor? layer.id)).getLast?).elim layer layer.inColor := by
  induction flags using List.reverseRecOn with
  | nil => rfl
  | append_singleton flags flag ih =>
      rw [List.foldl_concat, ih, List.filterMap_append]
      have sameId : ∀ last : Option Prompt.Asked,
          (last.elim layer layer.inColor).id = layer.id := by
        rintro (_ | _) <;> rfl
      rw [accept, sameId]
      cases isShade : flag.shadeFor? layer.id with
      | none =>
          rw [List.filterMap_cons_none isShade, List.filterMap_nil, List.append_nil]
      | some shade =>
          rw [List.filterMap_cons_some isShade, List.filterMap_nil, List.getLast?_concat]
          cases (flags.filterMap (Ambiguity.shadeFor? layer.id)).getLast? <;> rfl

/-! ## One answer -/

/-- Every question gets the option that is recommended for it, but one about the kind of a motion
gets none. -/
def Answers.Accept (answers : Answers) (questions : List Question) : Prop :=
  ∀ question ∈ questions, Settle.chosen? answers question =
    if question.kind = .effect then none else question.recommended?

namespace Settle

variable {layers now next : List Layer} {answers : Answers} {subject : Subject} {position : Nat}
  {question : Question} {offer : Offer} {flag : Ambiguity}

theorem map_accept_of_none (noShade : ∀ layer ∈ now, flag.shadeFor? layer.id = none) :
    (now.map fun layer => layer.accept flag) = now := by
  rw [List.map_congr_left fun layer mem => Layer.accept_of_none (noShade layer mem)]
  exact List.map_id' now

theorem set_accept (apart : (now.map Layer.id).Nodup) {place : Nat} {layer : Layer}
    (there : now[place]? = some layer) (named : flag.layerId = some layer.id) :
    now.set place (layer.accept flag) = now.map fun layer => layer.accept flag := by
  apply List.ext_getElem?
  intro k
  rw [List.getElem?_set, List.getElem?_map]
  split
  · rename_i here
    subst here
    rw [if_pos (List.getElem?_eq_some_iff.mp there).1, there]
    rfl
  · rename_i elsewhere
    cases isOther : now[k]? with
    | none => rfl
    | some other =>
        have otherId : flag.layerId ≠ some other.id := by
          rw [named, Ne, Option.some.injEq]
          intro sameId
          have same := List.inj_on_of_nodup_map apart (List.mem_of_getElem? there)
            (List.mem_of_getElem? isOther) sameId
          have inside := (List.getElem?_eq_some_iff.mp there).1
          exact elsewhere ((List.getElem?_inj inside (List.Nodup.of_map _ apart)).mp
            (there.trans (same ▸ isOther.symm)))
        rw [Option.map_some, Layer.accept_of_none (Ambiguity.shadeFor?_of_layerId_ne otherId)]

/-- An option that makes of the layer of its question what is recommended for it changes the layers
in that way, unless the question is about a conflict. -/
theorem change_eq_map_accept (about : question.IsAbout (flag, position))
    (noConflict : flag.kind ≠ .conflict) (apart : (now.map Layer.id).Nodup)
    (accepted : ∀ layer ∈ now, flag.layerId = some layer.id → ∀ after,
      layer.Chooses offer flag.kind.question after → after = layer.accept flag)
    (changed : change now question offer (some flag) = .ok next) :
    next = now.map fun layer => layer.accept flag := by
  cases changes_of_change changed with
  | unnamed noLayer =>
      symm
      apply map_accept_of_none
      intro layer mem
      apply Ambiguity.shadeFor?_of_layerId_ne
      exact fun named => noLayer layer mem (named.symm.trans about.layerId_eq.symm)
  | idle settlesNone =>
      rw [about.kind_eq, settlesFlags_question] at settlesNone
      cases settlesNone
  | @layer place layer after there named chooses =>
      have named : flag.layerId = some layer.id := about.layerId_eq.symm.trans named.symm
      rw [about.kind_eq] at chooses
      rw [accepted layer (List.mem_of_getElem? there) named after chooses]
      exact set_accept apart there named
  | conflict isConflict =>
      have isConflict : flag.kind.question = AmbiguityKind.conflict.question :=
        about.kind_eq.symm.trans isConflict
      exact absurd (AmbiguityKind.question_injective isConflict) noConflict

/-- Layers that are those of a prompt, but for their primary colours. -/
structure Recolored (layers now : List Layer) : Prop where
  apart : (layers.map Layer.id).Nodup
  inOrder : ∀ (i : Nat) (layer : Layer), layers[i]? = some layer → layer.priority = i
  recolored : List.Forall₂ Layer.IsRecolored layers now

namespace Recolored

theorem apartNow (like : Recolored layers now) : (now.map Layer.id).Nodup := by
  have sameIds : now.map Layer.id = layers.map Layer.id := by
    rw [← List.forall₂_eq_eq_eq, List.forall₂_map_left_iff, List.forall₂_map_right_iff]
    apply like.recolored.flip.imp
    rintro _ _ ⟨shade, rfl⟩
    rfl
  exact sameIds ▸ like.apart

/-- The layer with the id of a layer of the prompt is that layer in some colour. -/
theorem isRecolored (like : Recolored layers now) {layer own : Layer} (mem : layer ∈ now)
    (ownMem : own ∈ layers) (sameId : layer.id = own.id) : own.IsRecolored layer := by
  obtain ⟨before, together, shade, rfl⟩ := exists_partner like.recolored.flip mem
  have same := List.inj_on_of_nodup_map like.apart (List.of_mem_zip together).2 ownMem sameId
  exact same ▸ ⟨shade, rfl⟩

/-- Taking what is recommended for a flag keeps the layers like those of the prompt. -/
theorem accept (like : Recolored layers now) (flag : Ambiguity) :
    Recolored layers (now.map fun layer => layer.accept flag) := by
  refine ⟨like.apart, like.inOrder, ?_⟩
  rw [List.forall₂_map_right_iff]
  exact like.recolored.imp fun _ layer related => related.trans (layer.isRecolored_accept flag)

/-- The zone that is recommended is the zone of the layer. -/
theorem change_zone (like : Recolored layers now) {feature : Feature} {origin : Prompt.Origin}
    {matching : List Segment} {own : Layer} (ownMem : own ∈ layers)
    (named : some origin.layerId = some own.id)
    (about : question.IsAbout (Prompt.manySegments origin feature own.zone matching, position))
    (isZone : offer.zone? = some own.zone)
    (changed : change now question offer
      (some (Prompt.manySegments origin feature own.zone matching)) = .ok next) :
    next = now.map fun layer =>
      layer.accept (Prompt.manySegments origin feature own.zone matching) := by
  refine change_eq_map_accept about (by rintro ⟨⟩) like.apartNow ?_ changed
  intro layer mem ofFlag after chooses
  obtain ⟨shade, rfl⟩ := like.isRecolored mem ownMem (Option.some.inj (ofFlag.symm.trans named))
  cases chooses
  rw [Layer.accept_of_none (Ambiguity.shadeFor?_of_kind_ne (by rintro ⟨⟩) _),
    Layer.chooseZone, isZone]
  rfl

/-- The shade that is recommended becomes the primary colour of the layer. -/
theorem change_color (like : Recolored layers now) {origin : Prompt.Origin}
    {vague : Prompt.VagueColor}
    (about : question.IsAbout (Prompt.whichShade origin vague, position))
    (isColor : offer.color? = some vague.assumed.color)
    (label : offer.label = vague.assumed.label)
    (changed : change now question offer (some (Prompt.whichShade origin vague)) = .ok next) :
    next = now.map fun layer => layer.accept (Prompt.whichShade origin vague) := by
  refine change_eq_map_accept about (by rintro ⟨⟩) like.apartNow ?_ changed
  intro layer mem ofFlag after chooses
  cases chooses
  rw [Layer.accept_of_some ((if_pos ofFlag).trans (Prompt.shade?_whichShade _ vague)),
    Layer.chooseColor, isColor, label]
  rfl

/-- The direction that is recommended is the one the layer moves in. -/
theorem change_direction (like : Recolored layers now) {origin : Prompt.Origin}
    {kind : MotionKind} {own : Layer} {motion : Motion} (ownMem : own ∈ layers)
    (named : some origin.layerId = some own.id) (moves : own.motion = some motion)
    (usual : motion.inDirection .leftToRight = motion)
    (about : question.IsAbout (Prompt.whichDirection origin kind, position))
    (isDirection : offer.member? = some Direction.leftToRight)
    (changed : change now question offer (some (Prompt.whichDirection origin kind)) = .ok next) :
    next = now.map fun layer => layer.accept (Prompt.whichDirection origin kind) := by
  refine change_eq_map_accept about (by rintro ⟨⟩) like.apartNow ?_ changed
  intro layer mem ofFlag after chooses
  obtain ⟨shade, rfl⟩ := like.isRecolored mem ownMem (Option.some.inj (ofFlag.symm.trans named))
  cases chooses
  have moving : (own.inColor shade).motion = some motion := moves
  rw [Layer.accept_of_none (Ambiguity.shadeFor?_of_kind_ne (by rintro ⟨⟩) _),
    Layer.chooseDirection, isDirection, moving]
  change { own.inColor shade with motion := some (motion.inDirection .leftToRight) } = _
  rw [usual, ← moving]

/-- The layer that is recommended to win is above the other already. -/
theorem change_conflict (like : Recolored layers now) {i j : Nat} {first second : Layer}
    (before : i < j) (isFirst : layers[i]? = some first) (isSecond : layers[j]? = some second)
    (about : question.IsAbout (conflictFlag i j first second, position))
    (wins : offer.id = winnerId j)
    (changed : change now question offer (some (conflictFlag i j first second)) = .ok next) :
    next = now := by
  obtain ⟨low, isLow, lower, rfl⟩ := exists_partner_at like.recolored isFirst
  obtain ⟨high, isHigh, higher, rfl⟩ := exists_partner_at like.recolored isSecond
  cases changes_of_change changed with
  | unnamed => rfl
  | idle => rfl
  | layer _ _ chooses =>
      rw [about.kind_eq] at chooses
      cases chooses
  | conflict _ chosen =>
      have between : (conflictFlag i j first second).IsBetween (min j i) (max j i) := by
        rw [Nat.min_eq_right before.le, Nat.max_eq_left before.le]
        exact ⟨first, second, rfl⟩
      rw [chooseWinner_eq_ok (Nat.ne_of_gt before) between wins isLow chosen]
      have lowPriority : (first.inColor lower).priority = i := like.inOrder i first isFirst
      have highPriority : (second.inColor higher).priority = j := like.inOrder j second isSecond
      apply List.ext_getElem?
      intro k
      rw [getElem?_liftTo]
      split
      · rename_i here
        subst here
        have already : max (second.inColor higher).priority
            ((first.inColor lower).priority + 1) = (second.inColor higher).priority := by
          omega
        rw [isHigh, Option.map_some, already]
      · rfl

end Recolored

/-- To take what is recommended for a flag of a prompt gives its layer the recommended shade, if it
is about a colour, and changes nothing else. -/
theorem changeFor_accepting (assumed : flag.IsAssumed layers) (like : Recolored layers now)
    (asked : askOne subject position flag = .ok question)
    (accepts : chosen? answers question =
      if question.kind = .effect then none else question.recommended?)
    (changed : changeFor answers now (question, (flag, position)) = .ok next) :
    next = now.map fun layer => layer.accept flag := by
  have about := isAbout_of_askOne asked
  unfold changeFor at changed
  rw [accepts, about.kind_eq] at changed
  cases assumed with
  | zone ownMem named isFlag =>
      subst isFlag
      obtain ⟨offer, recommends, isZone⟩ := exists_recommended_manySegments asked
      rw [if_neg (by rintro ⟨⟩), recommends] at changed
      exact like.change_zone ownMem named about isZone changed
  | color isFlag =>
      subst isFlag
      obtain ⟨offer, recommends, isColor, label⟩ := exists_recommended_whichShade asked
      rw [if_neg (by rintro ⟨⟩), recommends] at changed
      exact like.change_color about isColor label changed
  | direction ownMem named moves usual isFlag =>
      subst isFlag
      obtain ⟨offer, recommends, isDirection⟩ := exists_recommended_whichDirection asked
      rw [if_neg (by rintro ⟨⟩), recommends] at changed
      exact like.change_direction ownMem named moves usual about isDirection changed
  | effect isFlag =>
      subst isFlag
      rw [if_pos (by rfl)] at changed
      cases changed
      exact (map_accept_of_none fun _ _ => Ambiguity.shadeFor?_of_kind_ne (by rintro ⟨⟩) _).symm
  | conflict isConflict =>
      rcases isConflict with ⟨first, second, before, isFirst, isSecond, -, rfl⟩
      obtain ⟨offer, recommends, wins⟩ := exists_recommended_conflictFlag before asked
      rw [if_neg (by rintro ⟨⟩), recommends] at changed
      rw [map_accept_of_none fun _ _ => Ambiguity.shadeFor?_of_kind_ne (by rintro ⟨⟩) _]
      exact like.change_conflict before isFirst isSecond about wins changed

/-! ## All answers -/

/-- To take what is recommended for flags one after another gives every layer what they recommend
for it, in their order. -/
theorem foldlM_accepting {done : List Layer} {pairs : List (Question × (Ambiguity × Nat))}
    (assumed : ∀ pair ∈ pairs, pair.2.1.IsAssumed layers)
    (asked : ∀ pair ∈ pairs, askOne subject pair.2.2 pair.2.1 = .ok pair.1)
    (accepts : ∀ pair ∈ pairs, chosen? answers pair.1 =
      if pair.1.kind = .effect then none else pair.1.recommended?)
    (like : Recolored layers now) (ran : pairs.foldlM (changeFor answers) now = .ok done) :
    done = now.map fun layer => (pairs.map fun pair => pair.2.1).foldl Layer.accept layer := by
  induction pairs generalizing now with
  | nil =>
      rw [List.foldlM_nil, pure_eq_ok_iff] at ran
      rw [← ran]
      exact (List.map_id' now).symm
  | cons pair rest ih =>
      rw [List.forall_mem_cons] at assumed asked accepts
      rw [List.foldlM_cons] at ran
      rcases bind_eq_ok_iff.mp ran with ⟨next, changed, restRan⟩
      have next_eq := changeFor_accepting assumed.1 like asked.1 accepts.1 changed
      subst next_eq
      rw [ih assumed.2 asked.2 accepts.2 (like.accept pair.2.1) restRan, List.map_map]
      rfl

end Settle

/-- Questions about one kind of flag come in the order of the flags. -/
theorem filter_kind_of_perm {flags : List Ambiguity} {placed : List (Ambiguity × Nat)}
    (perm : placed.Perm flags.zipIdx)
    (ordered : placed.Pairwise fun a b => a.1.kind = b.1.kind → a.2 < b.2)
    (kind : AmbiguityKind) :
    (placed.map Prod.fst).filter (fun flag => flag.kind == kind) =
      flags.filter fun flag => flag.kind == kind := by
  have positions : flags.zipIdx.Pairwise fun a b => a.2 < b.2 := by
    rw [← List.pairwise_map, List.zipIdx_map_snd]
    exact List.pairwise_lt_range'
  have inOrder : (placed.filter fun flag => flag.1.kind == kind).Pairwise
      fun a b => a.2 < b.2 := by
    apply (ordered.filter _).imp_of_mem
    intro a b aMem bMem later
    have aKind := (List.mem_filter.mp aMem).2
    have bKind := (List.mem_filter.mp bMem).2
    rw [beq_iff_eq] at aKind bKind
    exact later (aKind.trans bKind.symm)
  have same : (placed.filter fun flag => flag.1.kind == kind) =
      flags.zipIdx.filter fun flag => flag.1.kind == kind :=
    (perm.filter _).eq_of_pairwise (fun a b _ _ below above => absurd below (lt_asymm above))
      inOrder (positions.filter _)
  have unplaced : (flags.zipIdx.map Prod.fst).filter (fun flag => flag.kind == kind) =
      flags.filter fun flag => flag.kind == kind := by
    rw [List.zipIdx_map_fst]
  rw [← unplaced, List.filter_map, List.filter_map]
  exact congrArg (List.map Prod.fst) same

/-- What flags recommend for a layer, they recommend where they are about a colour. -/
theorem filterMap_shadeFor?_filter (flags : List Ambiguity) (layerId : String) :
    (flags.filter fun flag => flag.kind == .color).filterMap (Ambiguity.shadeFor? layerId) =
      flags.filterMap (Ambiguity.shadeFor? layerId) := by
  rw [List.filterMap_filter]
  apply List.filterMap_congr
  intro flag _
  split
  · rfl
  · rename_i noColor
    exact (Ambiguity.shadeFor?_of_kind_ne (by simpa using noColor) layerId).symm

/-- A layer in the shade that is assumed for the last vague word of its clause, if it has one. -/
def Layer.inLastShade (layer : Layer) (clause : List Char) : Layer :=
  match (Prompt.vagueMentions clause).getLast? with
  | some mention => layer.inColor (Prompt.assumedShade mention.vague)
  | none => layer

section Run

variable {text : String} {roofline : Option Roofline} {settings : ParserSettings}
  {intent settled : Intent} {checks : CheckSettings} {questions : List Question}
  {answers : Answers}

/-- What is recommended about a prompt can be taken. -/
theorem settle_succeeds_of_accept (parsed : Prompt.parse text roofline settings = .ok intent)
    (asked : ask intent.ambiguities ⟨intent, roofline, checks⟩ = .ok questions)
    (accepts : answers.Accept questions) (short : text.length < 2 ^ 63) :
    ∃ settled, intent.settle answers questions = .ok settled := by
  rcases Prompt.isInRun_parse parsed with ⟨-, inRun⟩
  have numbered := Prompt.numbered_of_parse short parsed
  rw [List.length_map] at numbered
  refine Intent.settle_succeeds asked inRun.isOpen (by omega) (by omega) ?_
  intro question mem offer isChosen
  rw [accepts question mem] at isChosen
  split at isChosen
  · cases isChosen
  · exact Question.mem_offers_of_recommended? isChosen

/-- Whoever takes what is recommended about a prompt gives every layer what its flags recommend for
it, in their order. -/
theorem layers_of_accept (parsed : Prompt.parse text roofline settings = .ok intent)
    (asked : ask intent.ambiguities ⟨intent, roofline, checks⟩ = .ok questions)
    (accepts : answers.Accept questions) (settles : intent.settle answers questions = .ok settled) :
    settled.layers = intent.layers.map fun layer =>
      ((intent.ambiguities.filterMap (Ambiguity.shadeFor? layer.id)).getLast?).elim layer
        layer.inColor := by
  rcases Intent.settle_eq_ok_iff.mp settles with ⟨done, ran, rfl⟩
  rcases exists_order_of_ask asked with ⟨placed, perm, related, ordered⟩
  have aboutOpen := Intent.aboutOpen_of_perm perm
    (related.imp fun _ _ askedOne => isAbout_of_askOne askedOne)
  have apart := (Prompt.isInRun_parse parsed).1
  have like : Settle.Recolored intent.layers intent.layers := by
    refine ⟨apart, ?_, Pointwise.refl Layer.IsRecolored.refl _⟩
    intro i layer there
    obtain ⟨clause, rule, -, priority_eq, -⟩ := Prompt.exists_clause_of_parse parsed apart there
    exact priority_eq
  have layers_eq := Settle.foldlM_accepting
    (fun pair mem => Prompt.isAssumed_of_parse parsed (List.mem_of_getElem?
      (aboutOpen.inPlace pair.2 (List.of_mem_zip mem).2)))
    (fun pair mem => List.forall₂_zip related mem)
    (fun pair mem => accepts pair.1 (List.of_mem_zip mem).1) like
    (Settle.foldlM_changeFor aboutOpen ran)
  have flags_eq : ((questions.zip placed).map fun pair => pair.2.1) = placed.map Prod.fst := by
    have unzipped := List.map_snd_zip (Nat.le_of_eq related.length_eq.symm)
    rw [← congrArg (List.map Prod.fst) unzipped, List.map_map]
    rfl
  rw [layers_eq, flags_eq]
  apply List.map_congr_left
  intro layer _
  rw [Layer.foldl_accept, ← filterMap_shadeFor?_filter,
    filter_kind_of_perm perm (ordered.imp IsAheadOf.lt_of_kind_eq), filterMap_shadeFor?_filter]

/-- Every layer of a prompt that was settled by what is recommended is the layer it was, in the
shade of the last vague word of its clause. -/
theorem exists_clause_of_accept (parsed : Prompt.parse text roofline settings = .ok intent)
    (asked : ask intent.ambiguities ⟨intent, roofline, checks⟩ = .ok questions)
    (accepts : answers.Accept questions) (settles : intent.settle answers questions = .ok settled)
    {i : Nat} {before : Layer} (there : intent.layers[i]? = some before) :
    ∃ clause rule, (Prompt.clauses (Prompt.normalize text.toList))[i]? = some clause ∧
      before.coloring = { Prompt.coloringOf clause (Prompt.asked clause) with spacing := rule } ∧
      settled.layers[i]? = some (before.inLastShade clause) := by
  have apart := (Prompt.isInRun_parse parsed).1
  obtain ⟨clause, rule, isClause, -, coloring_eq, shades⟩ :=
    Prompt.exists_clause_of_parse parsed apart there
  refine ⟨clause, rule, isClause, coloring_eq, ?_⟩
  rw [layers_of_accept parsed asked accepts settles, List.getElem?_map, there, Option.map_some,
    shades, List.getLast?_map, Layer.inLastShade]
  cases (Prompt.vagueMentions clause).getLast? <;> rfl

/-- A layer is in the shade of the last vague word of its clause already exactly where that shade is
the first colour of the clause. -/
theorem Layer.inLastShade_eq_self_iff {layer : Layer} {clause : List Char}
    {rule : Option Spacing} (coloring_eq : layer.coloring =
      { Prompt.coloringOf clause (Prompt.asked clause) with spacing := rule }) :
    layer.inLastShade clause = layer ↔
      ∀ mention ∈ (Prompt.vagueMentions clause).getLast?,
        (Prompt.asked clause).head? = some (Prompt.assumedShade mention.vague) := by
  unfold inLastShade
  cases isLast : (Prompt.vagueMentions clause).getLast? with
  | none => simp
  | some mention =>
      obtain ⟨first, rest, colors_eq⟩ :=
        List.exists_cons_of_ne_nil (List.ne_nil_of_mem (Prompt.mem_asked_of_getLast? isLast))
      have own : (layer.coloring.primaryName, layer.coloring.primary) = first := by
        rw [coloring_eq, colors_eq]
        exact Prompt.primary_coloringOf clause first rest
      simp only [Option.mem_def, Option.some.injEq, forall_eq', inColor_eq_self_iff, own,
        colors_eq, List.head?_cons]

/-- A layer whose clause has one colour is in the shade of its last vague word already. -/
theorem head?_asked_of_length_le_one {clause : List Char}
    (single : (Prompt.asked clause).length ≤ 1) :
    ∀ mention ∈ (Prompt.vagueMentions clause).getLast?,
      (Prompt.asked clause).head? = some (Prompt.assumedShade mention.vague) := by
  intro mention isLast
  have inside := Prompt.mem_asked_of_getLast? isLast
  have one : (Prompt.asked clause).length = 1 :=
    Nat.le_antisymm single (List.length_pos_of_mem inside)
  obtain ⟨only, colors_eq⟩ := List.length_eq_one_iff.mp one
  rw [colors_eq, List.mem_singleton] at inside
  rw [colors_eq, inside]
  rfl

/-- Taking what is recommended about a prompt: an option for every question but those about the
kind of a motion.  The answers can be applied, if the prompt has fewer characters than a machine
can count, and every layer stays what it is but for its primary colour, which becomes the shade
assumed for the last vague word of its clause.  So a layer stays exactly what it is where the
clause has no vague word or the shade of its last one is its first colour, and this is so wherever
the clause has no more than one colour. -/
theorem accept_keeps_all_but_primary (parsed : Prompt.parse text roofline settings = .ok intent)
    (asked : ask intent.ambiguities ⟨intent, roofline, checks⟩ = .ok questions)
    (accepts : answers.Accept questions) :
    (text.length < 2 ^ 63 → ∃ settled, intent.settle answers questions = .ok settled) ∧
      ∀ settled, intent.settle answers questions = .ok settled →
        settled.layers.length = intent.layers.length ∧
        ∀ (i : Nat) (before after : Layer), intent.layers[i]? = some before →
          settled.layers[i]? = some after → ∃ clause,
            (Prompt.clauses (Prompt.normalize text.toList))[i]? = some clause ∧
            after = before.inLastShade clause ∧
            (after = before ↔ ∀ mention ∈ (Prompt.vagueMentions clause).getLast?,
              (Prompt.asked clause).head? = some (Prompt.assumedShade mention.vague)) ∧
            ((Prompt.asked clause).length ≤ 1 → after = before) := by
  constructor
  · exact settle_succeeds_of_accept parsed asked accepts
  · intro settled settles
    constructor
    · rw [layers_of_accept parsed asked accepts settles, List.length_map]
    · intro i before after there isAfter
      obtain ⟨clause, rule, isClause, coloring_eq, isShaded⟩ :=
        exists_clause_of_accept parsed asked accepts settles there
      obtain rfl : before.inLastShade clause = after :=
        Option.some.inj (isShaded.symm.trans isAfter)
      have unchanged := Layer.inLastShade_eq_self_iff coloring_eq
      exact ⟨clause, isClause, rfl, unchanged,
        fun single => unchanged.mpr (head?_asked_of_length_le_one single)⟩

/-- There are answers that take what is recommended. -/
theorem exists_accept {flags : List Ambiguity} {subject : Subject}
    (asked : ask flags subject = .ok questions) :
    ∃ answers : Answers, answers.Accept questions := by
  have apart := (Intent.ids_of_ask asked).2
  let answer? (question : Question) : Option Answer :=
    if question.kind = .effect then none else question.recommended?.map Answer.own
  refine ⟨questions.filterMap fun question =>
    (answer? question).map fun answer => (question.id, answer), ?_⟩
  intro question mem
  rw [Settle.chosen?, lookup_filterMap_of_mem apart mem answer?]
  dsimp only [answer?]
  split
  · rfl
  · cases question.recommended? <;> rfl

/-- A short prompt about a roofline can be understood, asked about and answered by what is
recommended. -/
theorem exists_accepted {roofline : Roofline} (small : roofline.total < 2 ^ 53)
    (shares : checks.HasShares) (settings : ParserSettings)
    (isShort : (Prompt.normalize text.toList).length ≤ Text.digitLimit)
    (short : text.length < 2 ^ 63) :
    ∃ intent questions answers settled,
      Prompt.parse text (some roofline) settings = .ok intent ∧
        ask intent.ambiguities ⟨intent, some roofline, checks⟩ = .ok questions ∧
        answers.Accept questions ∧ intent.settle answers questions = .ok settled := by
  obtain ⟨intent, parsed⟩ := Prompt.parse_succeeds (some roofline) settings isShort
  have within := Prompt.isWithin_parse parsed (2 ^ 120)
  obtain ⟨questions, asked⟩ := ask_succeeds within.zones small shares within.flags
  obtain ⟨answers, accepts⟩ := exists_accept asked
  obtain ⟨settled, settles⟩ := settle_succeeds_of_accept parsed asked accepts short
  exact ⟨intent, questions, answers, settled, parsed, asked, accepts, settles⟩

end Run

/-! ## One colour and two -/

/-- A prompt with one colour stays what it is when the shade that is recommended is taken. -/
theorem accept_keeps_all_but_primary_red :
    ∃ intent questions answers settled,
      Prompt.parse "red" (some eaveOfFour) {} = .ok intent ∧
        ask intent.ambiguities ⟨intent, some eaveOfFour, {}⟩ = .ok questions ∧
        answers.Accept questions ∧ intent.settle answers questions = .ok settled ∧
        settled.layers = intent.layers := by
  obtain ⟨intent, questions, answers, _, parsed, asked, accepts, -⟩ :=
    exists_accepted (by decide : eaveOfFour.total < 2 ^ 53) CheckSettings.hasShares_usual {}
      Session.isShort_red (by decide)
  obtain ⟨succeeds, keeps⟩ := accept_keeps_all_but_primary parsed asked accepts
  obtain ⟨settled, settles⟩ := succeeds (by decide)
  obtain ⟨sameLength, each⟩ := keeps settled settles
  refine ⟨intent, questions, answers, settled, parsed, asked, accepts, settles, ?_⟩
  have oneColor : (Prompt.asked ['r', 'e', 'd']).length ≤ 1 := by decide +kernel
  apply List.ext_getElem sameLength
  intro i inAfter inBefore
  obtain ⟨clause, isClause, -, -, unchanged⟩ :=
    each i _ _ (List.getElem?_eq_getElem inBefore) (List.getElem?_eq_getElem inAfter)
  rw [Session.clauses_red] at isClause
  rw [List.mem_singleton.mp (List.mem_of_getElem? isClause)] at unchanged
  exact unchanged oneColor

/-- Of two vague words in one clause, the shade of the second takes the place of that of the
first, and the layer is no longer what it was. -/
theorem accept_changes_primary_greenBlue :
    ∃ intent questions answers settled,
      Prompt.parse "green blue lights" (some eaveOfFour) {} = .ok intent ∧
        ask intent.ambiguities ⟨intent, some eaveOfFour, {}⟩ = .ok questions ∧
        answers.Accept questions ∧ intent.settle answers questions = .ok settled ∧
        settled.layers ≠ intent.layers := by
  have isShort : (Prompt.normalize "green blue lights".toList).length ≤ Text.digitLimit := by
    decide +kernel
  obtain ⟨intent, questions, answers, settled, parsed, asked, accepts, settles⟩ :=
    exists_accepted (by decide : eaveOfFour.total < 2 ^ 53) CheckSettings.hasShares_usual {}
      isShort (by decide)
  refine ⟨intent, questions, answers, settled, parsed, asked, accepts, settles, ?_⟩
  have clauses : Prompt.clauses (Prompt.normalize "green blue lights".toList) =
      ["green blue lights".toList] := by decide +kernel
  have inside : 0 < intent.layers.length := by
    rw [Prompt.length_layers_of_parse parsed, clauses]
    decide
  obtain ⟨clause, rule, isClause, coloring_eq, isShaded⟩ :=
    exists_clause_of_accept parsed asked accepts settles (List.getElem?_eq_getElem inside)
  rw [clauses] at isClause
  cases isClause
  intro same
  rw [same, List.getElem?_eq_getElem inside, Option.some.injEq, eq_comm,
    Layer.inLastShade_eq_self_iff coloring_eq] at isShaded
  have lastVague : ((Prompt.vagueMentions "green blue lights".toList).getLast?.map
      fun mention => (Prompt.assumedShade mention.vague).1) = some "royal blue" := by decide +kernel
  have sighted : Prompt.clearSightings "green blue lights".toList = [⟨0, 5, 7⟩, ⟨6, 10, 11⟩] :=
    (List.mergeSort_of_pairwise (by decide +kernel)).trans (by decide +kernel)
  have firstColor : ((Prompt.asked "green blue lights".toList).head?.map Prod.fst) =
      some "forest green" := by
    rw [Prompt.asked, Prompt.colors, sighted]
    decide +kernel
  obtain ⟨mention, isLast, isRoyal⟩ := Option.map_eq_some_iff.mp lastVague
  rw [isShaded mention isLast, Option.map_some, isRoyal] at firstColor
  exact absurd firstColor (by decide)

end Eaves
