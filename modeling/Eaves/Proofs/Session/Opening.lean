import Eaves.Proofs.Check.Naming
import Eaves.Proofs.Command.Accepting
import Eaves.Proofs.Prompt.Assumed
import Eaves.Proofs.Prompt.Mentions
import Eaves.Proofs.Question.Recommending
import Eaves.Proofs.Session.Adoption

/-!
# What is open after a prompt

The flags of a prompt come from the zone, the colours and the motion of each clause,
from pairs of layers in conflict, and from the checks.  Each source is looked at once:
its flags name the layer they are about, fit its motion, and mark their choices in the
way of their kind.  What the questions recommend follows from the marks alone.
-/

namespace Eaves

open Outcome

/-- A flag that is about a layer, fits its motion, and marks its choices in the way of its kind. -/
structure Ambiguity.IsPosedOn (flag : Ambiguity) (layer : Layer) : Prop where
  layerId_eq : flag.layerId = some layer.id
  posed : flag.IsPosed
  moving : flag.kind = .direction → layer.motion.isSome = true
  still : flag.kind = .effect → layer.motion = none

/-! ## Flags of a clause -/

namespace Prompt

variable {origin : Origin}

theorem nodup_shades : ∀ vague ∈ vagueColors, (vague.shades.map Shade.id).Nodup := by
  decide

theorem isPosed_whichShade {vague : VagueColor} (known : vague ∈ vagueColors) :
    (whichShade origin vague).IsPosed := by
  have ids : (whichShade origin vague).marks.map Prod.fst = vague.shades.map Shade.id := by
    simp [whichShade, Origin.flag, Ambiguity.marks, Choice.mark, VagueColor.shades]
  refine .color rfl (List.cons_ne_nil _ _) ⟨ids ▸ nodup_shades vague known, ?_⟩
  rintro first ⟨⟩
  rfl

theorem isPosed_whichDirection (kind : MotionKind) : (whichDirection origin kind).IsPosed := by
  refine .direction rfl (List.cons_ne_nil _ _) ⟨?_, ?_⟩
  · exact (by decide : ["left_to_right", "right_to_left"].Nodup)
  · rintro first ⟨⟩
    rfl

theorem isPosed_whichMotion : (whichMotion origin).IsPosed := by
  refine .effect rfl (by decide : 2 ≤ 4) ⟨?_, ?_⟩
  · exact (by decide : ["chase", "wave", "twinkle", "pulse"].Nodup)
  · rintro first ⟨⟩
    rfl

/-- What is left open about a clause is posed on its layer. -/
theorem isPosedOn_of_understand {clause : List Char} {index : Int} {roofline : Option Roofline}
    {settings : ParserSettings} {understood : Understanding}
    (read : understand clause index roofline settings = .ok understood) {flag : Ambiguity}
    (mem : flag ∈ understood.flags) : flag.IsPosedOn understood.layer := by
  obtain ⟨rule, -, -, -, sameMotion, -, flags_eq⟩ := exists_rule_of_understand read
  have named := layerId_eq_of_understand read mem
  rw [flags_eq, List.mem_append, List.mem_append] at mem
  rcases mem with (ofZone | ofColor) | ofMotion
  · obtain ⟨feature, matching, rfl⟩ := exists_manySegments_of_mem_zone ofZone
    exact ⟨named, .zone rfl rfl, by rintro ⟨⟩, by rintro ⟨⟩⟩
  · rcases List.mem_map.mp ofColor with ⟨mention, isMention, rfl⟩
    exact ⟨named, isPosed_whichShade (vague_mem_vagueColors isMention), by rintro ⟨⟩,
      by rintro ⟨⟩⟩
  · rcases whichDirection_or_whichMotion_of_mem_motion ofMotion with
      ⟨kind, own, rfl, moves, -⟩ | ⟨rfl, still⟩
    · refine ⟨named, isPosed_whichDirection kind, fun _ => ?_, by rintro ⟨⟩⟩
      rw [sameMotion, moves]
      rfl
    · exact ⟨named, isPosed_whichMotion, by rintro ⟨⟩, fun _ => sameMotion.trans still⟩

/-- What a prompt leaves open is posed on one of its layers. -/
theorem isPosedOn_of_parse {text : String} {roofline : Option Roofline} {settings : ParserSettings}
    {intent : Intent} (parsed : parse text roofline settings = .ok intent) {flag : Ambiguity}
    (mem : flag ∈ intent.ambiguities) : ∃ layer ∈ intent.layers, flag.IsPosedOn layer := by
  obtain ⟨results, parts⟩ := exists_understands_of_parse parsed
  rw [parts.flags_eq] at mem
  rcases List.mem_append.mp mem with ofClause | ofConflict
  · rcases List.mem_flatMap.mp ofClause with ⟨result, resultMem, inside⟩
    rcases exists_partner parts.related.flip resultMem with ⟨clause, -, readOne⟩
    exact ⟨result.layer, parts.layers_eq ▸ List.mem_map_of_mem resultMem,
      isPosedOn_of_understand readOne inside⟩
  · obtain ⟨i, j, first, second, before, -, isSecond, -, rfl⟩ := mem_conflicts_iff.mp ofConflict
    refine ⟨second, List.mem_of_getElem? isSecond, rfl, .conflict rfl i j before rfl, ?_, ?_⟩ <;>
      rintro ⟨⟩

end Prompt

/-! ## Flags of a session -/

/-- A flag that the checks raise is posed on the layer they raise it for. -/
theorem Check.Raises.isPosedOn {roofline : Roofline} {settings : CheckSettings} {layer : Layer}
    {flag : Ambiguity} (raises : Raises roofline settings layer flag) : flag.IsPosedOn layer := by
  obtain ⟨apart, notByHand, first⟩ := raises.wellNamed
  have ids : flag.marks.map Prod.fst = flag.choices.map Choice.id := by
    rw [Ambiguity.marks, List.map_map]
    rfl
  have leads : Mark.Leads flag.marks := by
    refine ⟨ids ▸ apart, ?_⟩
    intro mark isFirst
    rw [Ambiguity.marks, List.head?_map, Option.mem_map] at isFirst
    rcases isFirst with ⟨choice, isChoice, rfl⟩
    exact first choice isChoice
  exact ⟨raises.layerId_eq, .spacing raises.kind_eq leads (ids ▸ notByHand),
    by simp [raises.kind_eq], by simp [raises.kind_eq]⟩

/-- Among layers with ids of their own, a flag names exactly one of them. -/
theorem filter_layers_eq_singleton {layers : List Layer} (apart : (layers.map Layer.id).Nodup)
    {layer : Layer} (mem : layer ∈ layers) {layerId : Option String}
    (named : layerId = some layer.id) :
    layers.filter (fun other => some other.id == layerId) = [layer] := by
  have same : layers.filter (fun other => some other.id == layerId) =
      layers.filter fun other => decide (other = layer) := by
    apply List.filter_congr
    intro other otherMem
    rw [Bool.eq_iff_iff, beq_iff_eq, decide_eq_true_iff, named, Option.some.injEq]
    exact ⟨List.inj_on_of_nodup_map apart otherMem mem, congrArg Layer.id⟩
  rw [same, List.filter_eq, List.count_eq_one_of_mem apart.of_map mem, List.replicate_one]

namespace Session

variable {session after : Session}

/-- A design that is taken in is the session's, with the flags that the checks raise, and its
questions are asked. -/
theorem exists_asked_of_adopt {design intent : Intent}
    (adopted : session.adopt design = (after, .ok intent)) :
    ∃ validation, Check.validate design session.roofline session.settings.checks = .ok validation ∧
      intent = { design with ambiguities := mergeFlags design.ambiguities validation.flags } ∧
      after.intent = some intent ∧
      ask intent.ambiguities (session.subject intent) = .ok after.questions := by
  unfold adopt at adopted
  split at adopted
  · cases adopted
  · rename_i checked isRaised
    rcases bind_eq_ok_iff.mp isRaised with ⟨validation, isChecked, shape⟩
    rw [pure_eq_ok_iff] at shape
    split at adopted
    · cases adopted
    · rename_i questions asked
      cases adopted
      exact ⟨validation, isChecked, shape.symm, rfl, asked⟩

/-- A prompt was understood and taken in: the design has the layers that were understood, and the
flags that were left open, with flags that the checks raise for its layers behind them. -/
structure Opens (session : Session) (text : String) (after : Session) (intent plain : Intent)
    (added : List Ambiguity) : Prop where
  understood : Prompt.parse text (some session.roofline) session.settings.parsing = .ok plain
  layers_eq : intent.layers = plain.layers
  flags_eq : intent.ambiguities = plain.ambiguities ++ added
  ofChecks : ∀ flag ∈ added, ∃ layer ∈ intent.layers,
    Check.Raises session.roofline session.settings.checks layer flag
  held : after.intent = some intent
  asked : ask intent.ambiguities (session.subject intent) = .ok after.questions

theorem exists_opens_of_parse {text : String} {intent : Intent}
    (parsed : session.parse text = (after, .ok intent)) :
    ∃ plain added, session.Opens text after intent plain added := by
  unfold parse at parsed
  split at parsed
  · rename_i design isDesign
    rcases bind_eq_ok_iff.mp isDesign with ⟨plain, understood, shape⟩
    rw [pure_eq_ok_iff] at shape
    subst shape
    obtain ⟨validation, checked, isIntent, held, asked⟩ := exists_asked_of_adopt parsed
    obtain ⟨added, inside, merged⟩ :=
      exists_mergeFlags_eq_append plain.ambiguities validation.flags
    refine ⟨plain, added, understood, isIntent ▸ rfl, isIntent ▸ merged, ?_, held, asked⟩
    intro flag mem
    obtain ⟨layer, enabled, raises⟩ := (Check.mem_flags_of_validate checked flag).mp (inside mem)
    exact ⟨layer, isIntent ▸ (List.mem_filter.mp enabled).1, raises⟩
  · cases parsed

namespace Opens

variable {text : String} {intent plain : Intent} {added : List Ambiguity}

theorem apart (opens : session.Opens text after intent plain added) :
    (intent.layers.map Layer.id).Nodup :=
  opens.layers_eq ▸ (Prompt.isInRun_parse opens.understood).1

/-- Every flag of the design is posed on one of its layers. -/
theorem isPosedOn (opens : session.Opens text after intent plain added) {flag : Ambiguity}
    (mem : flag ∈ intent.ambiguities) : ∃ layer ∈ intent.layers, flag.IsPosedOn layer := by
  rw [opens.flags_eq] at mem
  rcases List.mem_append.mp mem with own | raised
  · rw [opens.layers_eq]
    exact Prompt.isPosedOn_of_parse opens.understood own
  · rcases opens.ofChecks flag raised with ⟨layer, layerMem, raises⟩
    exact ⟨layer, layerMem, raises.isPosedOn⟩

/-- The flags about conflicts are those of the conflicting pairs of layers. -/
theorem filter_conflict (opens : session.Opens text after intent plain added) :
    (intent.ambiguities.filter fun flag => flag.kind == .conflict) = conflicts intent.layers := by
  obtain ⟨own, plain_eq, noConflict⟩ := Prompt.exists_flags_of_parse opens.understood
  have noneOwn : (own.filter fun flag => flag.kind == .conflict) = [] := by
    rw [List.filter_eq_nil_iff]
    intro flag mem
    simp [noConflict flag mem]
  have all : ((conflicts plain.layers).filter fun flag => flag.kind == .conflict) =
      conflicts plain.layers := by
    rw [List.filter_eq_self]
    intro flag mem
    obtain ⟨i, j, first, second, -, -, -, -, rfl⟩ := mem_conflicts_iff.mp mem
    rfl
  have noneAdded : (added.filter fun flag => flag.kind == .conflict) = [] := by
    rw [List.filter_eq_nil_iff]
    intro flag mem
    rcases opens.ofChecks flag mem with ⟨layer, -, raises⟩
    simp [raises.kind_eq]
  rw [opens.flags_eq, plain_eq, List.filter_append, List.filter_append, noneOwn, all, noneAdded,
    List.nil_append, List.append_nil, opens.layers_eq]

end Opens

/-- What a prompt leaves open.  Every flag names exactly one layer; one about a direction is on a
layer that moves, one about an effect on a layer that does not.  There is one flag about a conflict
for each pair of layers with overlapping zones and primary colours that differ, in lexicographic
order, on the later layer and with the later layer recommended to win.  Every question has one to
four options with ids of their own, and recommends the option of the recommended choice, or to set
the rule by hand where its flag has no choices. -/
theorem flags_of_parse {text : String} {intent : Intent}
    (parsed : session.parse text = (after, .ok intent)) :
    after.intent = some intent ∧
    (∀ flag ∈ intent.ambiguities, ∃ layer,
      intent.layers.filter (fun other => some other.id == flag.layerId) = [layer] ∧
      (flag.kind = .direction → layer.motion.isSome = true) ∧
      (flag.kind = .effect → layer.motion = none)) ∧
    (∃ pairs : List (Nat × Nat),
      (pairs.Pairwise fun a b => a.1 < b.1 ∨ a.1 = b.1 ∧ a.2 < b.2) ∧
      (∀ i j, (i, j) ∈ pairs ↔ ConflictAt intent.layers i j) ∧
      List.Forall₂ (fun (flag : Ambiguity) (pair : Nat × Nat) =>
          flag.layerId = (intent.layers[pair.2]?).map Layer.id ∧
          flag.choices.map (fun choice => (choice.id, choice.recommended)) =
            [(winnerId pair.1, false), (winnerId pair.2, true), ("blend", false)])
        (intent.ambiguities.filter fun flag => flag.kind == .conflict) pairs) ∧
    ∀ question ∈ after.questions, ∃ flag position, intent.ambiguities[position]? = some flag ∧
      question.IsAbout (flag, position) ∧
      1 ≤ question.offers.length ∧ question.offers.length ≤ 4 ∧
      (question.offers.map Offer.id).Nodup ∧
      ∃ offer ∈ question.offers, question.recommended? = some offer ∧
        offer.id = (flag.recommended?.map Choice.id).getD "manual" := by
  obtain ⟨plain, added, opens⟩ := exists_opens_of_parse parsed
  refine ⟨opens.held, ?_, ?_, ?_⟩
  · intro flag mem
    rcases opens.isPosedOn mem with ⟨layer, layerMem, isPosed⟩
    exact ⟨layer, filter_layers_eq_singleton opens.apart layerMem isPosed.layerId_eq,
      isPosed.moving, isPosed.still⟩
  · obtain ⟨pairs, ordered, memIff, related⟩ := exists_pairs_of_conflicts intent.layers
    refine ⟨pairs, ordered, memIff, ?_⟩
    rw [opens.filter_conflict]
    apply related.imp
    rintro flag ⟨i, j⟩ ⟨first, second, -, -, isSecond, -, rfl⟩
    exact ⟨by rw [isSecond]; rfl, rfl⟩
  · intro question mem
    rcases exists_flag_of_mem_ask opens.asked mem with ⟨flag, position, placed, askedOne⟩
    rcases opens.isPosedOn (List.mem_of_getElem? placed) with ⟨layer, -, isPosed⟩
    obtain ⟨few, distinct, recommends⟩ := recommend_of_askOne isPosed.posed askedOne
    rw [← Question.recommended?_map_id, Option.map_eq_some_iff] at recommends
    rcases recommends with ⟨offer, isRecommended, sameId⟩
    have offered := Question.mem_offers_of_recommended? isRecommended
    rw [List.map_map] at distinct
    rw [List.length_map] at few
    exact ⟨flag, position, placed, isAbout_of_askOne askedOne,
      List.length_pos_of_mem offered, few, distinct, offer, offered, isRecommended, sameId⟩

/-- A prompt that names a colour vaguely: the question about its shade recommends an option. -/
theorem flags_of_parse_red : ∃ after intent, usualSession.parse "red" = (after, .ok intent) ∧
    ∃ question ∈ after.questions, ∃ offer ∈ question.offers,
      question.recommended? = some offer := by
  obtain ⟨after, intent, parsed, isOpen⟩ := parse_red
  obtain ⟨-, -, -, recommends⟩ := flags_of_parse parsed
  obtain ⟨plain, added, opens⟩ := exists_opens_of_parse parsed
  obtain ⟨question, mem⟩ := List.exists_mem_of_ne_nil after.questions fun noQuestions =>
    isOpen ((ask_eq_nil_iff opens.asked).mp noQuestions)
  obtain ⟨flag, position, -, -, -, -, -, offer, offered, isRecommended, -⟩ :=
    recommends question mem
  exact ⟨after, intent, parsed, question, mem, offer, offered, isRecommended⟩

end Session

end Eaves
