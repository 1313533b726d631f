import Eaves.Proofs.Answer.Change
import Eaves.Proofs.Answer.Possible
import Eaves.Proofs.Check.Validation
import Eaves.Proofs.Prompt.Count
import Eaves.Proofs.Prompt.Flags
import Eaves.Proofs.Question.Offers
import Eaves.Session.Basic

/-!
# Taking a design in

A design within bounds is always taken in: it is checked, the flags that the checks
raise are added where none is open for the same layer and kind, and the questions
about all of them are asked.  So a session is never left with a design whose
questions are those of another.

After a prompt is taken in, answers come in one call after another.  What holds of
the design all the way: its layers are those of the prompt, each flag is one that the
prompt left or one about the spacing of a layer, and no two are about the spacing of
one layer.  So there are never more flags than the prompt left and one for each
layer.
-/

namespace Eaves

open Outcome

/-! ## Merging flags -/

/-- Flags of which no two are about the spacing of one layer. -/
def SpacedOnce (flags : List Ambiguity) : Prop :=
  flags.Pairwise fun first second => first.kind = .spacingImpossible →
    second.kind = .spacingImpossible → first.layerId ≠ second.layerId

theorem Ambiguity.sameMatter_iff {first second : Ambiguity} :
    first.sameMatter second = true ↔
      first.kind = second.kind ∧ first.layerId = second.layerId := by
  rw [sameMatter, Bool.and_eq_true, beq_iff_eq, beq_iff_eq]

/-- Merged flags are those present, and behind them some of those raised. -/
theorem exists_mergeFlags_eq_append (present raised : List Ambiguity) :
    ∃ added, added ⊆ raised ∧ mergeFlags present raised = present ++ added := by
  induction raised generalizing present with
  | nil => exact ⟨[], List.Subset.refl _, (List.append_nil present).symm⟩
  | cons first rest ih =>
      rw [mergeFlags]
      split
      · rcases ih present with ⟨added, inside, merged⟩
        exact ⟨added, fun _ mem => List.mem_cons_of_mem _ (inside mem), merged⟩
      · rcases ih (present ++ [first]) with ⟨added, inside, merged⟩
        refine ⟨first :: added, List.cons_subset_cons _ inside, ?_⟩
        rw [merged, List.append_assoc, List.singleton_append]

theorem mem_of_mem_mergeFlags {present raised : List Ambiguity} {flag : Ambiguity}
    (mem : flag ∈ mergeFlags present raised) : flag ∈ present ∨ flag ∈ raised := by
  rcases exists_mergeFlags_eq_append present raised with ⟨added, inside, merged⟩
  rw [merged] at mem
  exact (List.mem_append.mp mem).imp_right fun there => inside there

theorem mem_mergeFlags_of_mem {present raised : List Ambiguity} {flag : Ambiguity}
    (mem : flag ∈ present) : flag ∈ mergeFlags present raised := by
  rcases exists_mergeFlags_eq_append present raised with ⟨added, -, merged⟩
  rw [merged]
  exact List.mem_append_left _ mem

/-- For every flag that is raised, one of its layer and kind is among the merged ones. -/
theorem exists_sameMatter_of_mem (present : List Ambiguity) {raised : List Ambiguity}
    {flag : Ambiguity} (mem : flag ∈ raised) : ∃ other ∈ mergeFlags present raised,
      other.kind = flag.kind ∧ other.layerId = flag.layerId := by
  induction raised generalizing present with
  | nil => cases mem
  | cons first rest ih =>
      rw [mergeFlags]
      rcases List.mem_cons.mp mem with rfl | later
      · split
        · rename_i isThere
          rcases List.any_eq_true.mp isThere with ⟨other, otherMem, same⟩
          rcases Ambiguity.sameMatter_iff.mp same with ⟨sameKind, sameLayer⟩
          exact ⟨other, mem_mergeFlags_of_mem otherMem, sameKind.symm, sameLayer.symm⟩
        · exact ⟨flag, mem_mergeFlags_of_mem (List.mem_append_right _ List.mem_cons_self), rfl, rfl⟩
      · split
        · exact ih present later
        · exact ih _ later

/-- Flags are added to none that have one of the same layer and kind for each of them. -/
theorem mergeFlags_eq_self {present raised : List Ambiguity}
    (covered : ∀ flag ∈ raised, ∃ other ∈ present,
      other.kind = flag.kind ∧ other.layerId = flag.layerId) :
    mergeFlags present raised = present := by
  induction raised with
  | nil => rfl
  | cons first rest ih =>
      obtain ⟨other, mem, sameKind, sameLayer⟩ := covered first List.mem_cons_self
      have isThere : present.any first.sameMatter = true :=
        List.any_eq_true.mpr
          ⟨other, mem, Ambiguity.sameMatter_iff.mpr ⟨sameKind.symm, sameLayer.symm⟩⟩
      rw [mergeFlags, if_pos isThere]
      exact ih fun flag later => covered flag (List.mem_cons_of_mem _ later)

/-- Merging adds no second flag about the spacing of a layer. -/
theorem SpacedOnce.mergeFlags {present : List Ambiguity} (once : SpacedOnce present)
    (raised : List Ambiguity) : SpacedOnce (mergeFlags present raised) := by
  induction raised generalizing present with
  | nil => exact once
  | cons first rest ih =>
      rw [Eaves.mergeFlags]
      split
      · exact ih once
      · rename_i noneThere
        refine ih (List.pairwise_append.mpr ⟨once, List.pairwise_singleton _ _, ?_⟩)
        intro other otherMem added isAdded otherSpacing addedSpacing sameLayer
        rw [List.mem_singleton] at isAdded
        subst isAdded
        apply noneThere
        have isSame := Ambiguity.sameMatter_iff.mpr
          ⟨addedSpacing.trans otherSpacing.symm, sameLayer.symm⟩
        exact List.any_eq_true.mpr ⟨other, otherMem, isSame⟩

namespace Session

variable {session : Session}

/-! ## Checking -/

/-- A choice that is a rule is within bounds. -/
theorem isWithin_of_raisedFor {layer : Layer} {flag : Ambiguity}
    (raised : Check.RaisedFor layer flag) : flag.IsWithin (2 ^ 120) := by
  intro choice mem
  rcases raised.choices_are_rules choice mem with ⟨rule, isRule, below⟩
  exact isRule ▸ Value.isWithin_spacing below

/-- The flags that checking a design on a session's roofline raises. -/
structure Raised (session : Session) (intent : Intent) (raised : List Ambiguity) : Prop where
  mem_iff : ∀ flag, flag ∈ raised ↔ ∃ layer ∈ intent.enabledLayers,
    Check.Raises session.roofline session.settings.checks layer flag
  raisedFor : ∀ layer ∈ intent.layers, ∀ flag,
    Check.Raises session.roofline session.settings.checks layer flag → Check.RaisedFor layer flag

theorem Raised.exists_raisedFor {intent : Intent} {raised : List Ambiguity}
    (isRaised : session.Raised intent raised) {flag : Ambiguity} (mem : flag ∈ raised) :
    ∃ layer ∈ intent.layers, Check.RaisedFor layer flag := by
  rcases (isRaised.mem_iff flag).mp mem with ⟨layer, enabled, raises⟩
  have present := (List.mem_filter.mp enabled).1
  exact ⟨layer, present, isRaised.raisedFor layer present flag raises⟩

/-- Checking a design within bounds adds flags about spacing to its own, and changes nothing
else. -/
theorem withRaised_succeeds (small : session.roofline.total < 2 ^ 53)
    (shares : session.settings.checks.HasShares) {intent : Intent}
    (listed : ∀ layer ∈ intent.layers, layer.zone.IsListed) :
    ∃ raised, session.Raised intent raised ∧
      session.withRaised intent =
        .ok { intent with ambiguities := mergeFlags intent.ambiguities raised } := by
  rcases Check.validate_succeeds listed small shares with ⟨validation, validated, memIff⟩
  refine ⟨validation.flags, ⟨memIff, fun layer present flag raises => ?_⟩, ?_⟩
  · exact Check.raisedFor_of_raises (listed layer present) small shares raises
  · rw [withRaised, validated, ok_bind]
    rfl

theorem isWithin_mergeFlags {intent : Intent} {raised : List Ambiguity}
    (within : intent.IsWithin (2 ^ 120)) (isRaised : session.Raised intent raised) :
    { intent with ambiguities := mergeFlags intent.ambiguities raised }.IsWithin (2 ^ 120) := by
  constructor
  · exact within.zones
  · intro flag mem
    rcases mem_of_mem_mergeFlags mem with own | added
    · exact within.flags flag own
    · rcases isRaised.exists_raisedFor added with ⟨layer, -, raisedFor⟩
      exact isWithin_of_raisedFor raisedFor

/-! ## Adopting -/

/-- A design within bounds is taken in, with the flags that checks raise and the questions about
all flags; the last composition is forgotten. -/
theorem adopt_succeeds (small : session.roofline.total < 2 ^ 53)
    (shares : session.settings.checks.HasShares) {intent : Intent}
    (within : intent.IsWithin (2 ^ 120)) :
    ∃ raised questions, session.Raised intent raised ∧
      let checked := { intent with ambiguities := mergeFlags intent.ambiguities raised }
      checked.IsWithin (2 ^ 120) ∧
        ask checked.ambiguities (session.subject checked) = .ok questions ∧
        session.adopt intent =
          ({ session with intent := some checked, questions := questions, last := none },
            .ok checked) := by
  rcases withRaised_succeeds small shares within.zones with ⟨raised, isRaised, checkedOk⟩
  have checkedWithin := isWithin_mergeFlags within isRaised
  obtain ⟨questions, asked⟩ :=
    ask_succeeds checkedWithin.zones small shares checkedWithin.flags
  refine ⟨raised, questions, isRaised, checkedWithin, asked, ?_⟩
  rw [adopt, checkedOk]
  dsimp only [subject]
  rw [asked]

/-! ## Answers -/

/-- Answers are applied to the design that there is, and to the questions that are open. -/
theorem answered_eq_ok_iff {answers : Answers} {settled : Intent} :
    session.answered answers = .ok settled ↔
      ∃ intent, session.intent = some intent ∧
        intent.settle answers session.questions = .ok settled := by
  rw [answered, bind_eq_ok_iff]
  unfold design
  cases session.intent with
  | none => simp
  | some intent => simp

/-- The options of the user's own that answers bring in are zones that are listed, where they
are zones at all. -/
def BringListed (answers : Answers) : Prop :=
  ∀ answer ∈ answers, ∀ own, answer.2 = .own own →
    ∀ zone, own.value.zone? = some zone → zone.IsListed

/-- What a question about a flag within bounds offers is listed. -/
theorem bringsListed_of_mem_offers {subject : Subject} {position : Nat} {flag : Ambiguity}
    {question : Question} {most : Int} (within : flag.IsWithin most)
    (asked : askOne subject position flag = .ok question) {offer : Offer}
    (mem : offer ∈ question.offers) : Settle.BringsListed question offer := by
  intro isZone zone offersZone
  apply Offer.isListed_of_zone? _ offersZone
  rcases askOne_eq_ok_iff.mp asked with ⟨wording, offers, n, worded, -, rfl⟩
  have zoneFlag : flag.kind = .zone := by
    cases kindIs : flag.kind <;> rw [kindIs] at isZone <;> first | rfl | cases isZone
  simp only [wordingAndOffers, zoneFlag] at worded
  cases worded
  exact isListed_of_mem_zoneOffers within (List.mem_of_mem_take mem)

/-- What is chosen for a question about a flag within bounds is listed. -/
theorem bringsListed_of_chosen? {flags : List Ambiguity} {subject : Subject}
    {questions : List Question} {most : Int} (within : ∀ flag ∈ flags, flag.IsWithin most)
    (asked : ask flags subject = .ok questions) {answers : Answers}
    (listed : BringListed answers) :
    ∀ question ∈ questions, ∀ offer, Settle.chosen? answers question = some offer →
      Settle.BringsListed question offer := by
  intro question mem offer isChosen
  rcases Option.bind_eq_some_iff.mp isChosen with ⟨answer, given, stands⟩
  cases answer with
  | own own =>
      cases stands
      rcases List.lookup_eq_some_iff.mp given with ⟨before, after, shape, -⟩
      have given : (question.id, Answer.own offer) ∈ answers := by simp [shape]
      exact fun _ _ offersZone => Offer.isListed_of_zone? (listed _ given _ rfl) offersZone
  | chosen id =>
      rcases exists_flag_of_mem_ask asked mem with ⟨flag, position, placed, askedOne⟩
      exact bringsListed_of_mem_offers (within flag (List.mem_of_getElem? placed)) askedOne
        (List.mem_of_find?_eq_some stands)

/-- What is chosen among the options of questions about flags within bounds is listed. -/
theorem bringsListed_of_offered {flags : List Ambiguity} {subject : Subject}
    {questions : List Question} {most : Int} (within : ∀ flag ∈ flags, flag.IsWithin most)
    (asked : ask flags subject = .ok questions) {answers : Answers}
    (offered : ∀ question ∈ questions, ∀ offer,
      Settle.chosen? answers question = some offer → offer ∈ question.offers) :
    ∀ question ∈ questions, ∀ offer, Settle.chosen? answers question = some offer →
      Settle.BringsListed question offer := by
  intro question mem offer isChosen
  rcases exists_flag_of_mem_ask asked mem with ⟨flag, position, placed, askedOne⟩
  exact bringsListed_of_mem_offers (within flag (List.mem_of_getElem? placed)) askedOne
    (offered question mem offer isChosen)

/-- Answers that bring in what is listed leave a design within bounds. -/
theorem isWithin_settle {intent settled : Intent} {questions : List Question} {most : Int}
    (within : intent.IsWithin most) {answers : Answers}
    (listed : ∀ question ∈ questions, ∀ offer, Settle.chosen? answers question = some offer →
      Settle.BringsListed question offer)
    (settles : intent.settle answers questions = .ok settled) : settled.IsWithin most := by
  have follow := Intent.layersFollow_settle listed settles
  constructor
  · intro layer mem
    rcases exists_partner follow.flip mem with ⟨before, together, follows⟩
    exact follows.listed (within.zones before (List.of_mem_zip together).2)
  · intro flag mem
    exact within.flags flag ((Intent.ambiguities_settle_sublist settles).subset mem)

end Session

/-! ## Designs in a run -/

/-- What holds of a design from the prompt on: the layers have the ids they were given, every
flag is one that can be open about them, and `most` bounds the flags of other kinds than
spacing. -/
structure Intent.IsInRun (ids : List String) (most : Nat) (intent : Intent) : Prop where
  within : intent.IsWithin (2 ^ 120)
  ids_eq : intent.layers.map Layer.id = ids
  isOpen : ∀ flag ∈ intent.ambiguities, OpenFlag ids flag
  once : SpacedOnce intent.ambiguities
  few : (intent.ambiguities.filter fun flag => flag.kind != .spacingImpossible).length ≤ most

namespace Intent.IsInRun

variable {ids : List String} {most : Nat} {intent : Intent}

/-- There is at most one flag about spacing for each layer. -/
theorem length_spacing_le (inRun : intent.IsInRun ids most) :
    (intent.ambiguities.filter fun flag => flag.kind == .spacingImpossible).length ≤
      ids.length := by
  generalize isSpaced : (intent.ambiguities.filter fun flag =>
    flag.kind == .spacingImpossible) = spaced
  have isSpacing : ∀ flag ∈ spaced, flag ∈ intent.ambiguities ∧ flag.kind = .spacingImpossible := by
    intro flag mem
    rw [← isSpaced, List.mem_filter, beq_iff_eq] at mem
    exact mem
  have apart : (spaced.map Ambiguity.layerId).Nodup := by
    rw [List.nodup_iff_pairwise_ne, List.pairwise_map]
    have once : SpacedOnce spaced := inRun.once.sublist (isSpaced ▸ List.filter_sublist)
    apply once.imp_of_mem
    intro first second firstMem secondMem differ
    exact differ (isSpacing first firstMem).2 (isSpacing second secondMem).2
  have inside : spaced.map Ambiguity.layerId ⊆ ids.map some := by
    intro layerId mem
    rcases List.mem_map.mp mem with ⟨flag, flagMem, rfl⟩
    rcases (inRun.isOpen flag (isSpacing flag flagMem).1).exists_id with ⟨id, idMem, about⟩
    exact about ▸ List.mem_map_of_mem idMem
  have bound := (List.subperm_of_subset apart inside).length_le
  rwa [List.length_map, List.length_map] at bound

/-- There are no more flags than those of other kinds and one for each layer. -/
theorem length_ambiguities_le (inRun : intent.IsInRun ids most) :
    intent.ambiguities.length ≤ most + ids.length := by
  have spaced := inRun.length_spacing_le
  have others := inRun.few
  rw [List.length_eq_length_filter_add fun flag => flag.kind == .spacingImpossible]
  simp only [bne] at others
  omega

/-- Answers that bring in what is listed keep a design in the run. -/
theorem settle {settled : Intent} {answers : Answers} {questions : List Question}
    (inRun : intent.IsInRun ids most)
    (listed : ∀ question ∈ questions, ∀ offer, Settle.chosen? answers question = some offer →
      Settle.BringsListed question offer)
    (settles : intent.settle answers questions = .ok settled) : settled.IsInRun ids most := by
  have kept := Intent.ambiguities_settle_sublist settles
  refine ⟨Session.isWithin_settle inRun.within listed settles, ?_, ?_, ?_, ?_⟩
  · exact (Intent.layersFollow_settle listed settles).map_id.trans inRun.ids_eq
  · exact fun flag mem => inRun.isOpen flag (kept.subset mem)
  · exact List.Pairwise.sublist kept inRun.once
  · exact (kept.filter _).length_le.trans inRun.few

/-- Flags that the checks raise keep a design in the run. -/
theorem mergeFlags {session : Session} {raised : List Ambiguity}
    (inRun : intent.IsInRun ids most) (isRaised : session.Raised intent raised) :
    { intent with ambiguities := mergeFlags intent.ambiguities raised }.IsInRun ids most := by
  refine ⟨Session.isWithin_mergeFlags inRun.within isRaised, inRun.ids_eq, ?_,
    inRun.once.mergeFlags raised, ?_⟩
  · intro flag mem
    rcases mem_of_mem_mergeFlags mem with own | added
    · exact inRun.isOpen flag own
    · rcases isRaised.exists_raisedFor added with ⟨layer, layerMem, raisedFor⟩
      have isId : layer.id ∈ ids := inRun.ids_eq ▸ List.mem_map_of_mem layerMem
      apply OpenFlag.ofCheck layer.id isId raisedFor.layerId_eq raisedFor.kind_eq
      intro choice inside
      exact (raisedFor.choices_are_rules choice inside).imp fun _ => And.left
  · rcases exists_mergeFlags_eq_append intent.ambiguities raised with ⟨added, inside, merged⟩
    have noOthers : added.filter (fun flag => flag.kind != .spacingImpossible) = [] := by
      rw [List.filter_eq_nil_iff]
      intro flag mem
      rcases isRaised.exists_raisedFor (inside mem) with ⟨layer, -, raisedFor⟩
      simp [raisedFor.kind_eq]
    dsimp only
    rw [merged, List.filter_append, noOthers, List.append_nil]
    exact inRun.few

end Intent.IsInRun

/-! ## The start of a run -/

namespace Prompt

theorem layerId_injective {m n : Nat} (same : layerId m = layerId n) : m = n := by
  apply Text.toString_injective
  have texts := congrArg String.toList same
  rw [layerId, layerId, String.toList_append, String.toList_append] at texts
  exact List.append_cancel_left texts

/-- A parsed prompt is the start of a run, in which the layers have ids of their own. -/
theorem isInRun_parse {text : String} {roofline : Option Roofline} {settings : ParserSettings}
    {intent : Intent} (parsed : parse text roofline settings = .ok intent) :
    (intent.layers.map Layer.id).Nodup ∧
      intent.IsInRun (intent.layers.map Layer.id) intent.ambiguities.length := by
  rcases parse_spec parsed with ⟨ids, -, flags⟩
  constructor
  · rw [ids]
    exact List.nodup_range.map fun _ _ same => layerId_injective same
  · refine ⟨isWithin_parse parsed _, rfl, fun flag mem => .ofPrompt (flags flag mem), ?_,
      List.length_filter_le _ _⟩
    apply List.pairwise_of_forall_mem_list
    intro first firstMem _ _ isSpacing
    rcases flags first firstMem with ⟨_, _, leaves⟩ | ⟨_, _, _, conflict⟩
    · exact absurd isSpacing leaves.no_spacing
    · cases isSpacing.symm.trans conflict.kind_eq

/-- A text that a machine can hold leaves no more flags than can be numbered, in any run. -/
theorem numbered_of_parse {text : String} {roofline : Option Roofline}
    {settings : ParserSettings} {intent : Intent} (short : text.length < 2 ^ 63)
    (parsed : parse text roofline settings = .ok intent) :
    intent.ambiguities.length + (intent.layers.map Layer.id).length ≤ 10 ^ Text.digitLimit := by
  rcases length_parse_le parsed with ⟨layers, flags⟩
  have fewLayers : intent.layers.length < 2 ^ 67 := by omega
  have fewFlags : intent.layers.length * (intent.layers.length + 6) ≤ 2 ^ 67 * 2 ^ 68 :=
    Nat.mul_le_mul fewLayers.le (by omega)
  have enough : (10 : Nat) ^ 50 ≤ 10 ^ Text.digitLimit :=
    Nat.pow_le_pow_right (by decide) (by decide)
  rw [List.length_map]
  omega

end Prompt

end Eaves
