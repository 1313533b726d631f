import Eaves.Proofs.Answer.Alike
import Eaves.Proofs.Check.Suggestions
import Eaves.Proofs.Question.Fading
import Eaves.Proofs.Session.Failing
import Eaves.Proofs.Session.Forms

/-!
# Designs that are kept

A design is kept while some of it is still open, and answered after it is loaded.
What comes back from the record is the design with plain data behind the choices of
its flags: the same layers, settings and prompt, and questions whose options mean the
same.  So whatever is answered, it is answered as it would have been without keeping.

This needs two things of a design: its numbers are such as a record may hold, and a
choice has a term or a single piece of data behind it.  A prompt asks for such a
design, answers keep it so, and so do the checks, on a roofline of any size.
-/

namespace Eaves

open Outcome
open Number (Binary64)

variable {layer next : Layer} {offer : Offer} {kind : QuestionKind}
  {intent settled : Intent} {questions : List Question} {answers : Answers}

/-- A design that can be kept: it can be read back, and nothing behind the choices of its flags has
anything inside it. -/
structure Intent.IsKeepable (intent : Intent) : Prop where
  recordable : intent.IsRecordable
  flat : ∀ flag ∈ intent.ambiguities, flag.IsFlat

/-! ## What a prompt asks for -/

namespace Prompt

theorem isUnit_confidence {tally : Tally} {settings : ParserSettings} {sure : Binary64}
    (computed : confidence tally settings = .ok sure) : sure.IsUnit := by
  unfold confidence at computed
  split at computed
  · cases computed
    exact Binary64.isUnit_zero
  · rcases bind_eq_ok_iff.mp computed with ⟨flags, -, rest⟩
    rcases bind_eq_ok_iff.mp rest with ⟨whole, -, rest⟩
    rcases bind_eq_ok_iff.mp rest with ⟨white, -, shape⟩
    rw [pure_eq_ok_iff] at shape
    subst shape
    exact Binary64.isUnit_greatest _

/-- No clause asks for a gradient. -/
theorem stops_understand {clause : List Char} {index : Int} {roofline : Option Roofline}
    {settings : ParserSettings} {understood : Understanding}
    (read : understand clause index roofline settings = .ok understood) :
    understood.layer.pattern.stops = [] := by
  rcases bind_eq_ok_iff.mp read with ⟨rule, -, shape⟩
  rw [pure_eq_ok_iff] at shape
  subst shape
  rfl

theorem isKeepable_parse {text : String} {roofline : Option Roofline} {settings : ParserSettings}
    (parsed : parse text roofline settings = .ok intent) : intent.IsKeepable := by
  refine ⟨?_, isFlat_parse parsed⟩
  rcases bind_eq_ok_iff.mp parsed with ⟨understood, read, rest⟩
  rcases bind_eq_ok_iff.mp rest with ⟨sure, isSure, shape⟩
  rw [pure_eq_ok_iff] at shape
  subst shape
  refine ⟨isUnit_confidence isSure, ?_⟩
  intro layer mem
  rcases List.mem_map.mp mem with ⟨result, resultMem, rfl⟩
  rcases exists_partner (understandFrom_eq_ok read).flip resultMem with ⟨clause, -, readOne⟩
  simp [stops_understand readOne]

end Prompt

/-! ## What answers leave -/

/-- No option for a layer changes its pattern. -/
theorem Layer.Chooses.pattern_eq (chooses : layer.Chooses offer kind next) :
    next.pattern = layer.pattern := by
  cases chooses with
  | zone =>
      unfold chooseZone
      split <;> rfl
  | color =>
      unfold chooseColor
      split <;> rfl
  | spacing chosen =>
      rcases bind_eq_ok_iff.mp chosen with ⟨rule, -, shape⟩
      split at shape
      all_goals
        rw [pure_eq_ok_iff] at shape
        subst shape
        rfl
  | direction =>
      unfold chooseDirection
      split <;> rfl
  | effect =>
      unfold chooseEffect
      split <;> rfl
  | speed =>
      unfold chooseSpeed
      split <;> rfl

namespace Settle

theorem isUnit_raised {sure : Binary64} (isUnit : sure.IsUnit) (count : Nat) :
    (raised sure count).IsUnit := by
  have step : confidenceStep = .finite (Binary64.nearest (mkRat (1 : Nat) (Number.tenTo 1))) :=
    Binary64.ofRat_eq (x := mkRat (1 : Nat) (Number.tenTo 1))
      (by norm_num [Number.tenTo, Rat.mkRat_eq_div, abs_le])
  have stepNonneg : 0 ≤ Binary64.nearest (mkRat (1 : Nat) (Number.tenTo 1)) :=
    Binary64.nearest_nonneg (by norm_num [Number.tenTo, Rat.mkRat_eq_div])
  have gain : (Binary64.finite 0).le (confidenceStep.mul (.finite (count : Int))) = true := by
    have counted : (0 : Rat) ≤ ((count : Int) : Rat) := by positivity
    rw [step]
    exact Binary64.notNegative_ofRat (mul_nonneg stepNonneg counted)
  exact Binary64.isUnit_least (Binary64.notNegative_add isUnit.isFinite isUnit.notNegative gain)

end Settle

/-- Answers leave the pattern of every layer alone. -/
theorem Intent.patterns_settle (settles : intent.settle answers questions = .ok settled) :
    List.Forall₂ (fun before after : Layer => after.pattern = before.pattern)
      intent.layers settled.layers := by
  rcases settle_eq_ok_iff.mp settles with ⟨done, ran, rfl⟩
  exact Settle.forall₂_run (R := fun before after => after.pattern = before.pattern)
    (fun _ => rfl) (fun first second => second.trans first)
    (fun _ _ _ _ => ⟨fun _ chooses => chooses.pattern_eq, fun _ _ _ => rfl⟩) ran

/-- Answers change no gradient, and the confidence they raise stays at most one. -/
theorem Intent.IsRecordable.settle (recordable : intent.IsRecordable)
    (settles : intent.settle answers questions = .ok settled) : settled.IsRecordable := by
  have patterns := patterns_settle settles
  rcases settle_eq_ok_iff.mp settles with ⟨done, ran, rfl⟩
  refine ⟨Settle.isUnit_raised recordable.confidence _, ?_⟩
  intro layer mem
  rcases exists_partner patterns.flip mem with ⟨before, together, samePattern⟩
  rw [samePattern]
  exact recordable.stops before (List.of_mem_zip together).2

theorem Intent.IsKeepable.settle (keepable : intent.IsKeepable)
    (settles : intent.settle answers questions = .ok settled) : settled.IsKeepable := by
  have flags := ambiguities_settle_sublist settles
  exact ⟨keepable.recordable.settle settles,
    fun flag mem => keepable.flat flag (flags.subset mem)⟩

/-! ## Questions about what was kept -/

/-- A flag that can be asked about can be asked about when it is plain: no rule has to be shown. -/
theorem Ambiguity.IsAskable.plain {flag : Ambiguity} {subject other : Subject}
    (sameLights : other.pixelCount flag.layerId = subject.pixelCount flag.layerId)
    (askable : flag.IsAskable subject) : flag.plain.IsAskable other := by
  rcases askable with ⟨-, n, -, counted⟩
  rw [← sameLights] at counted
  have countedToo : other.pixelCount flag.plain.layerId = .ok n := counted
  suffices ∃ worded, wordingAndOffers other flag.plain = .ok worded by
    rcases this with ⟨worded, isWorded⟩
    exact ⟨worded, n, isWorded, countedToo⟩
  unfold wordingAndOffers
  cases flag.plain.kind with
  | zone => exact ⟨_, rfl⟩
  | color =>
      dsimp only
      rw [colorOffers, countedToo, ok_bind]
      exact ⟨_, rfl⟩
  | spacingImpossible =>
      let coloring := ((other.intent.layer? flag.plain.layerId).map Layer.coloring).getD {}
      have offered : flag.plain.choices.mapM (spacingOffer coloring n other.brightness) =
          .ok (flag.plain.choices.map (Offer.ofChoice "straighten")) := by
        apply mapM_eq_ok_map
        intro choice mem
        rcases List.mem_map.mp mem with ⟨own, -, rfl⟩
        exact spacingOffer_plain coloring n other.brightness own
      dsimp only
      rw [spacingOffers, countedToo, ok_bind]
      dsimp only
      rw [offered, ok_bind]
      exact ⟨_, rfl⟩
  | direction => exact ⟨_, rfl⟩
  | conflict => exact ⟨_, rfl⟩
  | effect => exact ⟨_, rfl⟩

/-- What can be asked about a design can be asked about it when it is plain. -/
theorem Intent.exists_ask_plain {roofline : Option Roofline} {settings : CheckSettings}
    (asked : ask intent.ambiguities ⟨intent, roofline, settings⟩ = .ok questions) :
    ∃ others, ask intent.plain.ambiguities ⟨intent.plain, roofline, settings⟩ = .ok others := by
  have askable := exists_ask_iff.mp ⟨questions, asked⟩
  rw [exists_ask_iff]
  intro flag mem
  rcases List.mem_map.mp mem with ⟨own, ownMem, rfl⟩
  exact (askable own ownMem).plain rfl

/-! ## Records -/

/-- A saved design is read back with plain data for its payload and behind the choices of its
flags. -/
theorem SavedDesign.read_plain_toValue {design : SavedDesign} (named : design.id.isEmpty = false)
    (owned : design.userId.isEmpty = false) (recordable : design.intent.IsRecordable) :
    read design.toValue.plain = .valid { design with
      intent := design.intent.plain
      payload := design.payload.map plainEntries } := by
  have rooflineId : (Value.ofText? design.rooflineId).plain = .ofText? design.rooflineId := by
    cases design.rooflineId <;> rfl
  have payload : (Value.ofOption .object design.payload).plain =
      .ofOption .object (design.payload.map plainEntries) := by
    cases design.payload <;> simp [Value.ofOption]
  have readRooflineId : Reader.nullable Reader.text (.ofText? design.rooflineId) =
      .valid design.rooflineId := by
    cases design.rooflineId <;> rfl
  have readPayload : Reader.nullable Reader.entries
      (.ofOption .object (design.payload.map plainEntries)) =
        .valid (design.payload.map plainEntries) :=
    Reader.nullable_ofOption (fun _ => Value.noConfusion) fun _ _ => rfl
  have readName : ∀ own : String, own.isEmpty = false →
      Reader.nonEmptyText (.text own) = .valid own := by
    intro own isNamed
    rw [Reader.nonEmptyText, Reader.text_text, Checked.andThen_valid, isNamed]
    rfl
  simp only [toValue, Value.plain, plainEntries, rooflineId, payload]
  apply Reader.strictRecord_eq_valid rfl
  simp [readName _ named, readName _ owned, readRooflineId, readPayload,
    Intent.read_plain_toValue recordable]

namespace Session

variable {session start : Session}

/-! ## What a session reaches -/

/-- A design that has passed its checks is the session's, whether or not its questions can be
asked. -/
theorem intent_adopt {checked : Intent} (raises : session.withRaised intent = .ok checked) :
    (session.adopt intent).1.intent = some checked := by
  unfold adopt
  rw [raises]
  dsimp only
  split <;> rfl

/-- Of operations it is enough to look at the designs that are taken in, and at composing: whatever
these keep holds after operations of all kinds. -/
theorem run_induction (Holds : Session → Prop) (Allowed : Operation → Prop)
    (adopts : ∀ {session : Session} {source : Source} {intent : Intent}, Holds session →
      Allowed (.take source) → session.brought source = .ok intent →
        Holds (session.adopt intent).1)
    (composes : ∀ {session : Session} {form : PayloadForm}, Holds session →
      Holds (session.compose form).1)
    (held : Holds session) {operations : List Operation}
    (allowed : ∀ operation ∈ operations, Allowed operation) : Holds (session.run operations) := by
  induction operations generalizing session with
  | nil => exact held
  | cons operation rest ih =>
      refine ih ?_ fun other mem => allowed other (List.mem_cons_of_mem _ mem)
      cases operation with
      | take source =>
          rw [Session.step, take_eq]
          cases isBrought : session.brought source with
          | ok intent => exact adopts held (allowed _ List.mem_cons_self) isBrought
          | error failure => exact held
      | compose form => exact composes held
      | save repository id name => exact held
      | send => exact held

/-- A property that the checks keep is one of the session's design after any operations, if it is
one of every design that they bring. -/
theorem holds_run {Holds : Intent → Prop} {Allowed : Operation → Prop}
    (raised : ∀ {session : Session} {intent checked : Intent}, Holds intent →
      session.withRaised intent = .ok checked → Holds checked)
    (brings : ∀ {session : Session} {source : Source} {intent : Intent},
      (∀ own, session.intent = some own → Holds own) → Allowed (.take source) →
        session.brought source = .ok intent → Holds intent)
    (held : ∀ own, session.intent = some own → Holds own) {operations : List Operation}
    (allowed : ∀ operation ∈ operations, Allowed operation) :
    ∀ own, (session.run operations).intent = some own → Holds own := by
  refine run_induction (fun session => ∀ own, session.intent = some own → Holds own) Allowed
    ?_ ?_ held allowed
  · intro session source intent heldNow isAllowed isBrought
    have holds := brings heldNow isAllowed isBrought
    cases raises : session.withRaised intent with
    | error failure =>
        rw [adopt, raises]
        exact heldNow
    | ok checked =>
        intro other isOther
        rw [intent_adopt raises, Option.some.injEq] at isOther
        exact isOther ▸ raised holds raises
  · intro session form heldNow intent isIntent
    exact heldNow intent ((compose_keeps session form).1.symm.trans isIntent)

/-- The design of a session, if there is one, can be kept. -/
def HasKeepable (session : Session) : Prop :=
  ∀ intent, session.intent = some intent → intent.IsKeepable

/-- An operation that brings no design from outside. -/
def Operation.BringsNoDesign : Operation → Prop
  | .take (.design _) | .take (.stored ..) => False
  | _ => True

/-- Checks change neither the confidence nor a gradient. -/
theorem isRecordable_withRaised {checked : Intent} (recordable : intent.IsRecordable)
    (raises : session.withRaised intent = .ok checked) : checked.IsRecordable := by
  rcases bind_eq_ok_iff.mp raises with ⟨validation, -, shape⟩
  rw [pure_eq_ok_iff] at shape
  subst shape
  exact ⟨recordable.confidence, recordable.stops⟩

theorem isKeepable_withRaised {checked : Intent} (keepable : intent.IsKeepable)
    (raises : session.withRaised intent = .ok checked) : checked.IsKeepable := by
  refine ⟨isRecordable_withRaised keepable.recordable raises, ?_⟩
  rcases bind_eq_ok_iff.mp raises with ⟨validation, validated, shape⟩
  rw [pure_eq_ok_iff] at shape
  subst shape
  intro flag mem choice inside
  rcases mem_of_mem_mergeFlags mem with own | added
  · exact keepable.flat flag own choice inside
  · rcases (Check.mem_flags_of_validate validated flag).mp added with ⟨present, -, raisesFlag⟩
    rcases raisesFlag.exists_rule inside with ⟨rule, isRule⟩
    rw [isRule]
    trivial

/-- What a prompt asks for, and what answers leave of a design that can be kept, can be kept. -/
theorem isKeepable_brought (held : session.HasKeepable) {source : Source}
    (noDesign : (Operation.take source).BringsNoDesign)
    (isBrought : session.brought source = .ok intent) : intent.IsKeepable := by
  cases source with
  | prompt text =>
      rcases bind_eq_ok_iff.mp isBrought with ⟨parsed, isParsed, shape⟩
      rw [pure_eq_ok_iff] at shape
      subst shape
      have keepable := Prompt.isKeepable_parse isParsed
      exact ⟨⟨keepable.recordable.confidence, keepable.recordable.stops⟩, keepable.flat⟩
  | answers answers =>
      rcases answered_eq_ok_iff.mp isBrought with ⟨own, isOwn, settles⟩
      exact (held own isOwn).settle settles
  | design own => exact noDesign.elim
  | stored repository id => exact noDesign.elim

theorem HasKeepable.run (held : session.HasKeepable) {operations : List Operation}
    (noDesigns : ∀ operation ∈ operations, operation.BringsNoDesign) :
    (session.run operations).HasKeepable :=
  holds_run isKeepable_withRaised (fun heldNow => isKeepable_brought heldNow) held noDesigns

/-- What is saved of a design has an id and an owner. -/
theorem named_of_record {id name : String} {kept : SavedDesign}
    (recorded : session.record id name = .ok kept) :
    kept.id.isEmpty = false ∧ kept.userId.isEmpty = false := by
  rcases bind_eq_ok_iff.mp recorded with ⟨intent, -, rest⟩
  rcases bind_eq_ok_iff.mp rest with ⟨checked, areNamed, shape⟩
  rw [pure_eq_ok_iff] at shape
  subst shape
  unfold checkIds at areNamed
  cases noId : id.isEmpty <;> cases noUser : session.userId.isEmpty
  · exact ⟨rfl, rfl⟩
  all_goals
    simp only [noId, noUser] at areNamed
    cases areNamed

/-- A design that a session has reached by prompts and answers, in any order and with any outcome,
loses no decision when it is kept.  What is written of it is read back as a design with the same
layers, settings and prompt, and the same flags in plain form, and so is what is saved of it.  The
open questions are those about the design, in a session on a roofline and with settings for which
everything can be counted; and where questions about the design can be asked, on whatever roofline,
they can be asked about what was read back, and whatever is answered does the same to both. -/
theorem kept_design_keeps_decisions (isNew : start.IsNew) {operations : List Operation}
    (noDesigns : ∀ operation ∈ operations, operation.BringsNoDesign)
    (reached : (start.run operations).intent = some intent) :
    ∃ loaded, Intent.read intent.toValue.plain = .valid loaded ∧
      loaded.layers = intent.layers ∧ loaded.settings = intent.settings ∧
      loaded.prompt = intent.prompt ∧
      loaded.ambiguities = intent.ambiguities.map Ambiguity.plain ∧
      (∀ id name kept, (start.run operations).record id name = .ok kept →
        ∃ read, SavedDesign.read kept.toValue.plain = .valid read ∧ read.intent = loaded) ∧
      (start.IsSized → (∀ operation ∈ operations, operation.IsWithin) →
        ask intent.ambiguities ((start.run operations).subject intent) =
          .ok (start.run operations).questions) ∧
      ∀ roofline settings questions,
        ask intent.ambiguities ⟨intent, roofline, settings⟩ = .ok questions →
          ∃ others, ask loaded.ambiguities ⟨loaded, roofline, settings⟩ = .ok others ∧
            ∀ answers, loaded.settle answers others =
              (intent.settle answers questions).map Intent.plain := by
  have nothing : start.HasKeepable := by
    intro other isOther
    rw [isNew.no_intent] at isOther
    cases isOther
  have keepable := nothing.run noDesigns intent reached
  refine ⟨intent.plain, Intent.read_plain_toValue keepable.recordable, rfl, rfl, rfl, rfl, ?_, ?_,
    ?_⟩
  · intro id name kept recorded
    rcases named_of_record recorded with ⟨named, owned⟩
    have sameIntent : kept.intent = intent :=
      Option.some.inj ((record_eq_ok recorded).1.symm.trans reached)
    refine ⟨_, SavedDesign.read_plain_toValue named owned (sameIntent ▸ keepable.recordable), ?_⟩
    rw [sameIntent]
  · intro sized within
    exact (isNew.standing.run sized within).2.asked intent reached
  · intro roofline settings questions asked
    have sameStrip : (Subject.mk intent roofline settings).roofline =
        (Subject.mk intent.plain roofline settings).roofline := rfl
    rcases Intent.exists_ask_plain asked with ⟨others, askedToo⟩
    exact ⟨others, askedToo, Intent.settle_plain keepable.flat sameStrip asked askedToo⟩

/-- A vague colour that moves: its shade and its direction are left open. -/
def redChase : List Operation :=
  [.take (.prompt "red chase")]

theorem kinds_redChase :
    ((freshSession.understand "red chase" >>= freshSession.withRaised).map fun intent =>
      intent.ambiguities.map Ambiguity.kind).toOption = some [.color, .direction] := by
  decide +kernel

/-- The shades and the directions come back as plain data, and are answered all the same. -/
theorem kept_design_keeps_decisions_redChase :
    freshSession.IsNew ∧ (∀ operation ∈ redChase, operation.BringsNoDesign) ∧
      ∃ intent loaded, (freshSession.run redChase).intent = some intent ∧
        intent.ambiguities.map Ambiguity.kind = [.color, .direction] ∧
        Intent.read intent.toValue.plain = .valid loaded ∧ loaded.layers = intent.layers ∧
        ∃ questions others,
          ask intent.ambiguities ((freshSession.run redChase).subject intent) = .ok questions ∧
          ask loaded.ambiguities ((freshSession.run redChase).subject loaded) = .ok others ∧
          ∀ answers, loaded.settle answers others =
            (intent.settle answers questions).map Intent.plain := by
  have isNew : freshSession.IsNew := ⟨rfl, rfl, rfl⟩
  have noDesigns : ∀ operation ∈ redChase, operation.BringsNoDesign := by
    intro operation mem
    rw [List.mem_singleton.mp mem]
    trivial
  have within : ∀ operation ∈ redChase, operation.IsWithin := by
    intro operation mem
    rw [List.mem_singleton.mp mem]
    trivial
  have share : (Binary64.finite 1).IsShare := ⟨1, rfl, by decide, by decide⟩
  have sized : freshSession.IsSized := ⟨by decide, share, share⟩
  obtain ⟨intent, isIntent, kinds⟩ := exists_ok_of_toOption kinds_redChase
  rcases bind_eq_ok_iff.mp isIntent with ⟨asked, understood, raises⟩
  have reached : (freshSession.run redChase).intent = some intent := by
    rw [redChase, Session.run, List.foldl_cons, List.foldl_nil, Session.step, take_eq, brought,
      understood]
    exact intent_adopt raises
  obtain ⟨loaded, isRead, sameLayers, -, -, -, -, standing, answered⟩ :=
    kept_design_keeps_decisions isNew noDesigns reached
  have questions := standing sized within
  rcases answered _ _ _ questions with ⟨others, askedToo, same⟩
  exact ⟨isNew, noDesigns, intent, loaded, reached, kinds, isRead, sameLayers, _, others, questions,
    askedToo, same⟩

end Session

end Eaves
