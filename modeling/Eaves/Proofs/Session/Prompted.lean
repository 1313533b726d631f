import Eaves.Proofs.Number.Grid
import Eaves.Proofs.Prompt.Assumed
import Eaves.Proofs.Session.Kept

/-!
# Designs made of prompts and answers

A design that came from a prompt has no gradients, its confidence is a number of the
format, and behind each choice of its flags stands a term of the flag's kind, the
position of a layer, or nothing.  Answers and checks keep it so, so this holds of the
design of a session to which no other design was brought.

The design of any session has been checked, whatever was brought: for everything that
the checks would say about it again, it has a flag already.
-/

namespace Eaves

open Outcome
open Number (Binary64)

variable {flag : Ambiguity} {intent settled : Intent} {questions : List Question}
  {answers : Answers}

/-- A design as prompts and answers make it. -/
structure Intent.IsPrompted (intent : Intent) : Prop where
  noStops : ∀ layer ∈ intent.layers, layer.pattern.stops = []
  confidence : intent.confidence.IsRounded
  flags : ∀ flag ∈ intent.ambiguities, flag.IsTyped

/-! ## Flags -/

/-- The flags of a prompt are typed. -/
theorem Ambiguity.IsAssumed.isTyped {layers : List Layer} (assumed : flag.IsAssumed layers) :
    flag.IsTyped := by
  intro choice mem
  cases assumed with
  | zone _ _ isFlag =>
      subst isFlag
      simp only [Prompt.manySegments, Prompt.Origin.flag, List.mem_cons, List.not_mem_nil,
        or_false] at mem
      rcases mem with rfl | rfl | rfl
      · exact ⟨rfl, .zone _⟩
      · exact ⟨rfl, .zone _⟩
      · exact ⟨rfl, .noZone⟩
  | color isFlag =>
      subst isFlag
      rcases List.mem_cons.mp mem with rfl | other
      · exact ⟨rfl, .color _⟩
      · rcases List.mem_map.mp other with ⟨shade, -, rfl⟩
        exact ⟨rfl, .color _⟩
  | direction _ _ _ _ isFlag =>
      subst isFlag
      simp only [Prompt.whichDirection, Prompt.Origin.flag, List.mem_cons, List.not_mem_nil,
        or_false] at mem
      rcases mem with rfl | rfl <;> exact ⟨rfl, .direction _⟩
  | effect isFlag =>
      subst isFlag
      simp only [Prompt.whichMotion, Prompt.Origin.flag, List.mem_cons, List.not_mem_nil,
        or_false] at mem
      rcases mem with rfl | rfl | rfl | rfl <;> exact ⟨rfl, .motion _⟩
  | conflict isConflict =>
      rcases isConflict with ⟨first, second, -, -, -, -, rfl⟩
      simp only [conflictFlag, List.mem_cons, List.not_mem_nil, or_false] at mem
      rcases mem with rfl | rfl | rfl
      · exact ⟨rfl, .winner _⟩
      · exact ⟨rfl, .winner _⟩
      · exact ⟨rfl, .noWinner⟩

/-- The flags that the checks raise are typed. -/
theorem Check.Raises.isTyped {roofline : Roofline} {settings : CheckSettings} {present : Layer}
    (raises : Raises roofline settings present flag) : flag.IsTyped := by
  intro choice mem
  rcases raises.exists_rule mem with ⟨rule, isRule⟩
  rw [raises.kind_eq, isRule]
  obtain ⟨n, own, verdict, -, rfl⟩ := raises.exists_verdict
  rcases List.mem_map.mp mem with ⟨⟨suggestion, rank⟩, -, rfl⟩
  exact ⟨rfl, .spacing rule⟩

/-! ## What prompts bring, and what answers and checks keep -/

theorem Prompt.isRounded_confidence {tally : Tally} {settings : ParserSettings} {sure : Binary64}
    (computed : confidence tally settings = .ok sure) : sure.IsRounded := by
  unfold confidence at computed
  split at computed
  · cases computed
    exact Binary64.isRounded_zero
  · rcases bind_eq_ok_iff.mp computed with ⟨flags, -, rest⟩
    rcases bind_eq_ok_iff.mp rest with ⟨whole, -, rest⟩
    rcases bind_eq_ok_iff.mp rest with ⟨white, -, shape⟩
    rw [pure_eq_ok_iff] at shape
    subst shape
    exact Binary64.isRounded_greatest Binary64.isRounded_zero
      (Binary64.isRounded_least Binary64.isRounded_one (Binary64.isRounded_add _ _))

theorem Prompt.isPrompted_parse {text : String} {roofline : Option Roofline}
    {settings : ParserSettings} (parsed : parse text roofline settings = .ok intent) :
    intent.IsPrompted := by
  refine ⟨?_, ?_, fun flag mem => (isAssumed_of_parse parsed mem).isTyped⟩
  · obtain ⟨results, parts⟩ := exists_understands_of_parse parsed
    intro layer mem
    rw [parts.layers_eq] at mem
    rcases List.mem_map.mp mem with ⟨result, resultMem, rfl⟩
    rcases exists_partner parts.related.flip resultMem with ⟨clause, -, readOne⟩
    exact stops_understand readOne
  · rcases bind_eq_ok_iff.mp parsed with ⟨understood, -, rest⟩
    rcases bind_eq_ok_iff.mp rest with ⟨sure, isSure, shape⟩
    rw [pure_eq_ok_iff] at shape
    subst shape
    exact isRounded_confidence isSure

theorem Intent.IsPrompted.settle (prompted : intent.IsPrompted)
    (settles : intent.settle answers questions = .ok settled) : settled.IsPrompted := by
  have patterns := patterns_settle settles
  have flags := ambiguities_settle_sublist settles
  refine ⟨?_, ?_, fun flag mem => prompted.flags flag (flags.subset mem)⟩
  · intro layer mem
    rcases exists_partner patterns.flip mem with ⟨before, together, samePattern⟩
    rw [samePattern]
    exact prompted.noStops before (List.of_mem_zip together).2
  · rcases settle_eq_ok_iff.mp settles with ⟨done, -, rfl⟩
    exact Binary64.isRounded_least Binary64.isRounded_one (Binary64.isRounded_add _ _)

namespace Session

variable {session start : Session}

theorem isPrompted_withRaised {checked : Intent} (prompted : intent.IsPrompted)
    (raises : session.withRaised intent = .ok checked) : checked.IsPrompted := by
  rcases bind_eq_ok_iff.mp raises with ⟨validation, validated, shape⟩
  rw [pure_eq_ok_iff] at shape
  subst shape
  refine ⟨prompted.noStops, prompted.confidence, ?_⟩
  intro flag mem
  rcases mem_of_mem_mergeFlags mem with own | added
  · exact prompted.flags flag own
  · rcases (Check.mem_flags_of_validate validated flag).mp added with ⟨present, -, raisesFlag⟩
    exact raisesFlag.isTyped

theorem isPrompted_brought (held : ∀ own, session.intent = some own → own.IsPrompted)
    {source : Source} (noDesign : (Operation.take source).BringsNoDesign)
    (isBrought : session.brought source = .ok intent) : intent.IsPrompted := by
  cases source with
  | prompt text =>
      rcases bind_eq_ok_iff.mp isBrought with ⟨parsed, isParsed, shape⟩
      rw [pure_eq_ok_iff] at shape
      subst shape
      have prompted := Prompt.isPrompted_parse isParsed
      exact ⟨prompted.noStops, prompted.confidence, prompted.flags⟩
  | answers answers =>
      rcases answered_eq_ok_iff.mp isBrought with ⟨own, isOwn, settles⟩
      exact (held own isOwn).settle settles
  | design own => exact noDesign.elim
  | stored repository id => exact noDesign.elim

/-- The design of a session to which only prompts and answers came is made of them. -/
theorem isPrompted_run (isNew : start.IsNew) {operations : List Operation}
    (noDesigns : ∀ operation ∈ operations, operation.BringsNoDesign)
    (reached : (start.run operations).intent = some intent) : intent.IsPrompted := by
  have nothing : ∀ own, start.intent = some own → own.IsPrompted :=
    fun own isOwn => absurd isOwn (isNew.intent_ne own)
  exact holds_run isPrompted_withRaised (fun held => isPrompted_brought held) nothing noDesigns
    intent reached

/-! ## Checked designs -/

/-- A design that has a flag of the same kind, for the same layer, for every one that the checks
raise. -/
def Covers (session : Session) (intent : Intent) : Prop :=
  ∃ validation, Check.validate intent session.roofline session.settings.checks = .ok validation ∧
    ∀ flag ∈ validation.flags, ∃ other ∈ intent.ambiguities,
      other.kind = flag.kind ∧ other.layerId = flag.layerId

/-- The design of a session has been checked, whatever was done with it. -/
theorem covers_run (isNew : start.IsNew) (operations : List Operation)
    (reached : (start.run operations).intent = some intent) :
    (start.run operations).Covers intent := by
  refine run_induction (fun session => ∀ own, session.intent = some own → session.Covers own)
    (fun _ => True) ?_ ?_ ?_ (fun _ _ => trivial) intent reached
  · intro session source design held _ _ own isOwn
    rcases adopt_cases session design with same | ⟨validation, took⟩
    · rw [same] at isOwn ⊢
      exact held own isOwn
    · rw [took.intent_eq, Option.some.injEq] at isOwn
      subst isOwn
      refine ⟨validation, ?_, fun flag mem => exists_sameMatter_of_mem design.ambiguities mem⟩
      rw [took.roofline_eq, took.settings_eq]
      exact took.checked
  · intro session form held own isOwn
    obtain ⟨sameIntent, sameRoofline, sameSettings⟩ := compose_keeps session form
    have covers := held own (sameIntent.symm.trans isOwn)
    unfold Covers at covers ⊢
    rwa [sameRoofline, sameSettings]
  · exact fun own isOwn => absurd isOwn (isNew.intent_ne own)

/-! ## Sessions with a design of their own -/

/-- A session that a new one has reached, on a roofline and with settings for which everything can
be counted, and to which no design was brought but by prompts and answers. -/
def MadeByPrompts (session : Session) : Prop :=
  ∃ (start : Session) (operations : List Operation), start.IsNew ∧ start.IsSized ∧
    (∀ operation ∈ operations, operation.IsWithin ∧ operation.BringsNoDesign) ∧
    start.run operations = session

namespace MadeByPrompts

variable (made : session.MadeByPrompts) (isIntent : session.intent = some intent)

include made isIntent

theorem isPrompted : intent.IsPrompted := by
  obtain ⟨start, operations, isNew, -, allowed, rfl⟩ := made
  exact isPrompted_run isNew (fun operation mem => (allowed operation mem).2) isIntent

theorem isRecordable : intent.IsRecordable := by
  obtain ⟨start, operations, isNew, -, allowed, rfl⟩ := made
  have nothing : start.HasKeepable := fun own isOwn => absurd isOwn (isNew.intent_ne own)
  exact (nothing.run (fun operation mem => (allowed operation mem).2) intent isIntent).recordable

theorem covers : session.Covers intent := by
  obtain ⟨start, operations, isNew, -, -, rfl⟩ := made
  exact covers_run isNew operations isIntent

theorem asked : ask intent.ambiguities (session.subject intent) = .ok session.questions := by
  obtain ⟨start, operations, isNew, sized, allowed, rfl⟩ := made
  exact (isNew.standing.run sized fun operation mem => (allowed operation mem).1).2.asked intent
    isIntent

end MadeByPrompts

end Session

end Eaves
