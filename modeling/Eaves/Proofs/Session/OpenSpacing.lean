import Eaves.Proofs.Answer.Spacing
import Eaves.Proofs.Record.Settings
import Eaves.Proofs.Session.Rounds

/-!
# Open questions of spacing

After every call the design is checked again, and a flag is added for each layer whose
spacing does not fit and that has none yet.  So whatever the checks say, a flag is open
for the layer.  A flag that is open already stays as it was raised, though: it is what
the checks say now only as long as the zone of its layer is left alone, or is changed
together with an answer about the spacing.
-/

namespace Eaves

open Outcome

/-! ## Checked designs -/

/-- A design with a flag for everything that the checks say about it, one for each layer. -/
structure Intent.IsChecked (roofline : Roofline) (settings : CheckSettings) (intent : Intent) :
    Prop where
  apart : (intent.layers.map Layer.id).Nodup
  once : SpacedOnce intent.ambiguities
  exists_validation : ∃ validation, Check.validate intent roofline settings = .ok validation ∧
    ∀ flag ∈ validation.flags, ∃ other ∈ intent.ambiguities,
      other.kind = flag.kind ∧ other.layerId = flag.layerId

/-- The open flags about the spacing of a layer are what the checks say about it. -/
def Intent.StandsFor (roofline : Roofline) (settings : CheckSettings) (layerId : Option String)
    (intent : Intent) : Prop :=
  ∀ flag ∈ intent.ambiguities, flag.kind = .spacingImpossible → flag.layerId = layerId →
    ∃ validation, Check.validate intent roofline settings = .ok validation ∧
      flag ∈ validation.flags

namespace Check

variable {intent : Intent} {roofline : Roofline} {settings : CheckSettings}
  {validation : Validation}

/-- Among layers with ids of their own, the flags that the checks raise for one layer are one. -/
theorem eq_of_mem_flags (apart : (intent.layers.map Layer.id).Nodup)
    (checked : validate intent roofline settings = .ok validation) {flag other : Ambiguity}
    (mem : flag ∈ validation.flags) (otherMem : other ∈ validation.flags)
    (sameLayer : flag.layerId = other.layerId) : flag = other := by
  rcases (mem_flags_of_validate checked flag).mp mem with ⟨present, presentMem, raises⟩
  rcases (mem_flags_of_validate checked other).mp otherMem with ⟨second, secondMem, otherRaises⟩
  have sameId : present.id = second.id :=
    Option.some.inj (raises.layerId_eq.symm.trans (sameLayer.trans otherRaises.layerId_eq))
  have same : present = second := List.inj_on_of_nodup_map apart
    (List.mem_filter.mp presentMem).1 (List.mem_filter.mp secondMem).1 sameId
  subst same
  exact raises.flag_eq otherRaises

end Check

namespace Intent

variable {intent settled : Intent} {roofline : Roofline} {settings : CheckSettings}
  {validation : Validation} {layerId : Option String}

/-- A design whose flags stand for what the checks say has exactly the flags that they raise. -/
theorem IsChecked.mem_iff (isChecked : intent.IsChecked roofline settings)
    (stands : intent.StandsFor roofline settings layerId)
    (checked : Check.validate intent roofline settings = .ok validation) {flag : Ambiguity}
    (isSpacing : flag.kind = .spacingImpossible) (about : flag.layerId = layerId) :
    flag ∈ intent.ambiguities ↔ flag ∈ validation.flags := by
  have raised : ∀ other ∈ intent.ambiguities, other.kind = .spacingImpossible →
      other.layerId = layerId → other ∈ validation.flags := by
    intro other mem otherSpacing otherAbout
    rcases stands other mem otherSpacing otherAbout with ⟨same, isSame, inside⟩
    rw [checked] at isSame
    cases isSame
    exact inside
  constructor
  · intro mem
    exact raised flag mem isSpacing about
  · intro mem
    rcases isChecked.exists_validation with ⟨same, isSame, covers⟩
    rw [checked] at isSame
    cases isSame
    rcases covers flag mem with ⟨other, otherMem, sameKind, sameLayer⟩
    have otherRaised := raised other otherMem (sameKind.trans isSpacing) (sameLayer.trans about)
    rw [Check.eq_of_mem_flags isChecked.apart checked mem otherRaised sameLayer.symm]
    exact otherMem

/-! ## Taking a design in -/

/-- With the flags that the checks raise added, a design is checked. -/
theorem isChecked_mergeFlags (apart : (intent.layers.map Layer.id).Nodup)
    (once : SpacedOnce intent.ambiguities)
    (checked : Check.validate intent roofline settings = .ok validation) :
    IsChecked roofline settings
      { intent with ambiguities := mergeFlags intent.ambiguities validation.flags } :=
  ⟨apart, once.mergeFlags _, validation, checked,
    fun _ mem => exists_sameMatter_of_mem intent.ambiguities mem⟩

/-- Flags about the spacing of a layer that are added stand for what the checks say; so those of
the design have to do so only for the design itself. -/
theorem standsFor_mergeFlags
    (checked : Check.validate intent roofline settings = .ok validation)
    (own : ∀ flag ∈ intent.ambiguities, flag.kind = .spacingImpossible →
      flag.layerId = layerId → flag ∈ validation.flags) :
    StandsFor roofline settings layerId
      { intent with ambiguities := mergeFlags intent.ambiguities validation.flags } := by
  intro flag mem isSpacing about
  refine ⟨validation, checked, ?_⟩
  rcases mem_of_mem_mergeFlags mem with isOwn | added
  · exact own flag isOwn isSpacing about
  · exact added

/-- Flags that stand for what the checks say stand for it again once answers have been applied, as
long as these do not move the layer alone. -/
theorem StandsFor.settle {answers : Answers} {questions : List Question}
    (stands : intent.StandsFor roofline settings layerId) (once : SpacedOnce intent.ambiguities)
    (minded : (∃ flag ∈ intent.ambiguities, flag.kind = .spacingImpossible ∧
      flag.layerId = layerId) → answers.MoveLayer questions layerId →
        answers.SpaceLayer questions layerId)
    (settles : intent.settle answers questions = .ok settled)
    (checked : Check.validate settled roofline settings = .ok validation) :
    ∀ flag ∈ settled.ambiguities, flag.kind = .spacingImpossible → flag.layerId = layerId →
      flag ∈ validation.flags := by
  intro flag mem isSpacing about
  have wasOpen := (ambiguities_settle_sublist settles).subset mem
  rcases stands flag wasOpen isSpacing about with ⟨earlier, checkedEarlier, wasRaised⟩
  have unspaced : ¬answers.SpaceLayer questions layerId := by
    rintro ⟨question, questionMem, questionSpacing, named, given⟩
    exact layerId_ne_of_settle once settles questionMem questionSpacing given mem isSpacing
      (about.trans named.symm)
  have stays : ¬answers.MoveLayer questions layerId := fun moves =>
    unspaced (minded ⟨flag, wasOpen, isSpacing, about⟩ moves)
  -- so the layer that raised the flag is still there, and raises it still
  rcases (Check.mem_flags_of_validate checkedEarlier flag).mp wasRaised with
    ⟨present, presentMem, raises⟩
  rcases List.mem_filter.mp presentMem with ⟨inside, enabled⟩
  rcases exists_partner (keepsReading_settle stays unspaced settles) inside with
    ⟨after, together, keeps⟩
  have alike := keeps.alike (raises.layerId_eq.symm.trans about)
  apply (Check.mem_flags_of_validate checked flag).mpr
  refine ⟨after, List.mem_filter.mpr ⟨(List.of_mem_zip together).2, ?_⟩, ?_⟩
  · rw [alike.enabled_eq]
    exact enabled
  · rcases raises with ⟨own, ownChecked, ownMem⟩
    exact ⟨own, (alike.check_eq roofline settings).trans ownChecked, ownMem⟩

end Intent

namespace Session

variable {session : Session} {answers : Answers} {layerId : Option String}

/-- A session took in a design, with the flags that the checks raise for it. -/
structure TookIn (before after : Session) (design : Intent) (validation : Validation) :
    Prop where
  roofline_eq : after.roofline = before.roofline
  settings_eq : after.settings = before.settings
  checked : Check.validate design before.roofline before.settings.checks = .ok validation
  intent_eq : after.intent =
    some { design with ambiguities := mergeFlags design.ambiguities validation.flags }

/-- Taking a design in gives it the flags that the checks raise, or changes nothing; also where
its questions cannot be asked. -/
theorem adopt_cases (session : Session) (design : Intent) :
    (session.adopt design).1 = session ∨
      ∃ validation, session.TookIn (session.adopt design).1 design validation := by
  unfold adopt
  split
  · exact .inl rfl
  · rename_i checked isRaised
    rcases bind_eq_ok_iff.mp isRaised with ⟨validation, isChecked, shape⟩
    rw [pure_eq_ok_iff] at shape
    subst shape
    split
    · exact .inr ⟨validation, rfl, rfl, isChecked, rfl⟩
    · exact .inr ⟨validation, rfl, rfl, isChecked, rfl⟩

/-- A call with answers takes in the design with the answers applied, or changes nothing. -/
theorem answer_cases (session : Session) (answers : Answers) :
    (session.answer answers).1 = session ∨
      ∃ intent settled validation, session.intent = some intent ∧
        intent.settle answers session.questions = .ok settled ∧
        session.TookIn (session.answer answers).1 settled validation := by
  unfold answer
  split
  · rename_i settled isSettled
    rcases answered_eq_ok_iff.mp isSettled with ⟨intent, isIntent, settles⟩
    rcases adopt_cases session settled with same | ⟨validation, took⟩
    · exact .inl same
    · exact .inr ⟨intent, settled, validation, isIntent, settles, took⟩
  · exact .inl rfl

/-! ## Calls with answers -/

/-- The session after calls with answers, one after another. -/
def answerAll (session : Session) (calls : List Answers) : Session :=
  calls.foldl (fun reached answers => (reached.answer answers).1) session

/-- What holds of the answers of each call and the session that the call is made in. -/
def AtEachCall (Holds : Session → Answers → Prop) : Session → List Answers → Prop
  | _, [] => True
  | session, answers :: rest =>
      Holds session answers ∧ AtEachCall Holds (session.answer answers).1 rest

/-- Answers do not move a layer whose spacing is open without settling its spacing too. -/
def MindsSpacing (layerId : Option String) (session : Session) (answers : Answers) : Prop :=
  ∀ intent, session.intent = some intent →
    (∃ flag ∈ intent.ambiguities, flag.kind = .spacingImpossible ∧ flag.layerId = layerId) →
    answers.MoveLayer session.questions layerId → answers.SpaceLayer session.questions layerId

/-- A session whose design, if there is one, is checked. -/
def HasChecked (session : Session) : Prop :=
  ∀ intent, session.intent = some intent →
    intent.IsChecked session.roofline session.settings.checks

/-- A session in which the open flags about the spacing of a layer are what the checks say. -/
def HasStanding (layerId : Option String) (session : Session) : Prop :=
  ∀ intent, session.intent = some intent →
    intent.StandsFor session.roofline session.settings.checks layerId

theorem TookIn.hasChecked {after : Session} {design : Intent} {validation : Validation}
    (took : session.TookIn after design validation)
    (apart : (design.layers.map Layer.id).Nodup) (once : SpacedOnce design.ambiguities) :
    after.HasChecked := by
  intro intent isIntent
  rw [took.intent_eq] at isIntent
  cases isIntent
  rw [took.roofline_eq, took.settings_eq]
  exact Intent.isChecked_mergeFlags apart once took.checked

theorem TookIn.hasStanding {after : Session} {design : Intent} {validation : Validation}
    (took : session.TookIn after design validation)
    (own : ∀ flag ∈ design.ambiguities, flag.kind = .spacingImpossible →
      flag.layerId = layerId → flag ∈ validation.flags) : after.HasStanding layerId := by
  intro intent isIntent
  rw [took.intent_eq] at isIntent
  cases isIntent
  rw [took.roofline_eq, took.settings_eq]
  exact Intent.standsFor_mergeFlags took.checked own

theorem HasChecked.answer (checked : session.HasChecked) (answers : Answers) :
    (session.answer answers).1.HasChecked := by
  rcases answer_cases session answers with
    same | ⟨intent, settled, validation, isIntent, settles, took⟩
  · rw [same]
    exact checked
  · have before := checked intent isIntent
    apply took.hasChecked
    · rw [Intent.map_id_settle settles]
      exact before.apart
    · exact before.once.sublist (Intent.ambiguities_settle_sublist settles)

theorem HasStanding.answer (stands : session.HasStanding layerId) (checked : session.HasChecked)
    (minds : MindsSpacing layerId session answers) :
    (session.answer answers).1.HasStanding layerId := by
  rcases answer_cases session answers with
    same | ⟨intent, settled, validation, isIntent, settles, took⟩
  · rw [same]
    exact stands
  · exact took.hasStanding ((stands intent isIntent).settle (checked intent isIntent).once
      (minds intent isIntent) settles took.checked)

/-- A session with a design still has one after calls with answers. -/
theorem exists_intent_answerAll {intent : Intent} (isIntent : session.intent = some intent)
    (calls : List Answers) : ∃ after, (session.answerAll calls).intent = some after := by
  induction calls generalizing session intent with
  | nil => exact ⟨intent, isIntent⟩
  | cons answers rest ih =>
      rcases answer_cases session answers with same | ⟨_, _, _, _, _, took⟩
      · exact ih (same.symm ▸ isIntent)
      · exact ih took.intent_eq

/-- Calls with answers keep the design checked. -/
theorem HasChecked.answerAll (checked : session.HasChecked) (calls : List Answers) :
    (session.answerAll calls).HasChecked := by
  induction calls generalizing session with
  | nil => exact checked
  | cons answers rest ih => exact ih (checked.answer answers)

/-- Calls that do not move a layer alone keep its open flags what the checks say. -/
theorem HasStanding.answerAll (stands : session.HasStanding layerId)
    (checked : session.HasChecked) {calls : List Answers}
    (minds : session.AtEachCall (MindsSpacing layerId) calls) :
    (session.answerAll calls).HasStanding layerId := by
  induction calls generalizing session with
  | nil => exact stands
  | cons answers rest ih =>
      rcases minds with ⟨first, others⟩
      exact ih (stands.answer checked first) (checked.answer answers) others

/-- Offered answers leave the questions those about the design at hand. -/
theorem Standing.answer (standing : session.Standing) (sized : session.IsSized)
    (areOffered : answers.AreOffered session.questions) :
    (session.answer answers).1.IsSized ∧ (session.answer answers).1.Standing := by
  unfold Session.answer
  split
  · rename_i settled isSettled
    rcases answered_eq_ok_iff.mp isSettled with ⟨intent, isIntent, settles⟩
    have within := standing.within intent isIntent
    have listed := bringsListed_of_offered within.flags (standing.asked intent isIntent)
      areOffered.mem_offers
    rcases took_adopt sized (isWithin_settle within listed settles) with ⟨-, took⟩
    exact ⟨took.isSized sized, took.standing⟩
  · exact ⟨sized, standing⟩

/-- Calls with offered answers leave the questions those about the design at hand. -/
theorem Standing.answerAll (standing : session.Standing) (sized : session.IsSized)
    {calls : List Answers}
    (areOffered : session.AtEachCall (fun now answers => answers.AreOffered now.questions) calls) :
    (session.answerAll calls).Standing := by
  induction calls generalizing session with
  | nil => exact standing
  | cons answers rest ih =>
      rcases areOffered with ⟨first, others⟩
      obtain ⟨sizedNext, standingNext⟩ := standing.answer sized first
      exact ih standingNext sizedNext others

/-- A prompt leaves nothing open about spacing but what the checks say. -/
theorem hasChecked_parse (isNew : session.IsNew) (text : String) :
    (session.parse text).1.HasChecked ∧
      ∀ layerId, (session.parse text).1.HasStanding layerId := by
  have unchanged : session.HasChecked ∧ ∀ layerId, session.HasStanding layerId := by
    constructor
    · exact fun intent isIntent => absurd isIntent (isNew.intent_ne intent)
    · exact fun layerId intent isIntent => absurd isIntent (isNew.intent_ne intent)
  unfold parse
  split
  · rename_i design isUnderstood
    rcases adopt_cases session design with same | ⟨validation, took⟩
    · rw [same]
      exact unchanged
    · rcases bind_eq_ok_iff.mp isUnderstood with ⟨plain, parsed, shape⟩
      rw [pure_eq_ok_iff] at shape
      subst shape
      rcases Prompt.isInRun_parse parsed with ⟨apart, inRun⟩
      refine ⟨took.hasChecked apart inRun.once, ?_⟩
      intro layerId
      apply took.hasStanding
      intro flag mem isSpacing
      rcases (Prompt.parse_spec parsed).2.2 flag mem with
        ⟨_, _, leaves⟩ | ⟨_, _, _, conflict⟩
      · exact absurd isSpacing leaves.no_spacing
      · cases isSpacing.symm.trans conflict.kind_eq
  · exact unchanged

/-- In every state that a prompt and then any calls with answers lead to, the design can be
checked, and a flag is open for the spacing of each layer for which the checks raise one.  The
open flags about the spacing of a layer are exactly those that the checks raise, with the same
choices, if no call moved the layer to another zone while a flag about its spacing was open,
unless it settled its spacing too.  And on a roofline whose lights can be counted, after offered
answers, the open questions are those about the open flags. -/
theorem open_spacing_iff_raised (isNew : session.IsNew) (text : String) (calls : List Answers)
    {intent : Intent} (isDesign : ((session.parse text).1.answerAll calls).intent = some intent) :
    ∃ validation, ((session.parse text).1.answerAll calls).validate = .ok validation ∧
      (∀ raised ∈ validation.flags, ∃ flag ∈ intent.ambiguities,
        flag.kind = .spacingImpossible ∧ flag.layerId = raised.layerId) ∧
      (∀ layerId, (session.parse text).1.AtEachCall (MindsSpacing layerId) calls →
        ∀ flag : Ambiguity, flag.kind = .spacingImpossible → flag.layerId = layerId →
          (flag ∈ intent.ambiguities ↔ flag ∈ validation.flags)) ∧
      (session.IsSized →
        (session.parse text).1.AtEachCall (fun now answers => answers.AreOffered now.questions)
          calls →
        ask intent.ambiguities (((session.parse text).1.answerAll calls).subject intent) =
          .ok ((session.parse text).1.answerAll calls).questions) := by
  rcases hasChecked_parse isNew text with ⟨checkedStart, standsStart⟩
  have isChecked := checkedStart.answerAll calls intent isDesign
  rcases isChecked.exists_validation with ⟨validation, checked, covers⟩
  refine ⟨validation, ?_, ?_, ?_, ?_⟩
  · rw [validate, design, isDesign, ok_bind]
    exact checked
  · intro raised mem
    rcases covers raised mem with ⟨flag, flagMem, sameKind, sameLayer⟩
    rcases (Check.mem_flags_of_validate checked raised).mp mem with ⟨_, _, raises⟩
    exact ⟨flag, flagMem, sameKind.trans raises.kind_eq, sameLayer⟩
  · intro layerId minds flag isSpacing about
    have stands := (standsStart layerId).answerAll checkedStart minds intent isDesign
    exact isChecked.mem_iff stands checked isSpacing about
  · intro sized areOffered
    have prompted : (Operation.take (.prompt text)).IsWithin := trivial
    rcases isNew.standing.step sized prompted with ⟨sizedStart, standingStart⟩
    exact (standingStart.answerAll sizedStart areOffered).asked intent isDesign

/-! ## Peaks of which only the front is lit -/

/-- A gable at the front, and four more peaks. -/
def gableAndPeaks : Roofline :=
  { segments := Roofline.placeFrom 0 0 [
      { id := "gable", name := "Gable", pixelCount := 12, shape := .peak, side := some .front },
      { id := "p0", name := "Peak 0", pixelCount := 10, shape := .peak },
      { id := "p1", name := "Peak 1", pixelCount := 10, shape := .peak },
      { id := "p2", name := "Peak 2", pixelCount := 10, shape := .peak },
      { id := "p3", name := "Peak 3", pixelCount := 10, shape := .peak }] }

/-- A new session on the peaks, with the usual settings. -/
def peakSession : Session :=
  { roofline := gableAndPeaks }

/-- Seven lights, which do not fit all peaks together, but fit the gable. -/
def sevenOnPeaks : String :=
  "orange on the peaks, 7 equally spaced"

/-- Of the peaks only the front ones. -/
def frontOnly : Answers :=
  [("zone_0", .chosen "front_only")]

/-- Of the peaks only the front ones, and five lights. -/
def frontAndFive : Answers :=
  [("zone_0", .chosen "front_only"), ("spacing_1", .chosen "count_5")]

/-- A run of a session: the design of a prompt as it is taken in, what is asked about it, the
design as it is taken in with answers applied, what is asked then, and the checks of it. -/
structure Trial where
  checked : Intent
  questions : List Question
  reached : Intent
  openQuestions : List Question
  validation : Validation

/-- The run in which the zone is answered and the spacing is not, with the questions in the order
of their flags. -/
def frontTrial : Outcome Trial := do
  let design ← peakSession.understand sevenOnPeaks
  let checked ← peakSession.withRaised design
  let questions ← askFrom (peakSession.subject checked) 0 checked.ambiguities
  let settled ← checked.settle frontOnly questions
  let reached ← peakSession.withRaised settled
  let openQuestions ← askFrom (peakSession.subject reached) 0 reached.ambiguities
  let validation ← Check.validate reached gableAndPeaks peakSession.settings.checks
  return { checked, questions, reached, openQuestions, validation }

/-- What is seen of a run: the questions and which of them are answered with an option, the flags
that are left open, what is asked about them, and how many flags the checks raise. -/
structure Trial.View where
  asked : List (QuestionKind × Option String)
  answered : List Bool
  leftOpen : List (AmbiguityKind × Option String)
  askedThen : List QuestionKind
  raised : Nat
  deriving DecidableEq

def Trial.view (trial : Trial) : View where
  asked := trial.questions.map fun question => (question.kind, question.layerId)
  answered := trial.questions.map frontAndFive.giveOption
  leftOpen := trial.reached.ambiguities.map fun flag => (flag.kind, flag.layerId)
  askedThen := trial.openQuestions.map Question.kind
  raised := trial.validation.flags.length

theorem view_frontTrial : (frontTrial.map Trial.view).toOption = some
    { asked := [(.zone, some "layer_0"), (.spacing, some "layer_0")]
      answered := [true, true]
      leftOpen := [(.spacingImpossible, some "layer_0")]
      askedThen := [.spacing]
      raised := 0 } := by
  decide +kernel

/-- The session as it is with a design taken in and its questions asked. -/
def holding (session : Session) (intent : Intent) (questions : List Question) : Session :=
  { session with intent := some intent, questions := questions, last := none }

/-- A design is taken in with what is asked about it, where that comes in the order of asking. -/
theorem adopt_of_askFrom {design checked : Intent} {questions : List Question}
    (raises : session.withRaised design = .ok checked)
    (asked : askFrom (session.subject checked) 0 checked.ambiguities = .ok questions)
    (inOrder : (questions.map fun question => question.kind.priority).Pairwise (· ≤ ·)) :
    session.adopt design = (session.holding checked questions, .ok checked) := by
  have isAsked := ask_of_askFrom asked inOrder
  simp only [adopt, raises, isAsked, holding]

/-- Answers to what is asked about a design put the changed design in its place. -/
theorem answer_of_settle {intent settled : Intent} {questions : List Question}
    (settles : intent.settle answers questions = .ok settled) :
    (session.holding intent questions).answer answers =
      (session.holding intent questions).adopt settled := by
  rw [answer, answered_eq_ok_iff.mpr ⟨intent, rfl, settles⟩]

/-- The zone and the spacing of the one layer are asked about.  With the front alone chosen its
spacing is still open, and the checks raise nothing. -/
theorem exists_frontTrial :
    ∃ checked zone spacing reached left validation,
      peakSession.parse sevenOnPeaks =
        (peakSession.holding checked [zone, spacing], .ok checked) ∧
      spacing.kind = .spacing ∧ zone.layerId = spacing.layerId ∧
      frontAndFive.giveOption spacing = true ∧
      (peakSession.holding checked [zone, spacing]).answer frontOnly = (reached, .ok left) ∧
      reached.intent = some left ∧
      left.ambiguities.map (fun flag => (flag.kind, flag.layerId)) =
        [(.spacingImpossible, some "layer_0")] ∧
      reached.validate = .ok validation ∧ validation.flags = [] := by
  obtain ⟨trial, isTrial, fields⟩ := exists_ok_of_toOption view_frontTrial
  rcases bind_eq_ok_iff.mp isTrial with ⟨design, understood, rest⟩
  rcases bind_eq_ok_iff.mp rest with ⟨checked, raises, rest⟩
  rcases bind_eq_ok_iff.mp rest with ⟨questions, asked, rest⟩
  rcases bind_eq_ok_iff.mp rest with ⟨settled, settles, rest⟩
  rcases bind_eq_ok_iff.mp rest with ⟨left, raisesThen, rest⟩
  rcases bind_eq_ok_iff.mp rest with ⟨openQuestions, askedThen, rest⟩
  rcases bind_eq_ok_iff.mp rest with ⟨validation, validated, shape⟩
  rw [pure_eq_ok_iff] at shape
  subst shape
  simp only [Trial.view, Trial.View.mk.injEq] at fields
  rcases fields with ⟨kinds, answered, leftOpen, kindsThen, noneRaised⟩
  have two : questions.length = 2 := by
    have count := congrArg List.length kinds
    rwa [List.length_map] at count
  obtain ⟨zone, spacing, rfl⟩ := List.length_eq_two.mp two
  simp only [List.map_cons, List.map_nil, List.cons.injEq, Prod.mk.injEq, and_true] at kinds
  simp only [List.map_cons, List.map_nil, List.cons.injEq, and_true] at answered
  rcases kinds with ⟨⟨isZone, zoneLayer⟩, isSpacing, spacingLayer⟩
  have adopted := adopt_of_askFrom raises asked (by simp [isZone, QuestionKind.priority])
  have order : openQuestions.map (fun question => question.kind.priority) = [2] := by
    have told := congrArg (List.map QuestionKind.priority) kindsThen
    rwa [List.map_map] at told
  refine ⟨checked, zone, spacing, peakSession.holding left openQuestions, left, validation, ?_,
    isSpacing, zoneLayer.trans spacingLayer.symm, answered.2, ?_, rfl, leftOpen, validated,
    List.eq_nil_of_length_eq_zero noneRaised⟩
  · rw [parse, understood]
    exact adopted
  · rw [answer_of_settle settles]
    exact adopt_of_askFrom raisesThen askedThen (order ▸ List.pairwise_singleton _ _)

/-- With the front alone and five lights chosen at once, the open flags about spacing are those
that the checks raise, and the questions are those about the open flags. -/
theorem open_spacing_iff_raised_frontAndFive :
    peakSession.IsNew ∧ peakSession.IsSized ∧
      ∃ reached intent validation,
        (peakSession.parse sevenOnPeaks).1.answerAll [frontAndFive] = reached ∧
        reached.intent = some intent ∧ reached.validate = .ok validation ∧
        (∀ flag : Ambiguity, flag.kind = .spacingImpossible →
          (flag ∈ intent.ambiguities ↔ flag ∈ validation.flags)) ∧
        ask intent.ambiguities (reached.subject intent) = .ok reached.questions := by
  have isNew : peakSession.IsNew := ⟨rfl, rfl, rfl⟩
  have sized : peakSession.IsSized := ⟨by decide, CheckSettings.hasShares_usual⟩
  rcases exists_frontTrial with
    ⟨checked, zone, spacing, -, -, -, parsed, isSpacing, sameLayer, given, -⟩
  have start_eq : (peakSession.parse sevenOnPeaks).1 =
      peakSession.holding checked [zone, spacing] := congrArg Prod.fst parsed
  have minds : ∀ layerId,
      (peakSession.parse sevenOnPeaks).1.AtEachCall (MindsSpacing layerId) [frontAndFive] := by
    intro layerId
    refine ⟨?_, trivial⟩
    rw [start_eq]
    rintro _ _ _ ⟨question, mem, _, about, _⟩
    refine ⟨spacing, List.mem_cons_of_mem _ List.mem_cons_self, isSpacing, ?_, given⟩
    rcases List.mem_cons.mp mem with rfl | later
    · exact sameLayer.symm.trans about
    · rw [← List.mem_singleton.mp later]
      exact about
  have areOffered : (peakSession.parse sevenOnPeaks).1.AtEachCall
      (fun now answers => answers.AreOffered now.questions) [frontAndFive] := by
    refine ⟨?_, trivial⟩
    apply Answers.areOffered_of_chosen
    simp [frontAndFive]
  have isIntent : (peakSession.parse sevenOnPeaks).1.intent = some checked := by
    rw [start_eq, holding]
  obtain ⟨intent, isDesign⟩ := exists_intent_answerAll isIntent [frontAndFive]
  rcases open_spacing_iff_raised isNew sevenOnPeaks [frontAndFive] isDesign with
    ⟨validation, isValidation, -, sameFlags, sameQuestions⟩
  refine ⟨isNew, sized, _, intent, validation, rfl, isDesign, isValidation, ?_,
    sameQuestions sized areOffered⟩
  intro flag flagSpacing
  exact sameFlags flag.layerId (minds flag.layerId) flag flagSpacing rfl

/-- Seven lights do not fit all peaks together, which leaves their spacing open.  They fit the
gable; but after the front alone is chosen the flag is still open, while the checks raise none. -/
theorem open_spacing_outlives_its_zone :
    peakSession.IsNew ∧
      ∃ start checked reached left,
        peakSession.parse sevenOnPeaks = (start, .ok checked) ∧
        frontOnly.AreOffered start.questions ∧
        start.answer frontOnly = (reached, .ok left) ∧ reached.intent = some left ∧
        (∃ flag ∈ left.ambiguities, flag.kind = .spacingImpossible ∧
          flag.layerId = some "layer_0") ∧
        ∃ validation, reached.validate = .ok validation ∧ validation.flags = [] := by
  rcases exists_frontTrial with
    ⟨checked, zone, spacing, reached, left, validation, parsed, -, -, -, answered, isReached,
      leftOpen, validated, noneRaised⟩
  refine ⟨⟨rfl, rfl, rfl⟩, _, checked, reached, left, parsed, ?_, answered, isReached, ?_,
    validation, validated, noneRaised⟩
  · apply Answers.areOffered_of_chosen
    simp [frontOnly]
  · have inside : (AmbiguityKind.spacingImpossible, some "layer_0") ∈
        left.ambiguities.map fun flag => (flag.kind, flag.layerId) :=
      leftOpen ▸ List.mem_singleton_self _
    rcases List.mem_map.mp inside with ⟨flag, mem, shape⟩
    rw [Prod.mk.injEq] at shape
    exact ⟨flag, mem, shape⟩

end Session

end Eaves
