import Eaves.Proofs.Pixels.Composition
import Eaves.Session.Show

/-!
# A design in every form of payload

The form a session composes its design in decides on the payload and on nothing else:
the groups and the warnings are the same in every form.  Left to itself the composition
runs an effect where the motion that leads the design has one, and lists every light
otherwise, so its payload is always that of one of the other two forms.

The payload of an effect is put together in two places, from motions that are looked
for separately.  What both look for is said here without a search: the motion of an
enabled layer that has no moving enabled layer in front of it.
-/

namespace Eaves

/-! ## The leading motion -/

/-- The motion leads the design: it is that of an enabled layer, and no enabled layer in front of
that one moves. -/
def Intent.LedBy (intent : Intent) (motion : Motion) : Prop :=
  ∃ before layer after, intent.layers = before ++ layer :: after ∧ layer.enabled = true ∧
    layer.motion = some motion ∧
    ∀ earlier ∈ before, earlier.enabled = true → earlier.motion = none

/-- The motion that leads the design runs an effect on the controller. -/
def Intent.RunsEffect (intent : Intent) : Prop :=
  ∃ motion, intent.LedBy motion ∧ 0 < motion.effectId

namespace Composition

/-- The motion of a layer, if the layer is painted. -/
def paintedMotion (layer : Layer) : Option Motion :=
  if layer.enabled then layer.motion else none

theorem paintedMotion_eq_some_iff {layer : Layer} {motion : Motion} :
    paintedMotion layer = some motion ↔ layer.enabled = true ∧ layer.motion = some motion := by
  simp [paintedMotion]

theorem paintedMotion_eq_none_iff {layer : Layer} :
    paintedMotion layer = none ↔ (layer.enabled = true → layer.motion = none) := by
  simp [paintedMotion]

theorem leadingMotion_eq_findSome? (intent : Intent) :
    leadingMotion intent = intent.layers.findSome? paintedMotion := by
  unfold leadingMotion Intent.enabledLayers
  induction intent.layers with
  | nil => rfl
  | cons layer rest ih =>
      rw [List.findSome?_cons, ← ih]
      by_cases on : layer.enabled
      · rw [List.filter_cons_of_pos on, List.findSome?_cons, paintedMotion, if_pos on]
      · rw [List.filter_cons_of_neg on, paintedMotion, if_neg on]

/-- The motion that is found first is the one that leads the design. -/
theorem leadingMotion_eq_some_iff {intent : Intent} {motion : Motion} :
    leadingMotion intent = some motion ↔ intent.LedBy motion := by
  rw [leadingMotion_eq_findSome?, List.findSome?_eq_some_iff]
  simp only [paintedMotion_eq_some_iff, paintedMotion_eq_none_iff, and_assoc]
  rfl

/-! ## The payload left to the composition -/

/-- Where the leading motion runs an effect, the composition writes the payload that the form of
an effect writes. -/
theorem payloadFor_of_runsEffect {intent : Intent} (runs : intent.RunsEffect)
    (groups : List Group) (total : Nat) (rgbw : Bool) :
    payloadFor groups intent (leadingMotion intent) total rgbw =
      effectPayload groups intent.settings (leadingRun intent) total rgbw := by
  rcases runs with ⟨motion, leads, moving⟩
  simp only [leadingRun, leadingMotion_eq_some_iff.mpr leads, payloadFor, if_pos moving]

/-- Where no effect is run, the composition writes the payload that ignores motions. -/
theorem payloadFor_of_not_runsEffect {intent : Intent} (still : ¬ intent.RunsEffect)
    (groups : List Group) (total : Nat) (rgbw : Bool) :
    payloadFor groups intent (leadingMotion intent) total rgbw =
      payloadFor groups intent none total rgbw := by
  cases leading : leadingMotion intent with
  | none => rfl
  | some motion =>
      have notMoving : ¬ 0 < motion.effectId := by
        intro moving
        exact still ⟨motion, leadingMotion_eq_some_iff.mp leading, moving⟩
      simp only [payloadFor, if_neg notMoving]

/-- A form replaces the payload, and leaves the groups, the warnings and the success alone. -/
theorem inForm_keeps (composition : Composition) (form : PayloadForm) (intent : Intent)
    (total : Nat) (rgbw : Bool) :
    (composition.inForm form intent total rgbw).success = composition.success ∧
      (composition.inForm form intent total rgbw).groups = composition.groups ∧
      (composition.inForm form intent total rgbw).warnings = composition.warnings := by
  unfold inForm
  split
  · split <;> exact ⟨rfl, rfl, rfl⟩
  · exact ⟨rfl, rfl, rfl⟩

/-- Of a composition that shows something, a form that is asked for gives its own payload. -/
theorem payload_inForm {composition : Composition} (shown : composition.success = true)
    {form : PayloadForm} {intent : Intent} {total : Nat} {rgbw : Bool} {payload : Payload}
    (asked : formed? form composition.groups intent total rgbw = some payload) :
    (composition.inForm form intent total rgbw).payload = some payload := by
  unfold inForm
  rw [if_pos shown, asked]

end Composition

namespace Session

/-! ## One composition after another -/

/-- The session after its design was composed in one form after another. -/
def composeEach (session : Session) (forms : List PayloadForm) : Session :=
  forms.foldl (fun session form => (session.compose form).1) session

/-- Composing leaves the design, the roofline and the settings alone. -/
theorem compose_keeps (session : Session) (form : PayloadForm) :
    (session.compose form).1.intent = session.intent ∧
      (session.compose form).1.roofline = session.roofline ∧
      (session.compose form).1.settings = session.settings := by
  unfold compose
  split <;> exact ⟨rfl, rfl, rfl⟩

theorem composeEach_keeps (session : Session) (forms : List PayloadForm) :
    (session.composeEach forms).intent = session.intent ∧
      (session.composeEach forms).roofline = session.roofline ∧
      (session.composeEach forms).settings = session.settings := by
  unfold composeEach
  induction forms generalizing session with
  | nil => exact ⟨rfl, rfl, rfl⟩
  | cons form rest ih =>
      obtain ⟨sameIntent, sameRoofline, sameSettings⟩ := compose_keeps session form
      obtain ⟨restIntent, restRoofline, restSettings⟩ := ih (session.compose form).1
      exact ⟨restIntent.trans sameIntent, restRoofline.trans sameRoofline,
        restSettings.trans sameSettings⟩

/-- What composing gives depends on the form and the design alone, not on the compositions
before. -/
theorem compose_composeEach {session : Session} {intent : Intent}
    (isDesign : session.intent = some intent) {result : Composition}
    (composed : Composition.compose intent session.roofline session.settings.device.rgbw =
      .ok result) (earlier : List PayloadForm) (form : PayloadForm) :
    ((session.composeEach earlier).compose form).2 =
      .ok (result.inForm form intent session.roofline.total session.settings.device.rgbw) := by
  obtain ⟨sameIntent, sameRoofline, sameSettings⟩ := composeEach_keeps session earlier
  have design : (session.composeEach earlier).composed form =
      .ok (result.inForm form intent session.roofline.total session.settings.device.rgbw) := by
    unfold Session.composed Session.design
    rw [sameIntent, sameRoofline, sameSettings, isDesign]
    simp only [Outcome.ok_bind, composed]
    rfl
  rw [compose, design]

/-- A design that composes is composed in every form, whatever forms it was composed in before,
and every form shows the same groups with the same warnings.  The payload left to the composition
is that of the effect where the motion of the first enabled layer that moves runs an effect, and
that of every light otherwise. -/
theorem forms_share_groups_and_payloads {session : Session} {intent : Intent}
    (isDesign : session.intent = some intent) {result : Composition}
    (composed : Composition.compose intent session.roofline session.settings.device.rgbw =
      .ok result) (shown : result.success = true) :
    ∃ auto individual segment : Composition,
      (∀ earlier : List PayloadForm,
        ((session.composeEach earlier).compose .auto).2 = .ok auto ∧
        ((session.composeEach earlier).compose .individual).2 = .ok individual ∧
        ((session.composeEach earlier).compose .segment).2 = .ok segment) ∧
      (auto.success = true ∧ individual.success = true ∧ segment.success = true) ∧
      (individual.groups = auto.groups ∧ segment.groups = auto.groups) ∧
      (individual.warnings = auto.warnings ∧ segment.warnings = auto.warnings) ∧
      (auto.payload.isSome ∧ individual.payload.isSome ∧ segment.payload.isSome) ∧
      (intent.RunsEffect → auto.payload = segment.payload) ∧
      (¬ intent.RunsEffect → auto.payload = individual.payload) := by
  have each := fun earlier => compose_composeEach isDesign composed earlier
  have written : result.payload = some (Composition.payloadFor result.groups intent
      (Composition.leadingMotion intent) session.roofline.total
      session.settings.device.rgbw) := by
    rcases Composition.compose_cases composed with
      ⟨refused, -, -⟩ | ⟨work, -, -, -, -, shape⟩
    · rw [refused] at shown
      cases shown
    · rw [shape]
  generalize session.settings.device.rgbw = rgbw at *
  generalize session.roofline.total = total at *
  have auto : result.inForm .auto intent total rgbw = result := by
    unfold Composition.inForm Composition.formed?
    split <;> rfl
  have individualPayload : (result.inForm .individual intent total rgbw).payload = some _ :=
    Composition.payload_inForm shown rfl
  have segmentPayload : (result.inForm .segment intent total rgbw).payload = some _ :=
    Composition.payload_inForm shown rfl
  obtain ⟨individualShown, individualGroups, individualWarnings⟩ :=
    result.inForm_keeps .individual intent total rgbw
  obtain ⟨segmentShown, segmentGroups, segmentWarnings⟩ :=
    result.inForm_keeps .segment intent total rgbw
  refine ⟨result, result.inForm .individual intent total rgbw,
    result.inForm .segment intent total rgbw, ?_, ⟨shown, individualShown.trans shown,
    segmentShown.trans shown⟩, ⟨individualGroups, segmentGroups⟩,
    ⟨individualWarnings, segmentWarnings⟩, ?_, ?_, ?_⟩
  · intro earlier
    refine ⟨?_, each earlier .individual, each earlier .segment⟩
    rw [each earlier .auto, auto]
  · rw [written, individualPayload, segmentPayload]
    exact ⟨rfl, rfl, rfl⟩
  · intro runs
    rw [written, segmentPayload, Composition.payloadFor_of_runsEffect runs]
  · intro still
    rw [written, individualPayload, Composition.payloadFor_of_not_runsEffect still]

/-- Three layers: the first is switched off, and the second moves by the effect, if any. -/
def moving (effect : Option Effect) : Intent :=
  { layers := [
      { id := "a", name := "off", motion := some { effect := some .colorwaves },
        enabled := false },
      { id := "b", name := "front", motion := some { effect := effect } },
      { id := "c", name := "back", motion := some { effect := some .chase }, priority := 1 }] }

/-- A session with these layers on an eave and a peak. -/
def movingOnEave (effect : Option Effect) : Session :=
  { roofline := Composition.eaveAndPeak, intent := some (moving effect) }

theorem leadingMotion_moving (effect : Option Effect) :
    Composition.leadingMotion (moving effect) = some { effect := effect } :=
  rfl

/-- Twinkling leads past the layer that is off.  A motion without an effect leads as well, and so
the chase behind it is not run. -/
theorem forms_share_groups_and_payloads_leading :
    (∃ auto segment : Composition,
      ((movingOnEave (some .twinkle)).compose .auto).2 = .ok auto ∧
      ((movingOnEave (some .twinkle)).compose .segment).2 = .ok segment ∧
      auto.payload = segment.payload) ∧
    ∃ auto individual : Composition,
      ((movingOnEave none).compose .auto).2 = .ok auto ∧
      ((movingOnEave none).compose .individual).2 = .ok individual ∧
      auto.payload = individual.payload := by
  have twinkles : ((Composition.compose (moving (some .twinkle)) Composition.eaveAndPeak false).map
      Composition.success).toOption = some true := by
    simp only [Composition.compose, Composition.paintAll,
      Composition.paintingOrder_eq_insertionSort]
    decide +kernel
  have stands : ((Composition.compose (moving none) Composition.eaveAndPeak false).map
      Composition.success).toOption = some true := by
    simp only [Composition.compose, Composition.paintAll,
      Composition.paintingOrder_eq_insertionSort]
    decide +kernel
  constructor
  · rcases Outcome.exists_ok_of_toOption twinkles with ⟨result, composed, shown⟩
    obtain ⟨auto, individual, segment, each, -, -, -, -, runs, -⟩ :=
      forms_share_groups_and_payloads
        (show (movingOnEave (some .twinkle)).intent = some (moving (some .twinkle)) from rfl)
        composed shown
    obtain ⟨isAuto, -, isSegment⟩ := each []
    have leads := Composition.leadingMotion_eq_some_iff.mp (leadingMotion_moving (some .twinkle))
    exact ⟨auto, segment, isAuto, isSegment, runs ⟨_, leads, by decide⟩⟩
  · rcases Outcome.exists_ok_of_toOption stands with ⟨result, composed, shown⟩
    obtain ⟨auto, individual, segment, each, -, -, -, -, -, still⟩ :=
      forms_share_groups_and_payloads
        (show (movingOnEave none).intent = some (moving none) from rfl) composed shown
    obtain ⟨isAuto, isIndividual, -⟩ := each []
    refine ⟨auto, individual, isAuto, isIndividual, still ?_⟩
    rintro ⟨motion, leads, runs⟩
    have leading := Composition.leadingMotion_eq_some_iff.mpr leads
    rw [leadingMotion_moving] at leading
    cases leading
    exact absurd runs (by decide)

end Session

end Eaves
