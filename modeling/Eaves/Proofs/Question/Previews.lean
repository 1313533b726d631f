import Eaves.Pixels.Compose
import Eaves.Proofs.Device.Listing
import Eaves.Proofs.Pixels.Moved
import Eaves.Proofs.Question.Offers

/-!
# What is previewed is what is painted

A spacing rule is previewed on a strip of its own, as long as the layer it is asked
about, and painted on the roofline, where the layer's range starts anywhere.  Both are
sent as one flat list of lights.  Where a layer covers a single range the lists differ
only in where they start, and the options of its spacing question are previewed with
its colours and with as many lights as it covers.

A rule about anchors is left out: a strip of its own has none.
-/

namespace Eaves

open Number (Binary64)
open Outcome

namespace Payload

/-- A flat list of lights, each an index and three levels, with every index `offset` further on. -/
def moveLights (offset : Nat) : List Int → List Int
  | index :: red :: green :: blue :: rest =>
      (offset + index) :: red :: green :: blue :: moveLights offset rest
  | rest => rest

theorem moveLights_flatMap (offset : Nat) (listed : List (Nat × Color)) :
    moveLights offset (listed.flatMap fun light => (light.1 : Int) :: channels false light.2) =
      (listed.map fun light => (offset + light.1, light.2)).flatMap fun light =>
        (light.1 : Int) :: channels false light.2 := by
  induction listed with
  | nil => rfl
  | cons light rest ih =>
      rw [List.map_cons, List.flatMap_cons, List.flatMap_cons, ← ih, Nat.cast_add]
      rfl

end Payload

/-- A layer with a spacing rule in force. -/
def Layer.spacedBy (layer : Layer) (rule : Spacing) : Layer :=
  { layer with coloring := { layer.coloring with spacing := some rule } }

section OneRange

variable {layer : Layer} {roofline : Roofline} {range : PixelRange}

/-- Over a single range, a layer is painted as its rule is. -/
theorem Layer.paint_spacedBy (covers : layer.zone.ranges roofline = [range]) (rule : Spacing) :
    (layer.spacedBy rule).paint roofline =
      rule.paint Binary64 .blank range layer.coloring (some roofline) := by
  have sameZone : (layer.spacedBy rule).zone = layer.zone := rfl
  have sameColors : rule.paint Binary64 .blank range (layer.spacedBy rule).coloring
      (some roofline) = rule.paint Binary64 .blank range layer.coloring (some roofline) := by
    cases rule <;> rfl
  rw [Layer.paint, sameZone, covers, List.foldlM_cons]
  exact (bind_pure _).trans sameColors

/-- On a strip as long as the range, a preview lists the lights the layer gets, as many lights
further on as the range starts. -/
theorem lights_paint_eq (covers : layer.zone.ranges roofline = [range]) {rule : Spacing}
    (noAnchors : rule ≠ .anchorsOnly) (settings : SceneSettings) (brightness : Int) :
    ((layer.spacedBy rule).paint roofline).map (fun canvas =>
        (Composition.individualPayload canvas.groups settings roofline.total false).lights) =
      (Preview.ofSpacing rule layer.coloring range.length brightness).map fun shown =>
        Payload.moveLights range.first shown.lights := by
  have lit : ¬ (range.length : Int) ≤ 0 := by
    have : 0 < range.length := Nat.succ_pos _
    omega
  have sameStrip : (⟨0, (range.length : Int).toNat - 1, Nat.zero_le _⟩ : PixelRange) =
      Spacing.ownStrip range := rfl
  have agree := Spacing.toList_paint noAnchors range layer.coloring (some roofline) none
  rw [Layer.paint_spacedBy covers, Preview.ofSpacing, if_neg lit, sameStrip]
  generalize rule.paint Binary64 .blank range layer.coloring (some roofline) = here at agree ⊢
  generalize rule.paint Binary64 .blank (Spacing.ownStrip range) layer.coloring none = there
    at agree ⊢
  cases here with
  | error failure =>
      cases there with
      | error other =>
          cases agree
          rfl
      | ok strip => cases agree
  | ok painted =>
      cases there with
      | error other => cases agree
      | ok strip =>
          have listed := Except.ok.inj agree
          apply congrArg Except.ok
          calc Payload.flatten painted.groups false
              = painted.toList.flatMap fun light =>
                  (light.1 : Int) :: Payload.channels false light.2 :=
                Payload.flatten_groups painted false
            _ = Payload.moveLights range.first (strip.toList.flatMap fun light =>
                  (light.1 : Int) :: Payload.channels false light.2) := by
                rw [listed, Payload.moveLights_flatMap]
            _ = Payload.moveLights range.first (Payload.flatten strip.groups false) := by
                rw [Payload.flatten_groups]

/-- An option that carries a rule is previewed as that rule. -/
theorem preview_of_spacingOffer {coloring : Coloring} {n brightness : Int} {choice : Choice}
    {offer : Offer} {rule : Spacing}
    (offered : spacingOffer coloring n brightness choice = .ok offer)
    (carries : offer.value = .spacing rule) :
    ∃ shown, Preview.ofSpacing rule coloring n brightness = .ok shown ∧
      offer.preview = some shown.toEntries := by
  rw [(standsFor_of_spacingOffer offered).value_eq] at carries
  simp only [spacingOffer, carries] at offered
  rcases bind_eq_ok_iff.mp offered with ⟨shown, isShown, rest⟩
  rw [pure_eq_ok_iff] at rest
  exact ⟨shown, isShown, rest ▸ rfl⟩

/-- An option of the spacing question about a layer is previewed with the layer's colours on as
many lights as it covers. -/
theorem previews_of_askOne (covers : layer.zone.ranges roofline = [range]) {intent : Intent}
    {settings : CheckSettings} {position : Nat} {flag : Ambiguity} {question : Question}
    (asked : askOne ⟨intent, some roofline, settings⟩ position flag = .ok question)
    (isSpacing : question.kind = .spacing) (about : intent.layer? question.layerId = some layer) :
    ("pixel_count", Value.int range.length) ∈ question.context ∧
      ∀ offer ∈ question.offers, ∀ rule, offer.value = .spacing rule →
        ∃ shown, Preview.ofSpacing rule layer.coloring range.length
            intent.settings.brightness.toInt = .ok shown ∧
          offer.preview = some shown.toEntries := by
  rcases askOne_eq_ok_iff.mp asked with ⟨wording, offers, n, worded, counted, rfl⟩
  have kind_eq : flag.kind = .spacingImpossible := by
    generalize flag.kind = kind at isSpacing
    cases kind <;> first | rfl | cases isSpacing
  have count_eq : Subject.pixelCount ⟨intent, some roofline, settings⟩ flag.layerId =
      .ok range.length := by
    have found : intent.layer? flag.layerId = some layer := about
    have lit : layer.zone.ranges roofline ≠ [] := by simp [covers]
    have isSum := Zone.pixelCount_eq_sum lit settings
    rw [covers] at isSum
    simp only [Subject.pixelCount, found]
    exact isSum
  have n_eq : n = range.length := by
    rw [count_eq] at counted
    exact (Except.ok.inj counted).symm
  subst n_eq
  refine ⟨by simp, ?_⟩
  intro offer mem rule carries
  simp only [wordingAndOffers, kind_eq] at worded
  rcases map_eq_ok_iff.mp worded with ⟨offered, isOffered, shape⟩
  cases shape
  rcases bind_eq_ok_iff.mp isOffered with ⟨lights, sameCount, rest⟩
  rcases bind_eq_ok_iff.mp rest with ⟨own, isOwn, last⟩
  rw [pure_eq_ok_iff] at last
  subst last
  have lights_eq : lights = range.length := by
    rw [count_eq] at sameCount
    exact (Except.ok.inj sameCount).symm
  have coloring_eq : ((intent.layer? flag.layerId).map Layer.coloring).getD {} =
      layer.coloring := by
    have found : intent.layer? flag.layerId = some layer := about
    rw [found]
    rfl
  simp only [lights_eq, coloring_eq] at isOwn
  rcases Offer.mem_of_mem_withLast (List.mem_of_mem_take mem) with there | rfl
  · rcases exists_mem_of_mapM isOwn there with ⟨choice, -, shown⟩
    exact preview_of_spacingOffer shown carries
  · cases carries

/-- Where a layer covers a single range, a rule that is not about anchors is previewed as it is
painted, only that the preview starts at zero; both succeed where the rule and the range are far
below the greatest finite number.  The options of a spacing question about the layer that carry a
rule show it with the layer's colours on as many lights as it covers. -/
theorem previews_are_painted (covers : layer.zone.ranges roofline = [range]) :
    (∀ rule, rule ≠ .anchorsOnly → ∀ (settings : SceneSettings) (brightness : Int),
      ((layer.spacedBy rule).paint roofline).map (fun canvas =>
          (Composition.individualPayload canvas.groups settings roofline.total false).lights) =
        (Preview.ofSpacing rule layer.coloring range.length brightness).map fun shown =>
          Payload.moveLights range.first shown.lights) ∧
    (∀ rule : Spacing, rule.SpreadsBelow (2 ^ 120) → range.length < 2 ^ 120 →
      ∃ canvas, (layer.spacedBy rule).paint roofline = .ok canvas) ∧
    ∀ (intent : Intent) (settings : CheckSettings) (flags : List Ambiguity)
      (questions : List Question), ask flags ⟨intent, some roofline, settings⟩ = .ok questions →
      ∀ question ∈ questions, question.kind = .spacing →
        intent.layer? question.layerId = some layer →
        ("pixel_count", Value.int range.length) ∈ question.context ∧
          ∀ offer ∈ question.offers, ∀ rule, offer.value = .spacing rule →
            ∃ shown, Preview.ofSpacing rule layer.coloring range.length
                intent.settings.brightness.toInt = .ok shown ∧
              offer.preview = some shown.toEntries := by
  refine ⟨?_, ?_, ?_⟩
  · intro rule noAnchors settings brightness
    exact lights_paint_eq covers noAnchors settings brightness
  · intro rule below short
    rw [Layer.paint_spacedBy covers]
    exact Spacing.paint_succeeds below .blank short layer.coloring (some roofline)
  · intro intent settings flags questions asked question mem isSpacing about
    rcases exists_flag_of_mem_ask asked mem with ⟨flag, position, -, askedOne⟩
    exact previews_of_askOne covers askedOne isSpacing about

end OneRange

/-- A run of six lights and then a peak of four. -/
def runThenPeak : Roofline :=
  { segments := [
      { id := "run", name := "Run", pixelCount := 6 },
      { id := "peak", name := "Peak", pixelCount := 4, startPixel := 6, sortOrder := 1,
        shape := .peak }] }

/-- A layer on the peak, with dark lights in blue. -/
def peakLayer : Layer :=
  { id := "layer_0", name := "peak", zone := .features (.singleton .peak),
    coloring := { fill := some ⟨0, 0, 255, 0⟩ } }

/-- The flag that no spacing of the peak fits, with two rules to choose from. -/
def peakSpacing : Ambiguity :=
  { kind := .spacingImpossible, description := "", sourceClause := "", layerId := some "layer_0",
    choices := [
      { id := "third", label := "Every third", value := .spacing (.everyNth 3) },
      { id := "two", label := "Two", value := .spacing (.equallySpaced 2) }] }

/-- Two spread lights on the peak of four are shown as its first and its last one, the lights
between them in blue. -/
theorem previews_are_painted_runThenPeak :
    peakLayer.zone.ranges runThenPeak = [⟨6, 9, by decide⟩] ∧
      ((Preview.ofSpacing (.equallySpaced 2) peakLayer.coloring 4 128).map fun shown =>
          Payload.moveLights 6 shown.lights).toOption =
        some [6, 255, 255, 255, 7, 0, 0, 255, 8, 0, 0, 255, 9, 255, 255, 255] ∧
      ∃ questions, ask [peakSpacing] ⟨{ layers := [peakLayer] }, some runThenPeak, {}⟩ =
          .ok questions ∧
        ∃ question ∈ questions, ("pixel_count", Value.int 4) ∈ question.context := by
  have covers : peakLayer.zone.ranges runThenPeak = [⟨6, 9, by decide⟩] := by decide
  obtain ⟨same, -, shown⟩ := previews_are_painted covers
  have view : ((ask [peakSpacing] ⟨{ layers := [peakLayer] }, some runThenPeak, {}⟩).map
      List.length).toOption = some 1 := by decide +kernel
  obtain ⟨questions, asked, -⟩ := Outcome.exists_ok_of_toOption view
  have there : [peakSpacing][0]? = some peakSpacing := rfl
  obtain ⟨question, mem, askedOne⟩ := exists_askOne asked there
  have about := isAbout_of_askOne askedOne
  have named : Intent.layer? { layers := [peakLayer] } question.layerId = some peakLayer := by
    rw [about.layerId_eq]
    decide
  refine ⟨covers, ?_, questions, asked, question, mem, ?_⟩
  · have painted : ∀ canvas : Canvas,
        (Composition.individualPayload canvas.groups {} runThenPeak.total false).lights =
          canvas.toList.flatMap fun light =>
            (light.1 : Int) :: Payload.channels false light.2 := fun canvas =>
      Payload.flatten_groups canvas false
    have previewed := same (.equallySpaced 2) (by decide) {} 128
    simp only [painted] at previewed
    exact (congrArg Except.toOption previewed).symm.trans (by decide +kernel)
  · exact (shown _ {} _ _ asked question mem about.kind_eq named).1

end Eaves
