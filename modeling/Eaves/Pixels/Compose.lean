import Eaves.Design.Intent
import Eaves.Device.Payload
import Eaves.Pixels.Patterned
import Eaves.Pixels.Spaced
import Eaves.Zone.Resolve

/-!
# Composition

A design with nothing left open is painted layer by layer, in order of priority
and, where priorities are equal, of position, so later layers cover earlier ones.
The canvas is written as groups, and the groups as a payload: an effect when the
first layer that moves has one, every light otherwise.  A design that cannot be
shown is a result with an error, not a failure.
-/

namespace Eaves

open Number (Binary64)

/-- What composing a design gives. -/
structure Composition where
  success : Bool
  groups : List Group := []
  payload : Option Payload := none
  warnings : List String := []
  error : Option String := none
  suggestions : List String := []
  recommendManual : Bool := false
  deriving DecidableEq, Repr

/-- The canvas of one layer on a roofline. -/
def Layer.paint (layer : Layer) (roofline : Roofline) : Outcome Canvas :=
  (layer.zone.ranges roofline).foldlM
    (fun canvas range =>
      match layer.coloring.spacing with
      | some rule => rule.paint Binary64 canvas range layer.coloring (some roofline)
      | none => layer.pattern.paint Binary64 canvas range layer.coloring)
    Canvas.blank

namespace Composition

/-- The result of a design that cannot be shown. -/
def refused (error : String) (suggestions warnings : List String) (recommendManual : Bool) :
    Composition :=
  ⟨false, [], none, warnings, some error, suggestions, recommendManual⟩

/-- Layers in the order of painting: by priority, those of equal priority by position. -/
def paintingOrder (layers : List Layer) : List Layer :=
  layers.mergeSort fun a b => decide (a.priority ≤ b.priority)

/-- A canvas under work: what is painted, how many layers lit something, and the warnings. -/
structure Work where
  canvas : Canvas := .blank
  painted : Nat := 0
  warnings : List String := []

/-- The warning of a layer that lights nothing. -/
def unlitWarning (layer : Layer) : String :=
  "Layer \"" ++ layer.name ++ "\" produced no LED assignments"

/-- Paints one more layer over the work. -/
def paintLayer (roofline : Roofline) (work : Work) (layer : Layer) : Outcome Work := do
  let canvas := (← layer.paint roofline).below roofline.total
  if canvas.isEmpty then
    return { work with warnings := work.warnings ++ [unlitWarning layer] }
  else
    return { work with canvas := canvas.onTopOf work.canvas, painted := work.painted + 1 }

/-- Paints every enabled layer, in painting order. -/
def paintAll (intent : Intent) (roofline : Roofline) : Outcome Work :=
  (paintingOrder intent.enabledLayers).foldlM (paintLayer roofline) {}

/-- The motion of the first enabled layer that has one. -/
def leadingMotion (intent : Intent) : Option Motion :=
  intent.enabledLayers.findSome? Layer.motion

/-- The payload that lists every light. -/
def individualPayload (groups : List Group) (settings : SceneSettings) (total : Nat)
    (rgbw : Bool) : Payload :=
  .individual groups settings.brightness.toInt (some total) 0 (some settings.transition) rgbw

/-- The payload that runs an effect. -/
def effectPayload (groups : List Group) (settings : SceneSettings) (run : Payload.EffectRun)
    (total : Nat) (rgbw : Bool) : Payload :=
  .effect groups settings.brightness.toInt run (some total) 0 (some settings.transition) rgbw

/-- How a motion's effect is run. -/
def runOf (motion : Motion) : Payload.EffectRun :=
  ⟨motion.effectId, motion.speed.toInt, motion.intensity.toInt, some motion.reverse⟩

/-- The payload for groups: an effect when a motion has one, every light otherwise. -/
def payloadFor (groups : List Group) (intent : Intent) (motion : Option Motion) (total : Nat)
    (rgbw : Bool) : Payload :=
  match motion with
  | some motion =>
      if 0 < motion.effectId then effectPayload groups intent.settings (runOf motion) total rgbw
      else individualPayload groups intent.settings total rgbw
  | none => individualPayload groups intent.settings total rgbw

/-- Composes a design on a roofline. -/
def compose (intent : Intent) (roofline : Roofline) (rgbw : Bool) : Outcome Composition :=
  if !intent.ambiguities.isEmpty then
    .ok (refused "Design intent has unresolved ambiguities"
      ["Resolve clarification questions first"] [] true)
  else if intent.layers.isEmpty then
    .ok (refused "No design layers specified" ["Add at least one layer to your design"] [] false)
  else do
    let work ← paintAll intent roofline
    if work.painted = 0 then
      return refused "No layers produced LED assignments"
        ["Check that zones match your roofline configuration"] work.warnings false
    else
      let groups := work.canvas.groups
      let payload := payloadFor groups intent (leadingMotion intent) roofline.total rgbw
      return ⟨true, groups, some payload, work.warnings, none, [], false⟩

end Composition

end Eaves
