import Eaves.Bounds
import Eaves.Failure

/-!
# Motion and device effects

A layer may move.  Its motion is of one kind, has a direction, and is rendered by
an effect that the controller knows under a number.
-/

namespace Eaves

/-- How a layer moves. -/
inductive MotionKind where
  | none
  | chase
  | wave
  | flow
  | pulse
  | twinkle
  | scan
  deriving DecidableEq, Repr

instance : Vocabulary MotionKind where
  title := "MotionType"
  members := [.none, .chase, .wave, .flow, .pulse, .twinkle, .scan]
  word
    | .none => "none"
    | .chase => "chase"
    | .wave => "wave"
    | .flow => "flow"
    | .pulse => "pulse"
    | .twinkle => "twinkle"
    | .scan => "scan"

/-- Where a moving layer travels. -/
inductive Direction where
  | leftToRight
  | rightToLeft
  | inward
  | outward
  | upward
  | downward
  | clockwise
  | counterClockwise
  deriving DecidableEq, Repr

instance : Vocabulary Direction where
  title := "MotionDirection"
  members := [.leftToRight, .rightToLeft, .inward, .outward, .upward, .downward, .clockwise,
    .counterClockwise]
  word
    | .leftToRight => "left_to_right"
    | .rightToLeft => "right_to_left"
    | .inward => "inward"
    | .outward => "outward"
    | .upward => "upward"
    | .downward => "downward"
    | .clockwise => "clockwise"
    | .counterClockwise => "counter_clockwise"

/-- A direction in words. -/
def Direction.label (direction : Direction) : String :=
  String.ofList ((Vocabulary.word direction).toList.map fun c => if c = '_' then ' ' else c)

/-- Whether the strip has to run backwards. -/
def Direction.reversesStrip (direction : Direction) : Bool :=
  direction == .rightToLeft

/-- Named speeds. -/
inductive SpeedPreset where
  | slow
  | medium
  | fast
  | veryFast
  deriving DecidableEq, Repr

instance : Vocabulary SpeedPreset where
  title := "SpeedLevel"
  members := [.slow, .medium, .fast, .veryFast]
  word
    | .slow => "slow"
    | .medium => "medium"
    | .fast => "fast"
    | .veryFast => "very_fast"

/-- The device speed of a named one. -/
def SpeedPreset.level : SpeedPreset → Level
  | .slow => 64
  | .medium => 128
  | .fast => 192
  | .veryFast => 240

/-- The families effects are grouped in. -/
inductive EffectFamily where
  | basic
  | wipe
  | chase
  | scanner
  | sparkle
  | rainbow
  | ambient
  deriving DecidableEq, Repr

instance : Vocabulary EffectFamily where
  title := "EffectCategory"
  members := [.basic, .wipe, .chase, .scanner, .sparkle, .rainbow, .ambient]
  word
    | .basic => "basic"
    | .wipe => "wipe"
    | .chase => "chase"
    | .scanner => "scanner"
    | .sparkle => "sparkle"
    | .rainbow => "rainbow"
    | .ambient => "ambient"

/-- The effects a controller can run. -/
inductive Effect where
  | solid
  | blink
  | breathe
  | wipe
  | sweep
  | rainbow
  | scan
  | fade
  | theater
  | running
  | twinkle
  | sparkle
  | chase
  | lighthouse
  | gradient
  | colorwaves
  | twinklefox
  | flow
  deriving DecidableEq, Repr

namespace Effect

/-- Every effect. -/
def all : List Effect :=
  [.solid, .blink, .breathe, .wipe, .sweep, .rainbow, .scan, .fade, .theater, .running,
    .twinkle, .sparkle, .chase, .lighthouse, .gradient, .colorwaves, .twinklefox, .flow]

/-- The number the controller knows an effect under. -/
def id : Effect → Nat
  | .solid => 0
  | .blink => 1
  | .breathe => 2
  | .wipe => 3
  | .sweep => 6
  | .rainbow => 9
  | .scan => 10
  | .fade => 12
  | .theater => 13
  | .running => 15
  | .twinkle => 17
  | .sparkle => 20
  | .chase => 28
  | .lighthouse => 41
  | .gradient => 46
  | .colorwaves => 67
  | .twinklefox => 80
  | .flow => 110

/-- The label of an effect. -/
def label : Effect → String
  | .solid => "Solid"
  | .blink => "Blink"
  | .breathe => "Breathe"
  | .wipe => "Wipe"
  | .sweep => "Sweep"
  | .rainbow => "Rainbow"
  | .scan => "Scan"
  | .fade => "Fade"
  | .theater => "Theater"
  | .running => "Running"
  | .twinkle => "Twinkle"
  | .sparkle => "Sparkle"
  | .chase => "Chase"
  | .lighthouse => "Lighthouse"
  | .gradient => "Gradient"
  | .colorwaves => "Colorwaves"
  | .twinklefox => "Twinklefox"
  | .flow => "Flow"

/-- The catalogue name of an effect: its label in capitals. -/
def name (effect : Effect) : String :=
  effect.label.toUpper

/-- The family of an effect. -/
def family : Effect → EffectFamily
  | .solid | .blink | .breathe | .fade | .gradient => .basic
  | .wipe | .sweep => .wipe
  | .rainbow => .rainbow
  | .scan | .lighthouse => .scanner
  | .theater | .running | .chase => .chase
  | .twinkle | .sparkle | .twinklefox => .sparkle
  | .colorwaves | .flow => .ambient

/-- The effect known under a number. -/
def ofId (number : Int) : Outcome Effect :=
  match all.find? fun effect => (effect.id : Int) == number with
  | some effect => .ok effect
  | none => .error (.unknownEffect number)

/-- The effects of a family, in catalogue order. -/
def inFamily (family : EffectFamily) : List Effect :=
  all.filter fun effect => effect.family == family

/-- The effect that renders a kind of motion; standing still needs none. -/
def forMotion : MotionKind → Option Effect
  | .none => none
  | .chase => some .chase
  | .wave => some .colorwaves
  | .flow => some .flow
  | .pulse => some .breathe
  | .twinkle => some .twinklefox
  | .scan => some .scan

/-- The number of an effect determines it. -/
theorem ofId_id (effect : Effect) : ofId (effect.id : Int) = .ok effect := by
  cases effect <;> rfl

end Effect

/-- How a layer moves, where to, how fast, and by which effect. -/
structure Motion where
  kind : MotionKind := .none
  direction : Direction := .leftToRight
  speed : Level := 128
  intensity : Level := 128
  reverse : Bool := false
  effect : Option Effect := none
  deriving DecidableEq, Repr, Inhabited

/-- The number of the motion's effect; without one the strip stays solid. -/
def Motion.effectId (motion : Motion) : Nat :=
  match motion.effect with
  | some effect => effect.id
  | none => Effect.solid.id

end Eaves
