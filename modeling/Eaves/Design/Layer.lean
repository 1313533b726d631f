import Eaves.Light.Color
import Eaves.Motion
import Eaves.Spacing.Basic
import Eaves.Zone.Basic

/-!
# Layers

A layer is one rule of a design: which colours, spread how, moving how, on which
zone.  Where zones overlap, the layer of higher priority is painted over the other.
-/

namespace Eaves

open Number (Binary64)

/-- The colours of a layer and how they are spaced. -/
structure Coloring where
  primary : Color := .pureWhite
  /-- The name the primary colour was asked for by. -/
  primaryName : String := "white"
  secondary : Option Color := none
  /-- The colour of lit lights where a spacing rule applies. -/
  accent : Option Color := none
  /-- The colour of dark lights where a spacing rule applies. -/
  fill : Option Color := none
  spacing : Option Spacing := none
  /-- The spacing rule the user has confirmed. -/
  acceptedSpacing : Option Spacing := none
  deriving DecidableEq, Repr, Inhabited

/-- Whether the rule in force is the one the user has confirmed. -/
def Coloring.spacingAccepted (coloring : Coloring) : Bool :=
  coloring.spacing.isSome && coloring.acceptedSpacing == coloring.spacing

/-- How colours are laid out where no spacing rule applies. -/
inductive Layout where
  | solid
  | gradient
  | alternating
  | twinkle
  | wave
  deriving DecidableEq, Repr

instance : Vocabulary Layout where
  title := "PatternType"
  members := [.solid, .gradient, .alternating, .twinkle, .wave]
  word
    | .solid => "solid"
    | .gradient => "gradient"
    | .alternating => "alternating"
    | .twinkle => "twinkle"
    | .wave => "wave"

/-- A colour at a position between zero and one. -/
structure GradientStop where
  position : Binary64
  color : Color
  deriving DecidableEq, Repr

/-- A layout and the stops of its gradient. -/
structure Pattern where
  layout : Layout := .solid
  stops : List GradientStop := []
  deriving DecidableEq, Repr

instance : Inhabited Pattern := ⟨{}⟩

/-- One rule of a design. -/
structure Layer where
  id : String
  name : String
  zone : Zone := .all
  coloring : Coloring := {}
  pattern : Pattern := {}
  motion : Option Motion := none
  priority : Int := 0
  enabled : Bool := true
  deriving DecidableEq, Repr, Inhabited

end Eaves
