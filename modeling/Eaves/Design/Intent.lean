import Eaves.Value.Basic

/-!
# Intents

An intent is what a prompt asks for: layers, in the order of the clauses they came
from, and flags for what was left open.  A flag names the layer it is about and
offers choices; the value behind a choice is untyped, since each kind of flag puts
something else there.
-/

namespace Eaves

open Number (Binary64)

/-- What a flag leaves open. -/
inductive AmbiguityKind where
  | zone
  | color
  | spacingImpossible
  | direction
  | conflict
  | effect
  deriving DecidableEq, Repr

instance : Vocabulary AmbiguityKind where
  title := "AmbiguityType"
  members := [.zone, .color, .spacingImpossible, .direction, .conflict, .effect]
  word
    | .zone => "zone"
    | .color => "color"
    | .spacingImpossible => "spacing_impossible"
    | .direction => "direction"
    | .conflict => "conflict"
    | .effect => "effect"

/-- One way to settle a flag. -/
structure Choice where
  id : String
  label : String
  description : String := ""
  recommended : Bool := false
  value : Value := .null
  preview : Option Entries := none
  deriving Repr, Inhabited

/-- Something a prompt left open. -/
structure Ambiguity where
  kind : AmbiguityKind
  description : String
  sourceClause : String := ""
  layerId : Option String := none
  choices : List Choice := []
  deriving Repr

/-- The choice that is marked as recommended, else the first one. -/
def Ambiguity.recommended? (ambiguity : Ambiguity) : Option Choice :=
  (ambiguity.choices.find? Choice.recommended).or ambiguity.choices.head?

/-- Brightness and transition of a whole design. -/
structure SceneSettings where
  brightness : Level := 200
  smooth : Bool := true
  transitionMs : Nat := 500
  deriving DecidableEq, Repr, Inhabited

/-- The transition in the controller's unit, a tenth of a second. -/
def SceneSettings.transition (settings : SceneSettings) : Nat :=
  if settings.smooth then settings.transitionMs / 100 else 0

/-- A design as understood so far. -/
structure Intent where
  prompt : String := ""
  layers : List Layer := []
  ambiguities : List Ambiguity := []
  confidence : Binary64 := .finite 0
  settings : SceneSettings := {}
  deriving Repr, Inhabited

namespace Intent

/-- Whether something is left open. -/
def needsClarification (intent : Intent) : Bool :=
  !intent.ambiguities.isEmpty

/-- Whether the design has layers and nothing is left open. -/
def isReady (intent : Intent) : Bool :=
  !intent.layers.isEmpty && intent.ambiguities.isEmpty

/-- The first layer with an id. -/
def layer? (intent : Intent) (id : Option String) : Option Layer :=
  id.bind fun id => intent.layers.find? fun layer => layer.id == id

/-- The intent with every layer of the given one's id replaced by it. -/
def withLayer (intent : Intent) (updated : Layer) : Intent :=
  { intent with
    layers := intent.layers.map fun layer => if layer.id == updated.id then updated else layer }

/-- The layers that are painted. -/
def enabledLayers (intent : Intent) : List Layer :=
  intent.layers.filter Layer.enabled

end Intent

/-! ## Conflicts between layers

Two layers conflict when their zones overlap and their primary colours differ.  The
later layer is recommended, since later instructions override earlier ones.
-/

/-- The id of the choice that lets a layer win. -/
def winnerId (position : Nat) : String :=
  "layer_" ++ toString position ++ "_wins"

/-- Whether two layers conflict. -/
def Layer.conflictsWith (first second : Layer) : Bool :=
  first.zone.overlaps second.zone && !first.coloring.primary.sameRgb second.coloring.primary

/-- The flag for a pair of conflicting layers. -/
def conflictFlag (i j : Nat) (first second : Layer) : Ambiguity :=
  { kind := .conflict
    description := "Two instructions target overlapping areas with different colors"
    sourceClause := first.name ++ " / " ++ second.name
    layerId := some second.id
    choices := [
      { id := winnerId i, label := "Use " ++ first.coloring.primaryName, value := .int i },
      { id := winnerId j, label := "Use " ++ second.coloring.primaryName, value := .int j,
        recommended := true },
      { id := "blend", label := "Blend both colors" }] }

/-- The flags of one layer against the layers that follow it from a position on. -/
def conflictsOf (i : Nat) (first : Layer) : (position : Nat) → List Layer → List Ambiguity
  | _, [] => []
  | j, second :: rest =>
      if first.conflictsWith second then
        conflictFlag i j first second :: conflictsOf i first (j + 1) rest
      else conflictsOf i first (j + 1) rest

/-- The flags of every pair of conflicting layers from a position on. -/
def conflictsFrom : (position : Nat) → List Layer → List Ambiguity
  | _, [] => []
  | i, first :: rest => conflictsOf i first (i + 1) rest ++ conflictsFrom (i + 1) rest

/-- The flags of every pair of conflicting layers, in order of their positions. -/
def conflicts (layers : List Layer) : List Ambiguity :=
  conflictsFrom 0 layers

end Eaves
