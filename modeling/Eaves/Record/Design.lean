import Eaves.Design.Intent
import Eaves.Record.Selector
import Eaves.Record.Time

/-!
# Designs in data

Layers, flags and whole intents.  Records of intents may carry the time they were
made; it is checked and not kept.
-/

namespace Eaves

open Reader

/-- Reads the colours of a layer. -/
def Coloring.read : Reader Coloring :=
  strictRecord ["primary", "primary_name", "secondary", "accent", "fill", "spacing",
      "accepted_spacing"] fun es =>
    Coloring.mk <$> defaulted es "primary" .pureWhite Color.read <*>
      defaulted es "primary_name" "white" text <*>
      defaulted es "secondary" none (nullable Color.read) <*>
      defaulted es "accent" none (nullable Color.read) <*>
      defaulted es "fill" none (nullable Color.read) <*>
      defaulted es "spacing" none (nullable Spacing.read) <*>
      defaulted es "accepted_spacing" none (nullable Spacing.read)

/-- The colours of a layer as data. -/
def Coloring.toValue (coloring : Coloring) : Value :=
  .object [("primary", coloring.primary.toValue), ("primary_name", .text coloring.primaryName),
    ("secondary", .ofOption Color.toValue coloring.secondary),
    ("accent", .ofOption Color.toValue coloring.accent),
    ("fill", .ofOption Color.toValue coloring.fill),
    ("spacing", .ofOption Spacing.toValue coloring.spacing),
    ("accepted_spacing", .ofOption Spacing.toValue coloring.acceptedSpacing)]

/-- Reads a stop of a gradient. -/
def GradientStop.read : Reader GradientStop :=
  strictRecord ["position", "color"] fun es =>
    GradientStop.mk <$> required es "position" share <*> required es "color" Color.read

/-- A stop of a gradient as data. -/
def GradientStop.toValue (stop : GradientStop) : Value :=
  .object [("position", .float stop.position), ("color", stop.color.toValue)]

/-- Reads a pattern. -/
def Pattern.read : Reader Pattern :=
  strictRecord ["type", "gradient_stops"] fun es =>
    Pattern.mk <$> defaulted es "type" .solid word <*>
      defaulted es "gradient_stops" [] (list GradientStop.read)

/-- A pattern as data. -/
def Pattern.toValue (pattern : Pattern) : Value :=
  .object [("type", .ofWord pattern.layout),
    ("gradient_stops", .list (pattern.stops.map GradientStop.toValue))]

/-- Reads an effect, which data names by its number. -/
def readEffect : Reader (Option Effect)
  | .null => .valid none
  | .int n =>
      match Effect.ofId n with
      | .ok effect => .valid (some effect)
      | .error failure => Checked.fail (.value failure.message)
  | _ => Checked.fail .enum

/-- Reads a motion. -/
def Motion.read : Reader Motion :=
  strictRecord ["motion_type", "direction", "speed", "intensity", "reverse", "effect"] fun es =>
    Motion.mk <$> defaulted es "motion_type" .none word <*>
      defaulted es "direction" .leftToRight word <*> defaulted es "speed" 128 level <*>
      defaulted es "intensity" 128 level <*> defaulted es "reverse" false bool <*>
      defaulted es "effect" none readEffect

/-- A motion as data. -/
def Motion.toValue (motion : Motion) : Value :=
  .object [("motion_type", .ofWord motion.kind), ("direction", .ofWord motion.direction),
    ("speed", motion.speed.toValue), ("intensity", motion.intensity.toValue),
    ("reverse", .bool motion.reverse),
    ("effect", .ofOption (fun effect => .int effect.id) motion.effect)]

/-- Reads a layer. -/
def Layer.read : Reader Layer :=
  strictRecord ["id", "name", "zone", "colors", "pattern", "motion", "priority", "enabled"]
    fun es =>
      Layer.mk <$> required es "id" text <*> required es "name" text <*>
        defaulted es "zone" .all Zone.read <*> defaulted es "colors" {} Coloring.read <*>
        defaulted es "pattern" {} Pattern.read <*>
        defaulted es "motion" none (nullable Motion.read) <*>
        defaulted es "priority" 0 int <*> defaulted es "enabled" true bool

/-- A layer as data. -/
def Layer.toValue (layer : Layer) : Value :=
  .object [("id", .text layer.id), ("name", .text layer.name), ("zone", layer.zone.toValue),
    ("colors", layer.coloring.toValue), ("pattern", layer.pattern.toValue),
    ("motion", .ofOption Motion.toValue layer.motion), ("priority", .int layer.priority),
    ("enabled", .bool layer.enabled)]

/-- Reads a choice. -/
def Choice.read : Reader Choice :=
  strictRecord ["id", "label", "description", "is_recommended", "value", "preview"] fun es =>
    Choice.mk <$> required es "id" text <*> required es "label" text <*>
      defaulted es "description" "" text <*> defaulted es "is_recommended" false bool <*>
      defaulted es "value" .null any <*> defaulted es "preview" none (nullable entries)

/-- A choice as data. -/
def Choice.toValue (choice : Choice) : Value :=
  .object [("id", .text choice.id), ("label", .text choice.label),
    ("description", .text choice.description), ("is_recommended", .bool choice.recommended),
    ("value", choice.value), ("preview", .ofOption .object choice.preview)]

/-- Reads a flag. -/
def Ambiguity.read : Reader Ambiguity :=
  strictRecord ["type", "description", "source_clause", "affected_layer_id", "choices"] fun es =>
    Ambiguity.mk <$> required es "type" word <*> required es "description" text <*>
      defaulted es "source_clause" "" text <*>
      defaulted es "affected_layer_id" none (nullable text) <*>
      defaulted es "choices" [] (list Choice.read)

/-- A flag as data. -/
def Ambiguity.toValue (ambiguity : Ambiguity) : Value :=
  .object [("type", .ofWord ambiguity.kind), ("description", .text ambiguity.description),
    ("source_clause", .text ambiguity.sourceClause),
    ("affected_layer_id", .ofText? ambiguity.layerId),
    ("choices", .list (ambiguity.choices.map Choice.toValue))]

/-- Reads the settings of a design. -/
def SceneSettings.read : Reader SceneSettings :=
  strictRecord ["brightness", "smooth_transition", "transition_ms"] fun es =>
    SceneSettings.mk <$> defaulted es "brightness" 200 level <*>
      defaulted es "smooth_transition" true bool <*> defaulted es "transition_ms" 500 nat

/-- The settings of a design as data. -/
def SceneSettings.toValue (settings : SceneSettings) : Value :=
  .object [("brightness", settings.brightness.toValue),
    ("smooth_transition", .bool settings.smooth), ("transition_ms", .int settings.transitionMs)]

/-- Reads an intent. -/
def Intent.read : Reader Intent :=
  strictRecord ["original_prompt", "layers", "ambiguities", "confidence", "parsed_at",
      "global_settings"] fun es =>
    (fun prompt layers ambiguities confidence _ settings =>
        Intent.mk prompt layers ambiguities confidence settings) <$>
      defaulted es "original_prompt" "" text <*> defaulted es "layers" [] (list Layer.read) <*>
      defaulted es "ambiguities" [] (list Ambiguity.read) <*>
      defaulted es "confidence" (.finite 0) share <*> defaulted es "parsed_at" () Time.read <*>
      defaulted es "global_settings" {} SceneSettings.read

/-- An intent as data. -/
def Intent.toValue (intent : Intent) : Value :=
  .object [("original_prompt", .text intent.prompt),
    ("layers", .list (intent.layers.map Layer.toValue)),
    ("ambiguities", .list (intent.ambiguities.map Ambiguity.toValue)),
    ("confidence", .float intent.confidence), ("global_settings", intent.settings.toValue)]

end Eaves
