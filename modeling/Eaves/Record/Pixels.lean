import Eaves.Pixels.Downlight
import Eaves.Pixels.Group
import Eaves.Record.Selector

/-!
# Groups and templates in data
-/

namespace Eaves

open Reader

/-- The wording of a group whose last light comes before its first. -/
def reversedGroup (first last : Nat) : Fault :=
  .value ("end_led " ++ toString last ++ " is before start_led " ++ toString first)

/-- Reads a group. -/
def Group.read (value : Value) : Checked Group :=
  (strictRecord ["start_led", "end_led", "color"]
    (fun es =>
      (fun first last color => (first, last, color)) <$> required es "start_led" nat <*>
        required es "end_led" nat <*> required es "color" Color.read) value).andThen
    fun (first, last, color) =>
      match Group.span? first last color with
      | some group => .valid group
      | none => Checked.fail (reversedGroup first last)

/-- A group as data. -/
def Group.toValue (group : Group) : Value :=
  .object [("start_led", .int group.first), ("end_led", .int group.last),
    ("color", group.color.toValue)]

/-- Reads a template. -/
def Template.read : Reader Template :=
  strictRecord ["template", "anchor_color", "spaced_color", "secondary_color", "spacing_count",
      "anchor_always_on", "effect_id", "speed", "intensity"] fun es =>
    Template.mk <$> defaulted es "template" .downlighting word <*>
      defaulted es "anchor_color" .pureWhite Color.read <*>
      defaulted es "spaced_color" .pureWhite Color.read <*>
      defaulted es "secondary_color" none (nullable Color.read) <*>
      defaulted es "spacing_count" 3 nat <*> defaulted es "anchor_always_on" true bool <*>
      defaulted es "effect_id" 0 int <*> defaulted es "speed" 128 level <*>
      defaulted es "intensity" 128 level

/-- A template as data. -/
def Template.toValue (template : Template) : Value :=
  .object [("template", .ofWord template.kind), ("anchor_color", template.anchorColor.toValue),
    ("spaced_color", template.spacedColor.toValue),
    ("secondary_color", .ofOption Color.toValue template.secondaryColor),
    ("spacing_count", .int template.spacingCount), ("anchor_always_on", .bool template.anchorsOn),
    ("effect_id", .int template.effectId), ("speed", template.speed.toValue),
    ("intensity", template.intensity.toValue)]

end Eaves
