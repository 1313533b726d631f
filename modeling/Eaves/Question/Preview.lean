import Eaves.Device.Payload
import Eaves.Pixels.Spaced
import Eaves.Question.Basic
import Eaves.Text.Lowercase
import Eaves.Text.Search

/-!
# Icons and previews

What is shown beside an option.  An icon is a hint: by words in its label for zones, by
its id for directions and effects.  A preview is what the option would look like on the
device: a strip in one colour, or a spacing rule rendered light by light.
-/

namespace Eaves.Icon

/-- The icons of zones and the words that call for them, in order. -/
def zoneWords : List (List String × String) := [
  (["peak", "gable"], "change_history"),
  (["corner"], "turn_right"),
  (["run", "eave"], "horizontal_rule"),
  (["front"], "home"),
  (["back"], "home_outlined"),
  (["all", "entire"], "roofing")]

/-- The icon of a zone with a label. -/
def forZone (label : String) : String :=
  let small := Text.lower label.toList
  let hit := zoneWords.find? fun entry =>
    entry.1.any fun word => Text.occursIn word.toList small
  (hit.map Prod.snd).getD "location_on"

/-- The icons of directions, by id. -/
def directions : List (String × String) := [
  ("left_to_right", "arrow_forward"),
  ("right_to_left", "arrow_back"),
  ("inward", "compress"),
  ("outward", "expand"),
  ("upward", "arrow_upward"),
  ("downward", "arrow_downward")]

/-- The icon of a direction with an id. -/
def forDirection (id : String) : String :=
  (directions.lookup id).getD "swap_horiz"

/-- The icons of effects, by id. -/
def effects : List (String × String) := [
  ("chase", "directions_run"),
  ("wave", "waves"),
  ("twinkle", "auto_awesome"),
  ("pulse", "favorite"),
  ("flow", "water"),
  ("scan", "radar")]

/-- The icon of an effect with an id. -/
def forEffect (id : String) : String :=
  (effects.lookup id).getD "animation"

end Eaves.Icon

namespace Eaves.Preview

open Number (Binary64)

/-- The strip length assumed where no roofline is known. -/
def assumedPixels : Nat := 100

/-- The colour shown where an option says nothing about colour. -/
def neutral : Color := ⟨128, 128, 128, 0⟩

/-- A strip in one colour. -/
def ofColor (color : Color) (pixelCount brightness : Int) : Payload :=
  .wholeStrip brightness ⟨Effect.solid.id, 128, 128, none⟩ pixelCount [color]

/-- A spacing rule rendered light by light on a strip. -/
def ofSpacing (rule : Spacing) (coloring : Coloring) (pixelCount brightness : Int) :
    Outcome Payload :=
  if pixelCount ≤ 0 then .ok (.individual [] brightness (some 0))
  else do
    let canvas ← rule.paint Binary64 .blank ⟨0, pixelCount.toNat - 1, Nat.zero_le _⟩ coloring none
    return .individual canvas.groups brightness (some pixelCount)

/-- The preview of an option: its own one, else its first swatch on the strip, else the neutral
colour. -/
def ofOffer (offer : Offer) (intent : Intent) (roofline : Option Roofline) : Entries :=
  match offer.preview with
  | some own => own
  | none =>
      let pixelCount := (roofline.map Roofline.total).getD assumedPixels
      let color := (offer.swatches.bind List.head?).getD neutral
      (ofColor color pixelCount intent.settings.brightness.toInt).toEntries

end Eaves.Preview
