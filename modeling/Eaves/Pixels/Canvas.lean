import Std.Data.TreeMap
import Eaves.Failure
import Eaves.Pixels.Group

/-!
# Canvases

A canvas says which lights are lit and in which colour.  Painting a light again
replaces its colour.  Written as groups, a canvas is the list of its maximal
stretches of one colour.
-/

namespace Eaves

/-- Lights with their colours, in order. -/
abbrev Canvas := Std.TreeMap Nat Color compare

namespace Canvas

/-- Nothing is lit. -/
def blank : Canvas := ∅

/-- Lights `count` lights from `first` on. -/
def paintRun (canvas : Canvas) (first count : Nat) (color : Color) : Canvas :=
  (List.range' first count).foldl (fun canvas pixel => canvas.insert pixel color) canvas

/-- Lights `count` lights from `first` on, if there is a colour for them. -/
def paintRun? (canvas : Canvas) (first count : Nat) : Option Color → Canvas
  | some color => canvas.paintRun first count color
  | none => canvas

/-- Paints one canvas over another. -/
def onTopOf (canvas below : Canvas) : Canvas :=
  canvas.toList.foldl (fun painted pixel => painted.insert pixel.1 pixel.2) below

/-- The lights before `total`. -/
def below (canvas : Canvas) (total : Nat) : Canvas :=
  canvas.filter fun pixel _ => decide (pixel < total)

/-- The maximal stretches of one colour, in order. -/
def groups (canvas : Canvas) : List Group :=
  Group.merge (canvas.toList.map fun pixel => Group.single pixel.1 pixel.2)

/-- The refusal of a light with a negative position. -/
def negativePixel : Failure :=
  .invalid [⟨["start_led"], .greaterThanEqual⟩, ⟨["end_led"], .greaterThanEqual⟩]

/-- A canvas from positions and colours; a position given again takes the last colour. -/
def ofPixels (pixels : List (Int × Color)) : Outcome Canvas :=
  if pixels.any fun pixel => decide (pixel.1 < 0) then .error negativePixel
  else .ok (pixels.foldl (fun canvas pixel => canvas.insert pixel.1.toNat pixel.2) blank)

end Canvas

end Eaves
