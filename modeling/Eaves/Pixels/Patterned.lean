import Eaves.Design.Layer
import Eaves.Number.Scalar
import Eaves.Pixels.Canvas

/-!
# Painting patterns

Where no spacing rule applies, a layer's pattern colours every light of a range:
in one colour, in two by turns, or along a gradient.  Layouts that the device
animates get their base colour.
-/

namespace Eaves

open Number (Scalar)

namespace Pattern

/-- A stop of a gradient in a number system: its position and its colour. -/
abbrev Stop (α : Type) := α × Color

/-- Stops in order of position; those that share one keep their order. -/
def sortedStops {α : Type} [Scalar α] (stops : List (Stop α)) : List (Stop α) :=
  stops.mergeSort fun a b => !Scalar.lt b.1 a.1

/-- The first two neighbouring stops that a position lies between. -/
def between? {α : Type} [Scalar α] (position : α) :
    List (Stop α) → Option (Stop α × Stop α)
  | current :: following :: rest =>
      if Scalar.le current.1 position && Scalar.le position following.1 then
        some (current, following)
      else between? position (following :: rest)
  | _ => none

/-- The colour at a position of a gradient with the given first stop and last one. -/
def colorAt {α : Type} [Scalar α] (first last : Stop α) (stops : List (Stop α)) (position : α) :
    Outcome Color :=
  let (lower, upper) := (between? position stops).getD (first, last)
  if Scalar.eq upper.1 lower.1 then .ok lower.2
  else
    lower.2.blend upper.2
      (Scalar.div (Scalar.sub position lower.1) (Scalar.sub upper.1 lower.1))

/-- The stops in use: the pattern's own when there are two or more, else the primary and the
secondary colour where there is one. -/
def stopsInUse (α : Type) [Scalar α] (pattern : Pattern) (coloring : Coloring) : List (Stop α) :=
  let own := sortedStops (pattern.stops.map fun stop =>
    (Scalar.ofBinary64 (α := α) stop.position, stop.color))
  match coloring.secondary with
  | some secondary =>
      if own.length < 2 then
        [(Scalar.ofRat 0, coloring.primary), (Scalar.ofRat 1, secondary)]
      else own
  | none => own

/-- Lights every light of a range by the rule for its offset. -/
def paintEach (canvas : Canvas) (range : PixelRange) (rule : Nat → Outcome Color) :
    Outcome Canvas :=
  (List.range range.length).foldlM
    (fun canvas offset => do
      let color ← rule offset
      return canvas.insert (range.first + offset) color)
    canvas

/-- Paints a pattern over a range of lights. -/
def paint (α : Type) [Scalar α] (pattern : Pattern) (canvas : Canvas) (range : PixelRange)
    (coloring : Coloring) : Outcome Canvas :=
  let plain := canvas.paintRun range.first range.length coloring.primary
  match pattern.layout with
  | .alternating =>
      let second := coloring.secondary.getD .black
      paintEach canvas range fun offset =>
        .ok (if offset % 2 = 1 then second else coloring.primary)
  | .gradient =>
      let stops := stopsInUse α pattern coloring
      match stops.head?, stops.getLast? with
      | some first, some last =>
          if stops.length < 2 then .ok plain
          else
            paintEach canvas range fun offset => do
              let position ← liftNumber (Scalar.quotient (α := α) offset range.length)
              colorAt first last stops position
      | _, _ => .ok plain
  | .solid | .wave | .twinkle => .ok plain

end Pattern

end Eaves
