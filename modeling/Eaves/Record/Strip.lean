import Eaves.Record.Reader
import Eaves.Roofline.Basic

/-!
# Segments and rooflines in data

A segment's own anchors are kept once each and in order.  A roofline's segments
are laid out afresh when it is read: what the data says about their places is
checked and then computed anew.
-/

namespace Eaves

open Reader

/-- Own anchors: none may be negative. -/
def readAnchors (value : Value) : Checked (List Nat) :=
  (list int value).andThen fun anchors =>
    if anchors.any fun anchor => decide (anchor < 0) then
      Checked.fail (.value "anchor offsets must be non-negative")
    else .valid (increasing (anchors.map Int.toNat))

/-- The keys of a segment. -/
def Segment.keys : List String :=
  ["id", "name", "pixel_count", "start_pixel", "type", "direction", "anchor_pixels",
    "anchor_led_count", "sort_order", "level", "location", "is_prominent",
    "is_connected_to_previous"]

/-- Reads a segment. -/
def Segment.read : Reader Segment :=
  strictRecord Segment.keys fun es =>
    Segment.mk <$> required es "id" text <*> required es "name" text <*>
      required es "pixel_count" nat <*> defaulted es "start_pixel" 0 nat <*>
      defaulted es "type" .run word <*> defaulted es "direction" "left_to_right" text <*>
      defaulted es "anchor_pixels" [] readAnchors <*>
      defaulted es "anchor_led_count" 2 positive <*>
      defaulted es "sort_order" 0 int <*> defaulted es "level" 1 positive <*>
      defaulted es "location" none (nullable word) <*>
      defaulted es "is_prominent" false bool <*>
      defaulted es "is_connected_to_previous" true bool

/-- A segment as data. -/
def Segment.toValue (segment : Segment) : Value :=
  .object [("id", .text segment.id), ("name", .text segment.name),
    ("pixel_count", .int segment.pixelCount), ("start_pixel", .int segment.startPixel),
    ("type", .ofWord segment.shape), ("direction", .text segment.direction),
    ("anchor_pixels", .list (segment.anchors.map fun (anchor : Nat) => .int anchor)),
    ("anchor_led_count", .int segment.anchorWidth.val), ("sort_order", .int segment.sortOrder),
    ("level", .int segment.level.val), ("location", .ofOption .ofWord segment.side),
    ("is_prominent", .bool segment.prominent),
    ("is_connected_to_previous", .bool segment.connected)]

/-- What follows from a segment's place and anchors, as data. -/
def Segment.facts (segment : Segment) : Entries :=
  let places (ns : List Nat) : Value := .list (ns.map fun (n : Nat) => .int n)
  [("end_pixel", .int segment.endPixel), ("default_anchors", places segment.defaultAnchors),
    ("effective_anchors", places segment.effectiveAnchors),
    ("global_anchor_pixels", places segment.globalAnchors)]

/-- A segment as data, with what follows from it. -/
def Segment.survey (segment : Segment) : Value :=
  match segment.toValue with
  | .object entries => .object (entries ++ segment.facts)
  | value => value

/-- Reads the segments of a roofline and lays them out. -/
def readSegments (value : Value) : Checked (List Segment) :=
  (list Segment.read value).andThen Roofline.layOut

/-- Reads a roofline. -/
def Roofline.read : Reader Roofline :=
  strictRecord ["id", "name", "segments"] fun es =>
    Roofline.mk <$> defaulted es "id" "default" text <*>
      defaulted es "name" "Roofline" text <*> defaulted es "segments" [] readSegments

/-- A roofline as data, with what follows from it. -/
def Roofline.survey (roofline : Roofline) : Value :=
  let places (ns : List Nat) : Value := .list (ns.map fun (n : Nat) => .int n)
  let ids (segments : List Segment) : Value :=
    .list (segments.map fun segment => .text segment.id)
  .object [("id", .text roofline.id), ("name", .text roofline.name),
    ("segments", .list (roofline.segments.map Segment.survey)), ("total", .int roofline.total),
    ("levels", places roofline.levels), ("anchors", places roofline.anchors),
    ("runs", .list (roofline.connectedRuns.map ids))]

end Eaves
