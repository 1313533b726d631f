import Eaves.Record.Reader

/-!
# Colours, zones and spacing rules in data

Zones and spacing rules come in kinds; the entry `kind` says which, and problems
inside are reported below the name of the kind.  A term of the domain in a slot
for data is accepted as it is.
-/

namespace Eaves

open Reader

/-- Reads a colour. -/
def Color.read : Reader Color
  | .color color => .valid color
  | value =>
      strictRecord ["r", "g", "b", "w"]
        (fun es =>
          Color.mk <$> required es "r" level <*> required es "g" level <*>
            required es "b" level <*> defaulted es "w" 0 level)
        value

/-- Reads a range of lights. -/
def PixelRange.read (value : Value) : Checked PixelRange :=
  (strictRecord ["start", "end"]
    (fun es => Prod.mk <$> required es "start" nat <*> required es "end" nat) value).andThen
    fun (first, last) =>
      if ordered : first ≤ last then .valid ⟨first, last, ordered⟩
      else
        Checked.fail
          (.value ("range end " ++ toString last ++ " is before start " ++ toString first))

/-- What a kind of record needs to be read: its name, the keys it knows beside `kind`, and its
fields. -/
structure KindReader (α : Type) where
  tag : String
  keys : List String
  fields : Entries → Checked α

/-- Reads a record whose entry `kind` names one of several forms. -/
def readKind {α : Type} (kinds : List (KindReader α)) : Reader α
  | .object es =>
      match Entries.value? es "kind" with
      | none => Checked.fail .unionTagNotFound
      | some (.text tag) =>
          match kinds.find? fun kind => kind.tag == tag with
          | some kind =>
              (strictRecord ("kind" :: kind.keys) kind.fields (.object es)).under tag
          | none => Checked.fail .unionTagInvalid
      | some _ => Checked.fail .unionTagInvalid
  | .color _ | .direction _ | .motion _ | .speed _ => Checked.fail .unionTagNotFound
  | .zone _ | .spacing _ => Checked.fail .unionTagInvalid
  | _ => Checked.fail .modelAttributesType

/-- The forms of zones. -/
def zoneKinds : List (KindReader Zone) := [
  ⟨"all", [], fun _ => .valid .all⟩,
  ⟨"segments", ["segment_ids"], fun es =>
    Zone.segments <$> required es "segment_ids" (nonEmptyList text)⟩,
  ⟨"architectural", ["roles"], fun es =>
    Zone.features <$> required es "roles" (nonEmptyList word)⟩,
  ⟨"location", ["location"], fun es => Zone.side <$> required es "location" word⟩,
  ⟨"level", ["level"], fun es => Zone.level <$> required es "level" positive⟩,
  ⟨"custom", ["pixel_ranges"], fun es =>
    Zone.custom <$> required es "pixel_ranges" (nonEmptyList PixelRange.read)⟩]

/-- Reads a zone. -/
def Zone.read : Reader Zone
  | .zone zone => .valid zone
  | value => readKind zoneKinds value

/-- The forms of spacing rules. -/
def spacingKinds : List (KindReader Spacing) := [
  ⟨"pattern", ["on_count", "off_count", "start_with_on"], fun es =>
    Spacing.pattern <$> required es "on_count" int <*> required es "off_count" int <*>
      defaulted es "start_with_on" true bool⟩,
  ⟨"equally_spaced", ["count"], fun es => Spacing.equallySpaced <$> required es "count" int⟩,
  ⟨"every_nth", ["interval"], fun es => Spacing.everyNth <$> required es "interval" int⟩,
  ⟨"anchors_only", [], fun _ => .valid .anchorsOnly⟩,
  ⟨"continuous", [], fun _ => .valid .continuous⟩]

/-- Reads a spacing rule. -/
def Spacing.read : Reader Spacing
  | .spacing rule => .valid rule
  | value => readKind spacingKinds value

end Eaves
