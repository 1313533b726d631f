import Eaves.Bounds
import Eaves.Roofline.Shape

/-!
# Zones

A zone names part of a roofline: all of it, listed segments, features of the
house, a side, a storey, or ranges of lights.  What it covers depends on the
roofline it is resolved against.
-/

namespace Eaves

/-- An inclusive range of lights, counted along the whole strip. -/
structure PixelRange where
  first : Nat
  last : Nat
  ordered : first ≤ last
  deriving Repr

namespace PixelRange

/-- Ranges are equal when their ends are. -/
theorem eq_of_ends {a b : PixelRange} (first : a.first = b.first) (last : a.last = b.last) :
    a = b := by
  obtain ⟨_, _, _⟩ := a
  obtain ⟨_, _, _⟩ := b
  subst first last
  rfl

instance : DecidableEq PixelRange := fun a b =>
  if first : a.first = b.first then
    if last : a.last = b.last then .isTrue (eq_of_ends first last)
    else .isFalse fun same => last (congrArg PixelRange.last same)
  else .isFalse fun same => first (congrArg PixelRange.first same)

/-- The number of lights in the range. -/
def length (range : PixelRange) : Nat :=
  range.last - range.first + 1

/-- Whether a light lies in the range. -/
def Contains (range : PixelRange) (pixel : Nat) : Prop :=
  range.first ≤ pixel ∧ pixel ≤ range.last

instance (range : PixelRange) (pixel : Nat) : Decidable (range.Contains pixel) :=
  inferInstanceAs (Decidable (_ ∧ _))

/-- Whether two ranges share a light. -/
def overlaps (a b : PixelRange) : Bool :=
  decide (a.first ≤ b.last ∧ b.first ≤ a.last)

/-- Two ranges overlap exactly when some light lies in both. -/
theorem overlaps_iff (a b : PixelRange) :
    a.overlaps b = true ↔ ∃ pixel, a.Contains pixel ∧ b.Contains pixel := by
  have orderedA := a.ordered
  have orderedB := b.ordered
  simp only [overlaps, decide_eq_true_eq, Contains]
  constructor
  · rintro ⟨left, right⟩
    exact ⟨max a.first b.first, by omega, by omega⟩
  · rintro ⟨pixel, inA, inB⟩
    omega

end PixelRange

/-- A name for part of a roofline. -/
inductive Zone where
  | all
  | segments (ids : NonEmpty String)
  | features (features : NonEmpty Feature)
  | side (side : Side)
  | level (level : Positive)
  | custom (ranges : NonEmpty PixelRange)
  deriving DecidableEq, Repr

namespace Zone

instance : Inhabited Zone := ⟨.all⟩

/-- The tag that tells the kinds of zones apart in data. -/
def tag : Zone → String
  | .all => "all"
  | .segments _ => "segments"
  | .features _ => "architectural"
  | .side _ => "location"
  | .level _ => "level"
  | .custom _ => "custom"

/-- The name of a storey. -/
def storeyName (level : Nat) : String :=
  match level with
  | 1 => "ground floor"
  | 2 => "second floor"
  | 3 => "third floor"
  | _ => "level " ++ toString level

/-- The zone in words. -/
def description : Zone → String
  | .all => "entire roofline"
  | .segments ids =>
      (if ids.val.length = 1 then "segment " else "segments ") ++ ", ".intercalate ids.val
  | .features named =>
      let names := named.val.map Feature.plural
      match names.getLast? with
      | some last =>
          if names.length = 1 then last
          else ", ".intercalate names.dropLast ++ " and " ++ last
      | none => ""
  | .side face =>
      match face with
      | .front | .back => Vocabulary.word face ++ " of house"
      | .left | .right => Vocabulary.word face ++ " side"
  | .level storey => storeyName storey.val
  | .custom ranges =>
      "pixels " ++ ", ".intercalate
        (ranges.val.map fun range => toString range.first ++ "-" ++ toString range.last)

/-! ## Overlap

Judged from the zones alone, the whole roofline overlaps everything, and zones of one kind
overlap when what they name intersects.  Zones of different kinds cannot be compared without
a roofline and count as apart.
-/

/-- Whether two lists share a member. -/
def share {α : Type} [DecidableEq α] (xs ys : List α) : Bool :=
  xs.any fun x => ys.contains x

/-- Whether two zones can address the same lights. -/
def overlaps : Zone → Zone → Bool
  | .all, _ | _, .all => true
  | .segments a, .segments b => share a.val b.val
  | .features a, .features b => share a.val b.val
  | .side a, .side b => a == b
  | .level a, .level b => a == b
  | .custom a, .custom b => a.val.any fun range => b.val.any fun other => range.overlaps other
  | _, _ => false

end Zone

end Eaves
