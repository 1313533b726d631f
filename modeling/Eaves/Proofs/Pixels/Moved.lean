import Eaves.Proofs.Number.Finite
import Eaves.Proofs.Pixels.Canvas
import Mathlib.Data.List.Sort

/-!
# Painting is the same wherever a range starts

A spacing rule, other than one that follows the anchors of a roofline, asks only
where a light stands within its range.  What it lights in a range is therefore what
it lights on a strip of its own of that length, moved to where the range starts.

Each way of painting keeps one canvas a moved copy of another.  Only equal spacing
needs an argument of its own: a light left of the range would be cut off at the
start of the strip, and the places it computes are never left of the range, also
where rounding is at work.
-/

namespace Eaves

namespace Number.Binary64

/-- A ratio that is delivered is finite, and negative only if the exact one is. -/
theorem notNegative_of_quotient {n d : Int} {x : Binary64} (given : quotient n d = .ok x)
    (nonneg : 0 ≤ (n : Rat) / (d : Rat)) :
    x.isFinite = true ∧ (finite 0).le x = true := by
  have rounded := notNegative_ofRat nonneg
  unfold quotient at given
  split at given
  · cases given
  · split at given
    · cases given
    · rename_i notInfinite
      cases given
      refine ⟨?_, rounded⟩
      rcases notNegative_iff.mp rounded with ⟨isFinite, -⟩ | infinite
      · exact isFinite
      · exact absurd infinite (notInfinite false)

/-- An integer that is delivered is finite, and negative only if it was. -/
theorem notNegative_of_ofInt {n : Int} {x : Binary64} (given : ofInt n = .ok x)
    (nonneg : 0 ≤ n) : x.isFinite = true ∧ (finite 0).le x = true := by
  have rounded : (finite 0).le (ofRat n) = true := notNegative_ofRat (by exact_mod_cast nonneg)
  unfold ofInt at given
  split at given
  · cases given
  · rename_i notInfinite
    cases given
    refine ⟨?_, rounded⟩
    rcases notNegative_iff.mp rounded with ⟨isFinite, -⟩ | infinite
    · exact isFinite
    · exact absurd infinite (notInfinite false)

/-- Rounded down, a number that is not negative is not negative. -/
theorem nonneg_of_floor {x : Binary64} {n : Int} (notNegative : (finite 0).le x = true)
    (given : x.floor = .ok n) : 0 ≤ n := by
  rcases notNegative_iff.mp notNegative with ⟨-, nonneg⟩ | rfl
  · cases x with
    | finite value =>
        cases given
        exact Rat.le_floor_iff.mpr (by exact_mod_cast nonneg)
    | negativeZero =>
        cases given
        exact le_refl 0
    | infinite negative => cases given
    | nan => cases given
  · cases given

end Number.Binary64

/-! ## Moved canvases -/

namespace Canvas

/-- A canvas that shows another one's lights `offset` lights further on, and nothing else. -/
structure IsMoved (offset : Nat) (canvas moved : Canvas) : Prop where
  behind : ∀ pixel, moved[offset + pixel]? = canvas[pixel]?
  before : ∀ pixel, pixel < offset → moved[pixel]? = none

namespace IsMoved

variable {offset : Nat} {canvas moved : Canvas}

theorem blank (offset : Nat) : IsMoved offset blank blank :=
  ⟨fun _ => by rw [getElem?_blank, getElem?_blank], fun _ _ => getElem?_blank _⟩

theorem insert (isMoved : IsMoved offset canvas moved) (pixel : Nat) (color : Color) :
    IsMoved offset (canvas.insert pixel color) (moved.insert (offset + pixel) color) := by
  constructor
  · intro other
    rw [getElem?_insert, getElem?_insert, isMoved.behind]
    simp only [Nat.add_left_cancel_iff]
  · intro other isBefore
    rw [getElem?_insert, if_neg (by omega), isMoved.before other isBefore]

theorem paintRun (isMoved : IsMoved offset canvas moved) (first count : Nat) (color : Color) :
    IsMoved offset (canvas.paintRun first count color)
      (moved.paintRun (offset + first) count color) := by
  constructor
  · intro pixel
    have same : offset + first ≤ offset + pixel ∧ offset + pixel < offset + first + count ↔
        first ≤ pixel ∧ pixel < first + count := by omega
    rw [getElem?_paintRun, getElem?_paintRun, isMoved.behind]
    simp only [same]
  · intro pixel isBefore
    rw [getElem?_paintRun, if_neg (by omega), isMoved.before pixel isBefore]

theorem paintRun? (isMoved : IsMoved offset canvas moved) (first count : Nat)
    (color : Option Color) :
    IsMoved offset (canvas.paintRun? first count color)
      (moved.paintRun? (offset + first) count color) := by
  cases color with
  | none => exact isMoved
  | some color => exact isMoved.paintRun first count color

/-- Steps that keep a canvas a moved copy keep it one in turn. -/
theorem foldl {α β : Type} {paint : Canvas → α → Canvas} {paintMoved : Canvas → β → Canvas}
    {place : α → β} {members : List α}
    (steps : ∀ member ∈ members, ∀ work movedWork : Canvas, IsMoved offset work movedWork →
      IsMoved offset (paint work member) (paintMoved movedWork (place member)))
    (isMoved : IsMoved offset canvas moved) :
    IsMoved offset (members.foldl paint canvas) ((members.map place).foldl paintMoved moved) := by
  induction members generalizing canvas moved with
  | nil => exact isMoved
  | cons member rest ih =>
      apply ih fun other mem => steps other (List.mem_cons_of_mem _ mem)
      exact steps member List.mem_cons_self canvas moved isMoved

/-- A moved canvas lists the lights of the other one, each moved. -/
theorem toList_eq (isMoved : IsMoved offset canvas moved) :
    moved.toList = canvas.toList.map fun light => (offset + light.1, light.2) := by
  have increasing : (canvas.toList.map fun light => (offset + light.1, light.2)).Pairwise
      fun a b => a.1 < b.1 := by
    rw [List.pairwise_map]
    exact canvas.pairwise_toList.imp fun below => Nat.add_lt_add_left below offset
  apply toList_eq_of_shows increasing
  intro pixel color
  rw [List.mem_map]
  constructor
  · intro shown
    by_cases isBefore : pixel < offset
    · rw [isMoved.before pixel isBefore] at shown
      cases shown
    · obtain ⟨place, rfl⟩ := Nat.exists_eq_add_of_le (Nat.le_of_not_lt isBefore)
      rw [isMoved.behind] at shown
      exact ⟨(place, color), Std.TreeMap.mem_toList_iff_getElem?_eq_some.mpr shown, rfl⟩
  · rintro ⟨⟨place, same⟩, listed, shape⟩
    cases shape
    rw [isMoved.behind]
    exact Std.TreeMap.mem_toList_iff_getElem?_eq_some.mp listed

end IsMoved

end Canvas

/-! ## Moved ranges -/

namespace Spacing

open Number (Binary64 Scalar)
open Canvas (IsMoved)
open Outcome

variable {offset : Nat} {canvas moved : Canvas}

/-- A strip of its own for the lights of a range. -/
def ownStrip (range : PixelRange) : PixelRange :=
  ⟨0, range.length - 1, Nat.zero_le _⟩

theorem length_ownStrip (range : PixelRange) : (ownStrip range).length = range.length := by
  simp only [ownStrip, PixelRange.length]
  omega

theorem isMoved_paintStretch (isMoved : IsMoved offset canvas moved) (lit : Color)
    (dark : Option Color) (isLit : Bool) (first count : Nat) :
    IsMoved offset (paintStretch canvas lit dark isLit first count)
      (paintStretch moved lit dark isLit (offset + first) count) := by
  unfold paintStretch
  cases isLit with
  | true => exact isMoved.paintRun first count lit
  | false => exact isMoved.paintRun? first count dark

/-- While lights remain, a cycle is painted stretch by stretch. -/
theorem paintCycle_of_going {lit : Color} {dark : Option Color} {on off : Nat} {isLit : Bool}
    {first remaining : Nat} (going : ¬(remaining = 0 ∨ stretch on off isLit = 0))
    (canvas : Canvas) :
    paintCycle lit dark on off canvas isLit first remaining =
      paintCycle lit dark on off
        (paintStretch canvas lit dark isLit first (min (stretch on off isLit) remaining))
        (!isLit || off == 0) (first + stretch on off isLit) (remaining - stretch on off isLit) := by
  rw [paintCycle, dif_neg going]

/-- A cycle that starts further on is painted further on. -/
theorem isMoved_paintCycle {lit : Color} {dark : Option Color} {on off : Nat} {isLit : Bool}
    {first remaining : Nat} (isMoved : IsMoved offset canvas moved) :
    IsMoved offset (paintCycle lit dark on off canvas isLit first remaining)
      (paintCycle lit dark on off moved isLit (offset + first) remaining) := by
  induction canvas, isLit, first, remaining using paintCycle.induct lit dark on off
      generalizing moved with
  | @case1 canvas isLit first remaining count done =>
      rw [paintCycle, dif_pos done, paintCycle, dif_pos done]
      exact isMoved
  | @case2 canvas isLit first remaining count going _ ih =>
      rw [paintCycle_of_going going, paintCycle_of_going going, Nat.add_assoc]
      exact ih (isMoved_paintStretch isMoved lit dark isLit first _)

/-- The first lights of the intervals of a range are those of its own strip, moved. -/
theorem everyNthPixels_eq (range : PixelRange) (interval : Nat) :
    everyNthPixels range interval =
      (everyNthPixels (ownStrip range) interval).map (range.first + ·) := by
  unfold everyNthPixels
  rw [length_ownStrip, List.map_map]
  apply List.map_congr_left
  intro index _
  simp only [Function.comp_apply, ownStrip, Nat.zero_add]

/-- The place of a spread light is not left of the range. -/
theorem evenOffset_nonneg {length count index : Nat} {place : Int} (lit : 0 < length)
    (several : 2 ≤ count) (given : evenOffset Binary64 length count index = .ok place) :
    0 ≤ place := by
  have ratio : (0 : Rat) ≤ (((length : Int) - 1 : Int) : Rat) / (((count : Int) - 1 : Int) : Rat) :=
    div_nonneg (by exact_mod_cast (by omega : (0 : Int) ≤ (length : Int) - 1))
      (by exact_mod_cast (by omega : (0 : Int) ≤ (count : Int) - 1))
  rcases bind_eq_ok_iff.mp (liftNumber_eq_ok_iff.mp given) with ⟨step, isStep, rest⟩
  rcases bind_eq_ok_iff.mp rest with ⟨times, isTimes, isFloor⟩
  have stepSign := Binary64.notNegative_of_quotient isStep ratio
  have timesSign := Binary64.notNegative_of_ofInt isTimes (by omega)
  have product := Binary64.notNegative_mul stepSign.1 timesSign.1 stepSign.2 timesSign.2
  have half : (Binary64.finite 0).le (.finite (1 / 2)) = true :=
    Binary64.notNegative_finite (by norm_num)
  by_cases isFinite : (step.mul times).isFinite = true
  · exact Binary64.nonneg_of_floor (Binary64.notNegative_add isFinite product half) isFloor
  · rcases Binary64.notNegative_iff.mp product with ⟨finiteToo, -⟩ | infinite
    · exact absurd finiteToo isFinite
    · change ((step.mul times).add (.finite (1 / 2))).floor = .ok place at isFloor
      rw [infinite] at isFloor
      cases isFloor

/-- No place of a light spread over a range is left of it. -/
theorem evenOffsets_nonneg {length count : Nat} {places : List Int} (lit : 0 < length)
    (some : 0 < count) (given : evenOffsets Binary64 length count = .ok places) {place : Int}
    (mem : place ∈ places) : 0 ≤ place := by
  unfold evenOffsets at given
  split at given
  · cases given
    rw [List.mem_singleton] at mem
    omega
  · rcases exists_mem_of_mapM given mem with ⟨index, -, isPlace⟩
    exact evenOffset_nonneg lit (by omega) isPlace

/-- Spread lights are lit further on where the range starts further on. -/
theorem isMoved_paintOffsets {range : PixelRange} {places : List Int}
    (inside : ∀ place ∈ places, 0 ≤ place) (isMoved : IsMoved range.first canvas moved)
    (color : Color) :
    IsMoved range.first (paintOffsets canvas (ownStrip range) color places)
      (paintOffsets moved range color places) := by
  have ordered := range.ordered
  have length_eq : range.length = range.last - range.first + 1 := rfl
  have asPlaced : paintOffsets moved range color places =
      paintOffsets moved range color (places.map id) := by rw [List.map_id]
  rw [asPlaced]
  apply IsMoved.foldl _ isMoved
  intro place mem work movedWork isMoved
  obtain ⟨pixel, rfl⟩ := Int.eq_ofNat_of_zero_le (inside place mem)
  have ownPixel : (((ownStrip range).first : Int) + (pixel : Int)).toNat = pixel := by
    simp [ownStrip]
  have movedPixel : ((range.first : Int) + (pixel : Int)).toNat = range.first + pixel := by omega
  have sameEnd : range.first + pixel ≤ range.last ↔ pixel ≤ (ownStrip range).last := by
    simp only [ownStrip]
    omega
  simp only [id, ownPixel, movedPixel, sameEnd]
  split
  · exact isMoved.insert pixel color
  · exact isMoved

/-- What a rule other than one about anchors lights in a range is what it lights on a strip of its
own, moved to where the range starts; where the one cannot be worked out, the other fails alike. -/
theorem toList_paint {rule : Spacing} (noAnchors : rule ≠ .anchorsOnly) (range : PixelRange)
    (coloring : Coloring) (roofline other : Option Roofline) :
    (rule.paint Binary64 .blank range coloring roofline).map Std.TreeMap.toList =
      (rule.paint Binary64 .blank (ownStrip range) coloring other).map fun painted =>
        painted.toList.map fun light => (range.first + light.1, light.2) := by
  have start : range.first + (ownStrip range).first = range.first := rfl
  have blank := IsMoved.blank range.first
  have filled := blank.paintRun? (ownStrip range).first range.length coloring.fill
  rw [start] at filled
  unfold paint
  rw [length_ownStrip]
  cases rule with
  | pattern on off startLit =>
      dsimp only
      split
      · exact congrArg Except.ok blank.toList_eq
      · have moved : IsMoved range.first
            (paintCycle coloring.lit coloring.fill on.toNat off.toNat .blank
              (startLit || off == 0) (ownStrip range).first range.length)
            (paintCycle coloring.lit coloring.fill on.toNat off.toNat .blank
              (startLit || off == 0) range.first range.length) := isMoved_paintCycle blank
        exact congrArg Except.ok moved.toList_eq
  | equallySpaced count =>
      dsimp only
      split
      · exact congrArg Except.ok blank.toList_eq
      · cases given : evenOffsets Binary64 range.length count.toNat with
        | error failure => rfl
        | ok places =>
            have inside : ∀ place ∈ places, 0 ≤ place := fun place =>
              evenOffsets_nonneg (Nat.succ_pos _) (by omega) given
            exact congrArg Except.ok (isMoved_paintOffsets inside filled coloring.lit).toList_eq
  | everyNth interval =>
      dsimp only
      split
      · exact congrArg Except.ok blank.toList_eq
      · rw [everyNthPixels_eq]
        refine congrArg Except.ok (IsMoved.toList_eq (IsMoved.foldl ?_ filled))
        intro pixel _ work movedWork isMoved
        exact isMoved.insert pixel coloring.lit
  | anchorsOnly => exact absurd rfl noAnchors
  | continuous =>
      have moved := blank.paintRun (ownStrip range).first range.length coloring.lit
      exact congrArg Except.ok moved.toList_eq

end Spacing

end Eaves
