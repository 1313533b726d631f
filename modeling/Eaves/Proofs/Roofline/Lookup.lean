import Eaves.Proofs.Roofline.Edits

/-!
# The segment and the anchors of a light

The segments of a roofline that is laid out lie one behind the other, so a light
belongs to one segment at most, and looking it up gives that one.  The lights of a
segment's anchors are described without a look-up: they follow the start of an
anchor, within its width and as far as the segment reaches.
-/

namespace Eaves

namespace Segment

/-- The anchors in force lie inside the segment, also where none of the segment's own do. -/
theorem effectiveAnchors_lt {segment : Segment} {anchor : Nat}
    (mem : anchor ∈ segment.effectiveAnchors) : anchor < segment.pixelCount := by
  unfold effectiveAnchors at mem
  split at mem
  · have positive := segment.anchorWidth.property
    unfold defaultAnchors at mem
    simp only at mem
    split at mem
    · cases mem
    · split at mem
      · split at mem <;> simp at mem <;> omega
      · split at mem <;> simp at mem <;> omega
      · simp only [List.mem_singleton] at mem
        omega
      · simp only [List.mem_singleton] at mem
        omega
      · cases mem
  · exact of_decide_eq_true (List.mem_filter.mp mem).2

/-- A light of the strip follows the start of an anchor of the segment, within the anchor's width
and as far as the segment reaches. -/
def IsAnchorLight (segment : Segment) (pixel : Nat) : Prop :=
  ∃ anchor ∈ segment.globalAnchors, anchor ≤ pixel ∧ pixel < anchor + segment.anchorWidth.val ∧
    pixel < segment.startPixel + segment.pixelCount

theorem mem_globalAnchors_iff {segment : Segment} {anchor : Nat} :
    anchor ∈ segment.globalAnchors ↔
      ∃ offset ∈ segment.effectiveAnchors, segment.startPixel + offset = anchor :=
  List.mem_map

/-- The anchors of a segment, counted along the strip, lie among its lights. -/
theorem globalAnchors_bounds {segment : Segment} {anchor : Nat}
    (mem : anchor ∈ segment.globalAnchors) :
    segment.startPixel ≤ anchor ∧ anchor < segment.startPixel + segment.pixelCount := by
  rcases mem_globalAnchors_iff.mp mem with ⟨offset, inForce, rfl⟩
  have := effectiveAnchors_lt inForce
  omega

theorem IsAnchorLight.contains {segment : Segment} {pixel : Nat}
    (isAnchor : segment.IsAnchorLight pixel) : segment.contains pixel = true := by
  rcases isAnchor with ⟨anchor, mem, fromAnchor, -, inside⟩
  have := globalAnchors_bounds mem
  rw [Roofline.contains_iff]
  omega

/-- Among the lights of a segment, those of its anchors are told by their offset in it. -/
theorem isAnchor_iff {segment : Segment} {pixel : Nat}
    (inside : segment.contains pixel = true) :
    segment.isAnchor (pixel - segment.startPixel) = true ↔ segment.IsAnchorLight pixel := by
  have bounds := Roofline.contains_iff.mp inside
  unfold isAnchor IsAnchorLight
  rw [List.any_eq_true]
  constructor
  · rintro ⟨offset, inForce, within⟩
    rw [decide_eq_true_iff] at within
    exact ⟨_, mem_globalAnchors_iff.mpr ⟨offset, inForce, rfl⟩, by omega, by omega, by omega⟩
  · rintro ⟨anchor, mem, fromAnchor, within, -⟩
    rcases mem_globalAnchors_iff.mp mem with ⟨offset, inForce, rfl⟩
    refine ⟨offset, inForce, decide_eq_true ?_⟩
    omega

end Segment

namespace Roofline

theorem pairwise_placeFrom (position start : Nat) (segments : List Segment) :
    (placeFrom position start segments).Pairwise fun before after =>
      before.startPixel + before.pixelCount ≤ after.startPixel := by
  induction segments generalizing position start with
  | nil => exact List.Pairwise.nil
  | cons segment rest ih =>
      rw [placeFrom_cons, List.pairwise_cons]
      refine ⟨?_, ih _ _⟩
      intro after mem
      exact start_le_of_mem_placeFrom mem

namespace LaidOut

variable {roofline : Roofline} (laidOut : roofline.LaidOut)

include laidOut

/-- The segments lie one behind the other. -/
theorem pairwise : roofline.segments.Pairwise fun before after =>
    before.startPixel + before.pixelCount ≤ after.startPixel := by
  have placed := pairwise_placeFrom 0 0 roofline.segments
  rwa [laidOut] at placed

/-- A light belongs to one segment at most. -/
theorem eq_of_contains {segment other : Segment} (mem : segment ∈ roofline.segments)
    (otherMem : other ∈ roofline.segments) {pixel : Int} (inside : segment.contains pixel = true)
    (otherInside : other.contains pixel = true) : segment = other := by
  have bounds := contains_iff.mp inside
  have fits := laidOut.end_le_total mem
  rw [total_eq_lights] at fits
  obtain ⟨found, -, only⟩ := exists_find?_placeFrom 0 0 roofline.segments
    (show ((0 : Nat) : Int) ≤ pixel by omega) (by omega)
  rw [laidOut] at only
  exact ((only segment).mp ⟨mem, inside⟩).trans ((only other).mp ⟨otherMem, otherInside⟩).symm

/-- A light belongs to the segment at one position at most. -/
theorem position_eq_of_contains {position otherPosition : Nat} {segment other : Segment}
    (isAt : roofline.segments[position]? = some segment)
    (otherAt : roofline.segments[otherPosition]? = some other) {pixel : Int}
    (inside : segment.contains pixel = true) (otherInside : other.contains pixel = true) :
    position = otherPosition := by
  have bounds := contains_iff.mp inside
  have otherBounds := contains_iff.mp otherInside
  obtain ⟨inList, rfl⟩ := List.getElem?_eq_some_iff.mp isAt
  obtain ⟨otherInList, rfl⟩ := List.getElem?_eq_some_iff.mp otherAt
  have behind := List.pairwise_iff_getElem.mp laidOut.pairwise
  rcases Nat.lt_trichotomy position otherPosition with before | same | after
  · have := behind position otherPosition inList otherInList before
    omega
  · exact same
  · have := behind otherPosition position otherInList inList after
    omega

/-- The lights of the strip are those of its segments. -/
theorem exists_contains_iff {pixel : Nat} :
    (∃ segment ∈ roofline.segments, segment.contains pixel = true) ↔ pixel < roofline.total := by
  constructor
  · rintro ⟨segment, mem, inside⟩
    have bounds := contains_iff.mp inside
    have fits := laidOut.end_le_total mem
    omega
  · intro inside
    rw [total_eq_lights] at inside
    obtain ⟨found, -, only⟩ := exists_find?_placeFrom 0 0 roofline.segments
      (show ((0 : Nat) : Int) ≤ pixel by omega) (by omega)
    rw [laidOut] at only
    exact ⟨found, (only found).mpr rfl⟩

/-- Looking a light up gives the segment it belongs to. -/
theorem segmentAt?_eq_some_iff {pixel : Int} {segment : Segment} :
    roofline.segmentAt? pixel = some segment ↔
      segment ∈ roofline.segments ∧ segment.contains pixel = true := by
  unfold segmentAt?
  constructor
  · intro found
    have inside := List.find?_some (p := fun placed : Segment => placed.contains pixel) found
    exact ⟨List.mem_of_find?_eq_some found, inside⟩
  · rintro ⟨mem, inside⟩
    cases found : roofline.segments.find? fun placed => placed.contains pixel with
    | none =>
        have outside := List.find?_eq_none.mp found segment mem
        exact absurd inside outside
    | some other =>
        have otherInside :=
          List.find?_some (p := fun placed : Segment => placed.contains pixel) found
        rw [laidOut.eq_of_contains (List.mem_of_find?_eq_some found) mem otherInside inside]

/-- A light is one of an anchor where it is one of an anchor of some segment. -/
theorem isAnchor_iff {pixel : Nat} : roofline.isAnchor pixel = true ↔
    ∃ segment ∈ roofline.segments, segment.IsAnchorLight pixel := by
  unfold isAnchor
  constructor
  · intro isAnchor
    split at isAnchor
    · rename_i segment found
      rcases laidOut.segmentAt?_eq_some_iff.mp found with ⟨mem, inside⟩
      exact ⟨segment, mem, (Segment.isAnchor_iff inside).mp isAnchor⟩
    · cases isAnchor
  · rintro ⟨segment, mem, isAnchor⟩
    rw [laidOut.segmentAt?_eq_some_iff.mpr ⟨mem, isAnchor.contains⟩]
    exact (Segment.isAnchor_iff isAnchor.contains).mpr isAnchor

end LaidOut

end Roofline

end Eaves
