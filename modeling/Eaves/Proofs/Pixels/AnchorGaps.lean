import Eaves.Pixels.Downlight
import Eaves.Proofs.Record.Form
import Eaves.Proofs.Roofline.Lookup
import Eaves.Record.Strip
import Mathlib.Algebra.Order.Floor.Ring
import Mathlib.Data.Rat.Floor

/-!
# Lights between anchors in exact arithmetic

The anchors of a segment are kept in order, so behind the width of one and in front of
the next there is no light of any other: those before start no later and are as wide.
What is spread over such a gap is left out only where it falls onto the next anchor or
beyond.

In a gap with more lights than are spread over it, the step from one to the next is at
least a whole light.  So no two are rounded to one place, and the last, which stands a
step in front of the next anchor, is not rounded up to it.
-/

namespace Eaves

open Number (Scalar)
open Outcome

/-! ## Anchors in order -/

theorem mem_insertIncreasing_iff {n m : Nat} {ns : List Nat} :
    m ∈ insertIncreasing n ns ↔ m = n ∨ m ∈ ns := by
  induction ns with
  | nil => simp [insertIncreasing]
  | cons other rest ih =>
      unfold insertIncreasing
      split
      · exact List.mem_cons
      · split
        · rename_i same
          subst same
          simp
        · rw [List.mem_cons, ih, List.mem_cons]
          tauto

theorem pairwise_insertIncreasing {n : Nat} {ns : List Nat} (ordered : ns.Pairwise (· < ·)) :
    (insertIncreasing n ns).Pairwise (· < ·) := by
  induction ns with
  | nil => simp [insertIncreasing]
  | cons other rest ih =>
      obtain ⟨least, restOrdered⟩ := List.pairwise_cons.mp ordered
      unfold insertIncreasing
      split
      · rename_i before
        refine List.pairwise_cons.mpr ⟨?_, ordered⟩
        intro m mem
        rcases List.mem_cons.mp mem with rfl | later
        · exact before
        · exact before.trans (least m later)
      · split
        · exact ordered
        · refine List.pairwise_cons.mpr ⟨?_, ih restOrdered⟩
          intro m mem
          rcases mem_insertIncreasing_iff.mp mem with rfl | later
          · omega
          · exact least m later

/-- Numbers that are put in order, each once, increase. -/
theorem pairwise_increasing (ns : List Nat) : (increasing ns).Pairwise (· < ·) := by
  induction ns with
  | nil => exact List.Pairwise.nil
  | cons n rest ih => exact pairwise_insertIncreasing ih

/-- Between two neighbours of an ordered list there is no member of it. -/
theorem outside_of_mem_zip_drop {ns : List Nat} (ordered : ns.Pairwise (· < ·)) {n next : Nat}
    (neighbours : (n, next) ∈ ns.zip (ns.drop 1)) : ∀ m ∈ ns, m ≤ n ∨ next ≤ m := by
  induction ns with
  | nil => cases neighbours
  | cons first rest ih =>
      obtain ⟨least, restOrdered⟩ := List.pairwise_cons.mp ordered
      cases rest with
      | nil => cases neighbours
      | cons second others =>
          have behind := (List.pairwise_cons.mp restOrdered).1
          intro m mem
          rcases List.mem_cons.mp neighbours with here | later
          · cases here
            rcases List.mem_cons.mp mem with rfl | inRest
            · exact .inl le_rfl
            · rcases List.mem_cons.mp inRest with rfl | inOthers
              · exact .inr le_rfl
              · exact .inr (behind m inOthers).le
          · rcases List.mem_cons.mp mem with rfl | inRest
            · exact .inl (least n (List.of_mem_zip later).1).le
            · exact ih restOrdered later m inRest

/-- Anchors that are read are in order, each once. -/
theorem pairwise_of_readAnchors {value : Value} {anchors : List Nat}
    (read : readAnchors value = .valid anchors) : anchors.Pairwise (· < ·) := by
  rcases Checked.andThen_eq_valid_iff.mp read with ⟨given, -, placed⟩
  split at placed
  · cases placed
  · cases placed
    exact pairwise_increasing _

namespace Segment

/-- A segment that is read has its own anchors in order, each once. -/
theorem pairwise_anchors_of_read {value : Value} {segment : Segment}
    (read : Segment.read value = .valid segment) : segment.anchors.Pairwise (· < ·) := by
  rcases Reader.of_strictRecord read with ⟨es, fields⟩
  rcases Checked.seq_eq_valid_iff.mp fields with ⟨_, _, upToProminent, -, rfl⟩
  rcases Checked.seq_eq_valid_iff.mp upToProminent with ⟨_, _, upToSide, -, rfl⟩
  rcases Checked.seq_eq_valid_iff.mp upToSide with ⟨_, _, upToLevel, -, rfl⟩
  rcases Checked.seq_eq_valid_iff.mp upToLevel with ⟨_, _, upToOrder, -, rfl⟩
  rcases Checked.seq_eq_valid_iff.mp upToOrder with ⟨_, _, upToWidth, -, rfl⟩
  rcases Checked.seq_eq_valid_iff.mp upToWidth with ⟨_, _, upToAnchors, -, rfl⟩
  rcases Checked.seq_eq_valid_iff.mp upToAnchors with ⟨_, anchors, upToDirection, isAnchors, rfl⟩
  rcases Checked.seq_eq_valid_iff.mp upToDirection with ⟨_, _, upToShape, -, rfl⟩
  rcases Checked.seq_eq_valid_iff.mp upToShape with ⟨_, _, upToStart, -, rfl⟩
  rcases Checked.seq_eq_valid_iff.mp upToStart with ⟨_, _, upToCount, -, rfl⟩
  rcases Checked.seq_eq_valid_iff.mp upToCount with ⟨_, _, upToName, -, rfl⟩
  rcases Checked.seq_eq_valid_iff.mp upToName with ⟨_, _, upToId, -, rfl⟩
  rcases Checked.map_eq_valid_iff.mp upToId with ⟨_, -, rfl⟩
  rcases Reader.of_defaulted isAnchors with rfl | ⟨_, isRead⟩
  · exact List.Pairwise.nil
  · exact pairwise_of_readAnchors isRead

variable {segment : Segment}

/-- The anchors in force are in order if the segment's own are. -/
theorem pairwise_effectiveAnchors (ordered : segment.anchors.Pairwise (· < ·)) :
    segment.effectiveAnchors.Pairwise (· < ·) := by
  unfold effectiveAnchors
  split
  · unfold defaultAnchors
    simp only
    split
    · exact List.Pairwise.nil
    · split
      · split
        · simp
        · simp
          omega
      · split
        · simp
        · simp
          omega
      · simp
      · simp
      · exact List.Pairwise.nil
  · exact ordered.filter _

/-! ## The lights of a gap -/

/-- How many lights there are behind the width of one anchor and in front of the next; the number is
negative where the width reaches beyond the next. -/
def gapLength (segment : Segment) (gap : Nat × Nat) : Int :=
  gap.2 - (gap.1 + segment.anchorWidth.val)

/-- The step from one light to the next where some are spread over a gap. -/
def gapStep (segment : Segment) (count : Nat) (gap : Nat × Nat) : Rat :=
  segment.gapLength gap / (count + 1)

/-- The exact place of a light that is spread over a gap, rounded with a half going up. -/
def gapOffset (segment : Segment) (count : Nat) (gap : Nat × Nat) (index : Nat) : Int :=
  gap.1 + segment.anchorWidth.val + ⌊segment.gapStep count gap * index + 1 / 2⌋

/-- The exact places of all lights that are spread over a gap. -/
def exactOffsets (segment : Segment) (count : Nat) (gap : Nat × Nat) : List Int :=
  (List.range' 1 count).map (segment.gapOffset count gap)

section Gap

variable {count index : Nat} {gap : Nat × Nat}

theorem spacedOffset_exact (segment : Segment) (count : Nat) (gap : Nat × Nat) (index : Nat) :
    spacedOffset Rat (gap.1 + segment.anchorWidth.val) (segment.gapLength gap) count index =
      .ok (segment.gapOffset count gap index) := by
  have step : Scalar.quotient (α := Rat) (segment.gapLength gap) ((count : Int) + 1) =
      .ok (segment.gapStep count gap) := by
    simp only [Scalar.quotient, if_neg (show (count : Int) + 1 ≠ 0 by omega)]
    unfold gapStep
    push_cast
    rfl
  unfold spacedOffset
  rw [step]
  rfl

/-- The step of a gap with lights is positive. -/
theorem gapStep_pos (lit : 0 < segment.gapLength gap) (count : Nat) :
    0 < segment.gapStep count gap := by
  have lights : (0 : Rat) < segment.gapLength gap := by exact_mod_cast lit
  unfold gapStep
  positivity

/-- The step is a whole light at least where there are more lights than are spread. -/
theorem one_le_gapStep (wide : (count : Int) + 1 ≤ segment.gapLength gap) :
    1 ≤ segment.gapStep count gap := by
  have room : ((count : Rat) + 1) ≤ segment.gapLength gap := by exact_mod_cast wide
  rw [gapStep, le_div_iff₀ (by positivity), one_mul]
  exact room

/-- No light that is spread falls into the width of the anchor in front of it. -/
theorem le_gapOffset (lit : 0 < segment.gapLength gap) (count index : Nat) :
    (gap.1 : Int) + segment.anchorWidth.val ≤ segment.gapOffset count gap index := by
  have step := gapStep_pos lit count
  have notLeft : 0 ≤ ⌊segment.gapStep count gap * index + 1 / 2⌋ := by
    apply Int.floor_nonneg.mpr
    positivity
  unfold gapOffset
  omega

theorem gapOffset_mono (lit : 0 < segment.gapLength gap) {other : Nat} (before : index ≤ other) :
    segment.gapOffset count gap index ≤ segment.gapOffset count gap other := by
  have step := gapStep_pos lit count
  have places : ⌊segment.gapStep count gap * index + 1 / 2⌋ ≤
      ⌊segment.gapStep count gap * other + 1 / 2⌋ := by
    gcongr
  unfold gapOffset
  omega

theorem gapOffset_strictMono (wide : (count : Int) + 1 ≤ segment.gapLength gap) {other : Nat}
    (before : index < other) :
    segment.gapOffset count gap index < segment.gapOffset count gap other := by
  have step := one_le_gapStep wide
  have apart : (index : Rat) + 1 ≤ other := by exact_mod_cast before
  have further : segment.gapStep count gap * index + 1 / 2 + 1 ≤
      segment.gapStep count gap * other + 1 / 2 := by
    have scaled := mul_le_mul_of_nonneg_left apart (zero_le_one.trans step)
    linarith
  have places := Int.floor_mono further
  rw [Int.floor_add_one] at places
  unfold gapOffset
  omega

/-- A light that is spread is in front of the next anchor where there are more lights than are
spread. -/
theorem gapOffset_lt (wide : (count : Int) + 1 ≤ segment.gapLength gap) (early : index ≤ count) :
    segment.gapOffset count gap index < gap.2 := by
  have step := one_le_gapStep wide
  have whole : segment.gapStep count gap * (count + 1) = segment.gapLength gap :=
    div_mul_cancel₀ _ (by positivity)
  have bounded : segment.gapStep count gap * index ≤ segment.gapStep count gap * count := by
    have inOrder : (index : Rat) ≤ count := by exact_mod_cast early
    gcongr
  have place : ⌊segment.gapStep count gap * index + 1 / 2⌋ < segment.gapLength gap := by
    rw [Int.floor_lt]
    linarith
  unfold gapOffset gapLength at *
  omega

end Gap

/-! ## What is spread -/

/-- The places in a gap with lights that are in front of the next anchor. -/
def keptOffsets (segment : Segment) (count : Nat) (gap : Nat × Nat) : List Int :=
  if segment.gapLength gap ≤ 0 then []
  else (segment.exactOffsets count gap).filter fun offset => decide (offset < gap.2)

theorem keptOffsets_zero (gap : Nat × Nat) : segment.keptOffsets 0 gap = [] := by
  unfold keptOffsets
  split <;> rfl

/-- No light between an anchor's width and the next anchor is in the width of any anchor. -/
theorem isAnchor_eq_false (ordered : segment.anchors.Pairwise (· < ·)) {gap : Nat × Nat}
    (isGap : gap ∈ segment.anchorGaps) {offset : Int}
    (behind : (gap.1 : Int) + segment.anchorWidth.val ≤ offset) (inFront : offset < gap.2) :
    segment.isAnchor offset = false := by
  rw [isAnchor, List.any_eq_false]
  intro anchor mem
  rw [decide_eq_true_iff]
  have outside := outside_of_mem_zip_drop (pairwise_effectiveAnchors ordered) isGap anchor mem
  omega

/-- Of what is computed for a gap, only what is not in front of the next anchor is dropped. -/
theorem gapOffsets_exact (ordered : segment.anchors.Pairwise (· < ·)) {gap : Nat × Nat}
    (isGap : gap ∈ segment.anchorGaps) (count : Nat) :
    gapOffsets Rat segment count gap.1 gap.2 = .ok (segment.keptOffsets count gap) := by
  have length : (gap.2 : Int) - 1 - (gap.1 + segment.anchorWidth.val) + 1 =
      segment.gapLength gap := by
    unfold gapLength
    omega
  unfold gapOffsets keptOffsets
  simp only [length]
  by_cases dark : segment.gapLength gap ≤ 0
  · rw [if_pos dark, if_pos dark]
    rfl
  · rw [if_neg dark, if_neg dark,
      mapM_eq_ok_map fun index _ => spacedOffset_exact segment count gap index, ok_bind]
    refine congrArg Except.ok (List.filter_congr ?_)
    intro offset mem
    obtain ⟨index, -, rfl⟩ := List.mem_map.mp mem
    have behind := le_gapOffset (not_le.mp dark) count index
    by_cases inFront : segment.gapOffset count gap index < gap.2
    · rw [isAnchor_eq_false ordered isGap behind inFront, decide_eq_true inFront,
        decide_eq_true ⟨behind, by omega⟩]
      rfl
    · rw [decide_eq_false inFront, decide_eq_false (by omega)]
      rfl

/-- All that is spread over a segment is what is kept of its gaps. -/
theorem spacedOffsets_exact (ordered : segment.anchors.Pairwise (· < ·)) (count : Int) :
    segment.spacedOffsets Rat count =
      .ok (segment.anchorGaps.map (segment.keptOffsets count.toNat)).flatten := by
  unfold spacedOffsets
  split
  · rename_i notPositive
    rw [Int.toNat_of_nonpos notPositive, funext keptOffsets_zero]
    simp
  · rw [mapM_eq_ok_map fun gap isGap => gapOffsets_exact ordered isGap count.toNat]
    rfl

/-- Offsets that a count is spread to over a gap between anchors: in order, in their gap and their
segment, and in the width of no anchor.  There are none in a gap without lights.  Else they are the
exact places that are in front of the next anchor; and where the gap has more lights than are spread
over it, these are all the places, no two the same. -/
structure AreSpread (segment : Segment) (count : Int) (gap : Nat × Nat) (offsets : List Int) :
    Prop where
  ordered : offsets.Pairwise (· ≤ ·)
  inGap : ∀ offset ∈ offsets,
    (gap.1 : Int) + segment.anchorWidth.val ≤ offset ∧ offset < gap.2
  inSegment : ∀ offset ∈ offsets, 0 ≤ offset ∧ offset < segment.pixelCount
  offAnchors : ∀ offset ∈ offsets, segment.isAnchor offset = false
  ofNoLights : segment.gapLength gap ≤ 0 → offsets = []
  ofLights : 0 < segment.gapLength gap → offsets =
    (segment.exactOffsets count.toNat gap).filter fun (offset : Int) => decide (offset < gap.2)
  ofManyLights : count + 1 ≤ segment.gapLength gap →
    offsets = segment.exactOffsets count.toNat gap ∧ offsets.length = count.toNat ∧
      offsets.Pairwise (· < ·)

/-- Where there are more lights than are spread over them, nothing is dropped. -/
theorem keptOffsets_of_wide {count : Nat} {gap : Nat × Nat}
    (wide : (count : Int) + 1 ≤ segment.gapLength gap) :
    segment.keptOffsets count gap = segment.exactOffsets count gap := by
  rw [keptOffsets, if_neg (by omega), List.filter_eq_self]
  intro offset mem
  obtain ⟨index, inRange, rfl⟩ := List.mem_map.mp mem
  have := List.mem_range'_1.mp inRange
  exact decide_eq_true (gapOffset_lt wide (by omega))

/-- What is kept of a gap is behind the width of one anchor and in front of the next. -/
theorem bounds_of_mem_keptOffsets {count : Nat} {gap : Nat × Nat} {offset : Int}
    (mem : offset ∈ segment.keptOffsets count gap) :
    (gap.1 : Int) + segment.anchorWidth.val ≤ offset ∧ offset < gap.2 := by
  unfold keptOffsets at mem
  split at mem
  · cases mem
  · obtain ⟨isExact, inFront⟩ := List.mem_filter.mp mem
    obtain ⟨index, -, rfl⟩ := List.mem_map.mp isExact
    exact ⟨le_gapOffset (by omega) count index, of_decide_eq_true inFront⟩

theorem pairwise_keptOffsets (count : Nat) (gap : Nat × Nat) :
    (segment.keptOffsets count gap).Pairwise (· ≤ ·) := by
  unfold keptOffsets
  split
  · exact List.Pairwise.nil
  · apply List.Pairwise.filter
    rw [exactOffsets, List.pairwise_map]
    exact List.pairwise_le_range'.imp fun before => gapOffset_mono (by omega) before

/-- What is kept of a gap is spread over it. -/
theorem areSpread_keptOffsets (ordered : segment.anchors.Pairwise (· < ·)) {gap : Nat × Nat}
    (isGap : gap ∈ segment.anchorGaps) (count : Int) :
    segment.AreSpread count gap (segment.keptOffsets count.toNat gap) := by
  refine ⟨pairwise_keptOffsets _ _, fun _ => bounds_of_mem_keptOffsets, ?_, ?_, ?_, ?_, ?_⟩
  · intro offset mem
    obtain ⟨behind, inFront⟩ := bounds_of_mem_keptOffsets mem
    have nextInside := effectiveAnchors_lt (List.mem_of_mem_drop (List.of_mem_zip isGap).2)
    omega
  · intro offset mem
    obtain ⟨behind, inFront⟩ := bounds_of_mem_keptOffsets mem
    exact isAnchor_eq_false ordered isGap behind inFront
  · intro dark
    exact if_pos dark
  · intro lit
    exact if_neg (not_le.mpr lit)
  · intro many
    rcases le_or_gt count 0 with nothing | positive
    · rw [Int.toNat_of_nonpos nothing, keptOffsets_zero]
      exact ⟨rfl, rfl, List.Pairwise.nil⟩
    · have wide : (count.toNat : Int) + 1 ≤ segment.gapLength gap := by omega
      rw [keptOffsets_of_wide wide]
      refine ⟨rfl, by simp [exactOffsets], ?_⟩
      rw [exactOffsets, List.pairwise_map]
      exact (List.pairwise_lt_range' 1).imp fun before => gapOffset_strictMono wide before

/-- In exact arithmetic, whatever the count, the lights between the anchors of a segment can be
computed, and are those spread over one gap after the other.  The segment's own anchors are in
order, as those of one that is read are. -/
theorem lights_between_anchors (ordered : segment.anchors.Pairwise (· < ·)) (count : Int) :
    ∃ parts, segment.spacedOffsets Rat count = .ok parts.flatten ∧
      List.Forall₂ (segment.AreSpread count) segment.anchorGaps parts := by
  refine ⟨_, spacedOffsets_exact ordered count, ?_⟩
  rw [List.forall₂_map_right_iff]
  exact List.forall₂_same.mpr fun gap isGap => areSpread_keptOffsets ordered isGap count

/-- A segment with two anchors that overlap, and gaps of six, two and four lights. -/
def unevenlyAnchored : Segment :=
  { id := "run", name := "Run", pixelCount := 20, anchors := [0, 1, 9, 13, 19] }

/-- Of three lights each, the overlapping anchors have none between them, the gap of two lights
shows one place twice and drops what falls onto the next anchor, and the others show all three. -/
theorem lights_between_anchors_unevenlyAnchored :
    unevenlyAnchored.anchors.Pairwise (· < ·) ∧
      ∃ parts, unevenlyAnchored.spacedOffsets Rat 3 = .ok parts.flatten ∧
        List.Forall₂ (unevenlyAnchored.AreSpread 3) unevenlyAnchored.anchorGaps parts ∧
        parts.flatten = [5, 6, 8, 12, 12, 16, 17, 18] := by
  obtain ⟨parts, computed, spread⟩ :=
    @lights_between_anchors unevenlyAnchored (by decide) 3
  have shown : (unevenlyAnchored.spacedOffsets Rat 3).toOption =
      some [5, 6, 8, 12, 12, 16, 17, 18] := by
    decide +kernel
  rw [computed] at shown
  exact ⟨by decide, parts, computed, spread, Option.some.inj shown⟩

end Segment

end Eaves
