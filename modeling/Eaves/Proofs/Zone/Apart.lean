import Eaves.Proofs.Roofline.Lookup
import Eaves.Proofs.Zone.Ranges
import Mathlib.Data.Finset.Card

/-!
# Ranges of a zone that lie apart

No light lies in two ranges of a zone, since on a roofline that is laid out no light
lies in two segments; only the ranges of a zone that is given by ranges may overlap,
where the given ones do.  And unless a zone is given by ranges, none of its ranges
cuts through a segment.

Whether two zones of one kind can share lights is judged from what they name.  The
judgement can be held against a roofline: on one that is laid out, two named zones
share a light exactly where some segment with lights is covered by both.  Where they
are judged apart there are two ways to such a segment.  Features are coarser than
shapes, so two features may cover segments of one shape; and a segment without a side
of its own faces every side that its name speaks of.

The lights of a zone are counted range by range.  So the count is the number of its
lights where its ranges lie apart, and too great where given ranges share a light.
-/

namespace Eaves.Zone

/-- The ranges that the zone is given by, if any, do not overlap. -/
def IsApart : Zone → Prop
  | .custom ranges => ranges.val.Pairwise fun a b => a.overlaps b = false
  | _ => True

/-- No light of the strip lies in two of the ranges that the zone is given by, if any. -/
def CountsOnce (zone : Zone) (roofline : Roofline) : Prop :=
  match zone with
  | .custom spans => spans.val.Pairwise fun a b =>
      ∀ pixel < roofline.total, ¬(a.Contains pixel ∧ b.Contains pixel)
  | _ => True

instance (roofline : Roofline) : (zone : Zone) → Decidable (zone.CountsOnce roofline)
  | .custom spans => inferInstanceAs (Decidable (spans.val.Pairwise fun a b =>
      ∀ pixel < roofline.total, ¬(a.Contains pixel ∧ b.Contains pixel)))
  | .all | .segments _ | .features _ | .side _ | .level _ => inferInstanceAs (Decidable True)

theorem not_overlaps_iff {a b : PixelRange} :
    a.overlaps b = false ↔ a.last < b.first ∨ b.last < a.first := by
  rw [PixelRange.overlaps, decide_eq_false_iff_not]
  omega

theorem clip?_eq_some_iff {range clipped : PixelRange} {total : Nat} :
    range.clip? total = some clipped ↔ range.first < total ∧ clipped.first = range.first ∧
      clipped.last = min range.last (total - 1) := by
  unfold PixelRange.clip?
  split
  · rename_i inside
    rw [Option.some.injEq]
    constructor
    · rintro rfl
      exact ⟨inside, rfl, rfl⟩
    · rintro ⟨-, first, last⟩
      apply PixelRange.eq_of_ends
      · exact first.symm
      · exact last.symm
  · simp only [reduceCtorEq, false_iff]
    omega

/-- What is cut of a range at the end of the strip holds the lights of the range that are on it. -/
theorem exists_clip?_iff {range : PixelRange} {total pixel : Nat} :
    (∃ clipped, range.clip? total = some clipped ∧ clipped.Contains pixel) ↔
      pixel < total ∧ range.Contains pixel := by
  constructor
  · rintro ⟨clipped, clips, fromFirst, toLast⟩
    obtain ⟨inside, first, last⟩ := clip?_eq_some_iff.mp clips
    exact ⟨by omega, by omega, by omega⟩
  · rintro ⟨onStrip, fromFirst, toLast⟩
    refine ⟨⟨range.first, min range.last (total - 1), by omega⟩, ?_, fromFirst, ?_⟩
    · exact clip?_eq_some_iff.mpr ⟨by omega, rfl, rfl⟩
    · exact le_min toLast (by omega)

/-- The ranges of segments that lie one behind the other lie so too. -/
theorem ascending_filterMap_range? {segments : List Segment}
    (behind : segments.Pairwise fun before after =>
      before.startPixel + before.pixelCount ≤ after.startPixel) :
    (segments.filterMap Segment.range?).Pairwise fun a b => a.last < b.first := by
  apply List.Pairwise.filterMap _ _ behind
  intro before after follows a isA b isB
  obtain ⟨lit, -, last⟩ := range?_eq_some_iff.mp isA
  obtain ⟨-, first, -⟩ := range?_eq_some_iff.mp isB
  omega

/-- The ranges of a zone ascend, each behind the one before it, unless the zone is given by
ranges. -/
theorem ascending_ranges {zone : Zone} (named : ∀ spans, zone ≠ .custom spans)
    {roofline : Roofline} (laidOut : roofline.LaidOut) :
    (zone.ranges roofline).Pairwise fun a b => a.last < b.first := by
  unfold ranges
  simp only
  split
  · exact List.Pairwise.nil
  · split
    · exact List.pairwise_singleton _ _
    · exact absurd rfl (named _)
    · exact ascending_filterMap_range? (laidOut.pairwise.sublist (zone.segmentsOn_sublist roofline))

/-- The ranges on the strip overlap nowhere exactly if none of its lights lies in two of the given
ones. -/
theorem pairwise_ranges_iff {zone : Zone} {roofline : Roofline} (laidOut : roofline.LaidOut) :
    ((zone.ranges roofline).Pairwise fun a b => a.overlaps b = false) ↔
      zone.CountsOnce roofline := by
  by_cases given : ∃ spans, zone = .custom spans
  · obtain ⟨spans, rfl⟩ := given
    unfold ranges CountsOnce
    simp only
    split
    · rename_i dark
      simp [dark, List.pairwise_of_forall]
    · rw [List.pairwise_filterMap]
      apply List.Pairwise.iff
      intro a b
      constructor
      · rintro apart pixel onStrip ⟨inA, inB⟩
        obtain ⟨clippedA, isA, insideA⟩ := exists_clip?_iff.mpr ⟨onStrip, inA⟩
        obtain ⟨clippedB, isB, insideB⟩ := exists_clip?_iff.mpr ⟨onStrip, inB⟩
        have overlapping := (PixelRange.overlaps_iff _ _).mpr ⟨pixel, insideA, insideB⟩
        exact absurd (apart clippedA isA clippedB isB) (by simp [overlapping])
      · intro once clippedA isA clippedB isB
        rw [← Bool.not_eq_true, PixelRange.overlaps_iff]
        rintro ⟨pixel, insideA, insideB⟩
        obtain ⟨onStrip, inA⟩ := exists_clip?_iff.mp ⟨clippedA, isA, insideA⟩
        obtain ⟨-, inB⟩ := exists_clip?_iff.mp ⟨clippedB, isB, insideB⟩
        exact once pixel onStrip ⟨inA, inB⟩
  · have once : zone.CountsOnce roofline := by
      cases zone with
      | custom spans => exact absurd ⟨spans, rfl⟩ given
      | _ => trivial
    have apart := (ascending_ranges (not_exists.mp given) laidOut).imp fun behind =>
      not_overlaps_iff.mpr (.inl behind)
    exact iff_of_true apart once

/-- Ranges that do not overlap share no light of any strip. -/
theorem IsApart.countsOnce {zone : Zone} (apart : zone.IsApart) (roofline : Roofline) :
    zone.CountsOnce roofline := by
  cases zone with
  | custom spans =>
      apply List.Pairwise.imp _ apart
      rintro a b disjoint pixel - ⟨inA, inB⟩
      rw [← Bool.not_eq_true, PixelRange.overlaps_iff] at disjoint
      exact disjoint ⟨pixel, inA, inB⟩
  | _ => trivial

/-- The ranges of a zone do not overlap, unless it is given by ranges that do. -/
theorem pairwise_ranges {zone : Zone} (apart : zone.IsApart) {roofline : Roofline}
    (laidOut : roofline.LaidOut) :
    (zone.ranges roofline).Pairwise fun a b => a.overlaps b = false :=
  (pairwise_ranges_iff laidOut).mpr (apart.countsOnce roofline)

/-- A range that shares a light with a segment starts at or before it, unless the zone is given by
ranges. -/
theorem first_le_startPixel {zone : Zone} (named : ∀ ranges, zone ≠ .custom ranges)
    {roofline : Roofline} (laidOut : roofline.LaidOut) {range : PixelRange}
    (isRange : range ∈ zone.ranges roofline) {segment : Segment}
    (mem : segment ∈ roofline.segments) {pixel : Nat} (inRange : range.Contains pixel)
    (inSegment : segment.contains pixel = true) : range.first ≤ segment.startPixel := by
  unfold ranges at isRange
  simp only at isRange
  split at isRange
  · cases isRange
  · split at isRange
    · rw [List.mem_singleton] at isRange
      subst isRange
      exact Nat.zero_le _
    · exact absurd rfl (named _)
    · rcases List.mem_filterMap.mp isRange with ⟨other, covered, isIts⟩
      obtain ⟨lit, first, last⟩ := range?_eq_some_iff.mp isIts
      have otherInside : other.contains pixel = true := by
        rw [Roofline.contains_iff]
        have := inRange.1
        have := inRange.2
        omega
      have same := laidOut.eq_of_contains ((zone.segmentsOn_sublist roofline).subset covered) mem
        otherInside inSegment
      exact Nat.le_of_eq (same ▸ first)

/-! ## Zones of one kind that meet -/

/-- A light lies in one of the ranges that a zone addresses. -/
def Addresses (zone : Zone) (roofline : Roofline) (pixel : Nat) : Prop :=
  ∃ range ∈ zone.ranges roofline, range.Contains pixel

/-- Some light is addressed by both of two zones. -/
def Meet (a b : Zone) (roofline : Roofline) : Prop :=
  ∃ pixel, a.Addresses roofline pixel ∧ b.Addresses roofline pixel

/-! ## Meeting in a segment -/

section Segments

variable {a b : Zone} {roofline : Roofline} {pixel : Nat}

/-- A zone that is not the whole roofline and not given by ranges addresses the lights of the
segments it covers. -/
theorem addresses_iff_of_ranges_eq (laidOut : roofline.LaidOut)
    (ranges_eq : a.ranges roofline =
      if roofline.total = 0 then [] else (a.segmentsOn roofline).filterMap Segment.range?) :
    a.Addresses roofline pixel ↔
      ∃ segment ∈ a.segmentsOn roofline, segment.contains pixel = true := by
  unfold Addresses
  rw [ranges_eq]
  constructor
  · rintro ⟨range, isRange, inside⟩
    split at isRange
    · cases isRange
    · rcases List.mem_filterMap.mp isRange with ⟨segment, covered, isIts⟩
      obtain ⟨lit, first, last⟩ := range?_eq_some_iff.mp isIts
      have := inside.1
      have := inside.2
      refine ⟨segment, covered, ?_⟩
      rw [Roofline.contains_iff]
      omega
  · rintro ⟨segment, covered, inside⟩
    rw [Roofline.contains_iff] at inside
    have fits := laidOut.end_le_total ((a.segmentsOn_sublist roofline).subset covered)
    have lit : segment.pixelCount ≠ 0 := by omega
    rw [if_neg (show roofline.total ≠ 0 by omega)]
    refine ⟨⟨segment.startPixel, segment.startPixel + (segment.pixelCount - 1), by omega⟩,
      List.mem_filterMap.mpr ⟨segment, covered, ?_⟩, ?_⟩
    · rw [Segment.range?, if_neg lit]
    · constructor <;> simp only <;> omega

/-- Two zones that address the lights of the segments they cover meet where both cover a segment
that has lights. -/
theorem meet_iff_of_segments (laidOut : roofline.LaidOut)
    (ofA : ∀ pixel, a.Addresses roofline pixel ↔
      ∃ segment ∈ a.segmentsOn roofline, segment.contains pixel = true)
    (ofB : ∀ pixel, b.Addresses roofline pixel ↔
      ∃ segment ∈ b.segmentsOn roofline, segment.contains pixel = true) :
    a.Meet b roofline ↔ ∃ segment, segment ∈ a.segmentsOn roofline ∧
      segment ∈ b.segmentsOn roofline ∧ 0 < segment.pixelCount := by
  constructor
  · rintro ⟨pixel, inA, inB⟩
    rcases (ofA pixel).mp inA with ⟨segment, covered, inside⟩
    rcases (ofB pixel).mp inB with ⟨other, coveredToo, otherInside⟩
    have same : segment = other :=
      laidOut.eq_of_contains ((a.segmentsOn_sublist roofline).subset covered)
        ((b.segmentsOn_sublist roofline).subset coveredToo) inside otherInside
    subst same
    rw [Roofline.contains_iff] at inside
    exact ⟨segment, covered, coveredToo, by omega⟩
  · rintro ⟨segment, covered, coveredToo, lit⟩
    have inside : segment.contains segment.startPixel = true := by
      rw [Roofline.contains_iff]
      omega
    exact ⟨segment.startPixel, (ofA _).mpr ⟨segment, covered, inside⟩,
      (ofB _).mpr ⟨segment, coveredToo, inside⟩⟩

end Segments

theorem share_eq_true_iff {α : Type} [DecidableEq α] {xs ys : List α} :
    share xs ys = true ↔ ∃ x ∈ xs, x ∈ ys := by
  simp [share]

/-- Ranges that are judged apart stay so when they are cut at the end of the strip. -/
theorem not_meet_custom {spans others : NonEmpty PixelRange}
    (apart : (custom spans).overlaps (.custom others) = false) (roofline : Roofline) :
    ¬ (custom spans).Meet (.custom others) roofline := by
  rintro ⟨pixel, ⟨range, isRange, inside⟩, ⟨other, isOther, otherInside⟩⟩
  unfold ranges at isRange isOther
  simp only at isRange isOther
  split at isRange
  · cases isRange
  · rename_i lit
    rw [if_neg lit] at isOther
    rcases List.mem_filterMap.mp isRange with ⟨span, isSpan, clips⟩
    rcases List.mem_filterMap.mp isOther with ⟨otherSpan, isOtherSpan, otherClips⟩
    obtain ⟨-, first, last⟩ := clip?_eq_some_iff.mp clips
    obtain ⟨-, otherFirst, otherLast⟩ := clip?_eq_some_iff.mp otherClips
    have overlapping : span.overlaps otherSpan = true := by
      rw [PixelRange.overlaps_iff]
      have := inside.1
      have := inside.2
      have := otherInside.1
      have := otherInside.2
      exact ⟨pixel, ⟨by omega, by omega⟩, by omega, by omega⟩
    have judged : (custom spans).overlaps (.custom others) = true :=
      List.any_eq_true.mpr ⟨span, isSpan, List.any_eq_true.mpr ⟨otherSpan, isOtherSpan,
        overlapping⟩⟩
    rw [judged] at apart
    cases apart

/-! ## Where judging apart fails -/

/-- A segment is covered by two zones of one kind although these name nothing in common: two
features are of its shape, or it has no side of its own and its name speaks of both sides. -/
def IsInBoth (segment : Segment) : Zone → Zone → Prop
  | .features named, .features others =>
      ∃ feature ∈ named.val, ∃ other ∈ others.val,
        feature.shape? = some segment.shape ∧ other.shape? = some segment.shape
  | .side face, .side other =>
      segment.side = none ∧ segment.faces face = true ∧ segment.faces other = true
  | _, _ => False

/-- There are segments that two zones of one kind cover although these name nothing in common. -/
def CanMeet : Zone → Zone → Prop
  | .features named, .features others =>
      ∃ feature ∈ named.val, ∃ other ∈ others.val, ∃ shape,
        feature.shape? = some shape ∧ other.shape? = some shape
  | .side _, .side _ => True
  | _, _ => False

/-- Zones of one kind that are judged apart meet on a roofline where a segment with lights is in
both. -/
theorem meet_iff_of_apart {a b : Zone} (sameKind : a.tag = b.tag) (apart : a.overlaps b = false)
    {roofline : Roofline} (laidOut : roofline.LaidOut) :
    a.Meet b roofline ↔
      ∃ segment ∈ roofline.segments, 0 < segment.pixelCount ∧ IsInBoth segment a b := by
  cases a with
  | all => cases apart
  | segments ids =>
      cases b with
      | segments others =>
          rw [meet_iff_of_segments laidOut (fun _ => addresses_iff_of_ranges_eq laidOut rfl)
            fun _ => addresses_iff_of_ranges_eq laidOut rfl]
          simp only [IsInBoth, and_false, exists_false, iff_false]
          rintro ⟨segment, covered, coveredToo, -⟩
          have listed := (List.mem_filter.mp covered).2
          have listedToo := (List.mem_filter.mp coveredToo).2
          have judged : share ids.val others.val = true :=
            share_eq_true_iff.mpr ⟨segment.id, by simpa using listed, by simpa using listedToo⟩
          exact Bool.false_ne_true (apart.symm.trans judged)
      | _ => simp [tag] at sameKind
  | features named =>
      cases b with
      | features others =>
          rw [meet_iff_of_segments laidOut (fun _ => addresses_iff_of_ranges_eq laidOut rfl)
            fun _ => addresses_iff_of_ranges_eq laidOut rfl]
          simp only [segmentsOn, List.mem_filter, Feature.cover, List.any_eq_true, beq_iff_eq,
            IsInBoth]
          constructor
          · rintro ⟨segment, ⟨mem, feature, isNamed, ofFeature⟩, ⟨-, other, isOther, ofOther⟩, lit⟩
            exact ⟨segment, mem, lit, feature, isNamed, other, isOther, ofFeature, ofOther⟩
          · rintro ⟨segment, mem, lit, feature, isNamed, other, isOther, ofFeature, ofOther⟩
            exact ⟨segment, ⟨mem, feature, isNamed, ofFeature⟩, ⟨mem, other, isOther, ofOther⟩, lit⟩
      | _ => simp [tag] at sameKind
  | side face =>
      cases b with
      | side other =>
          have differ : face ≠ other := fun same => by
            rw [overlaps, same, beq_self_eq_true] at apart
            cases apart
          rw [meet_iff_of_segments laidOut (fun _ => addresses_iff_of_ranges_eq laidOut rfl)
            fun _ => addresses_iff_of_ranges_eq laidOut rfl]
          simp only [segmentsOn, List.mem_filter, IsInBoth]
          constructor
          · rintro ⟨segment, ⟨mem, faces⟩, ⟨-, facesToo⟩, lit⟩
            refine ⟨segment, mem, lit, ?_, faces, facesToo⟩
            -- a segment with a side of its own faces that one only
            cases own : segment.side with
            | none => rfl
            | some side =>
                simp only [Segment.faces, own, beq_iff_eq] at faces facesToo
                exact absurd (faces.symm.trans facesToo) differ
          · rintro ⟨segment, mem, lit, -, faces, facesToo⟩
            exact ⟨segment, ⟨mem, faces⟩, ⟨mem, facesToo⟩, lit⟩
      | _ => simp [tag] at sameKind
  | level storey =>
      cases b with
      | level other =>
          rw [meet_iff_of_segments laidOut (fun _ => addresses_iff_of_ranges_eq laidOut rfl)
            fun _ => addresses_iff_of_ranges_eq laidOut rfl]
          simp only [IsInBoth, and_false, exists_false, iff_false]
          rintro ⟨segment, covered, coveredToo, -⟩
          have onIt : (segment.level.val : Int) = storey.val :=
            of_decide_eq_true (List.mem_filter.mp covered).2
          have onOther : (segment.level.val : Int) = other.val :=
            of_decide_eq_true (List.mem_filter.mp coveredToo).2
          have same : storey = other := Subtype.ext (by omega)
          rw [overlaps, same, beq_self_eq_true] at apart
          cases apart
      | _ => simp [tag] at sameKind
  | custom spans =>
      cases b with
      | custom others =>
          have never := not_meet_custom apart roofline
          simp [IsInBoth, never]
      | _ => simp [tag] at sameKind

/-- A roofline of a single segment of ten lights, without a side of its own. -/
def ofOneSegment (shape : Shape) (name : String) : Roofline :=
  { segments := [{ id := "only", name := name, pixelCount := 10, shape := shape }] }

theorem isBuilt_ofOneSegment (shape : Shape) (name : String) :
    (ofOneSegment shape name).IsBuilt :=
  ⟨rfl, List.nodup_singleton _⟩

/-- Some name speaks of every side. -/
theorem faces_everySide (face : Side) :
    ∀ segment ∈ (ofOneSegment .run "front back left right").segments,
      segment.faces face = true := by
  intro segment mem
  rw [List.mem_singleton.mp mem]
  cases face <;> decide +kernel

/-- Two zones of one kind that are judged apart share a light exactly where a segment with lights is
in both.  There is a roofline on which they do exactly where they name features of one shape or two
sides, so for segments, storeys and ranges judging apart never fails. -/
theorem apart_zones_meet_iff {a b : Zone} (sameKind : a.tag = b.tag)
    (apart : a.overlaps b = false) :
    (∀ roofline : Roofline, roofline.LaidOut → (a.Meet b roofline ↔
      ∃ segment ∈ roofline.segments, 0 < segment.pixelCount ∧ IsInBoth segment a b)) ∧
    ((∃ roofline : Roofline, roofline.IsBuilt ∧ a.Meet b roofline) ↔ CanMeet a b) := by
  refine ⟨fun roofline laidOut => meet_iff_of_apart sameKind apart laidOut, ?_⟩
  constructor
  · rintro ⟨roofline, built, meet⟩
    rcases (meet_iff_of_apart sameKind apart built.laidOut).mp meet with ⟨segment, -, -, inBoth⟩
    cases a <;> cases b
    case features.features =>
      rcases inBoth with ⟨feature, isNamed, other, isOther, ofFeature, ofOther⟩
      exact ⟨feature, isNamed, other, isOther, segment.shape, ofFeature, ofOther⟩
    case side.side => trivial
    all_goals exact inBoth
  · intro canMeet
    cases a <;> cases b
    case features.features named others =>
      rcases canMeet with ⟨feature, isNamed, other, isOther, shape, ofFeature, ofOther⟩
      have built := isBuilt_ofOneSegment shape "Eave"
      refine ⟨_, built, (meet_iff_of_apart sameKind apart built.laidOut).mpr ?_⟩
      exact ⟨_, List.mem_singleton_self _, Nat.succ_pos 9, feature, isNamed, other, isOther,
        ofFeature, ofOther⟩
    case side.side face other =>
      have built := isBuilt_ofOneSegment .run "front back left right"
      refine ⟨_, built, (meet_iff_of_apart sameKind apart built.laidOut).mpr ?_⟩
      exact ⟨_, List.mem_singleton_self _, by decide, rfl,
        faces_everySide face _ (List.mem_singleton_self _),
        faces_everySide other _ (List.mem_singleton_self _)⟩
    all_goals exact canMeet.elim

/-- The front yard is on the front and in the yard, so the front and the back meet there. -/
theorem apart_zones_meet_iff_frontYard :
    (side .front).tag = (side .back).tag ∧ (side .front).overlaps (.side .back) = false ∧
      (ofOneSegment .run "Front yard").IsBuilt ∧
      (side .front).Meet (.side .back) (ofOneSegment .run "Front yard") ∧
      CanMeet (.side .front) (.side .back) := by
  have apart : (side .front).overlaps (.side .back) = false := by decide
  have built := isBuilt_ofOneSegment .run "Front yard"
  obtain ⟨onRoofline, somewhere⟩ := apart_zones_meet_iff (a := .side .front) (b := .side .back)
    rfl apart
  have meet : (side .front).Meet (.side .back) (ofOneSegment .run "Front yard") := by
    rw [onRoofline _ built.laidOut]
    exact ⟨_, List.mem_singleton_self _, by decide, rfl, by decide +kernel, by decide +kernel⟩
  exact ⟨rfl, apart, built, meet, somewhere.mp ⟨_, built, meet⟩⟩

/-- Eaves and runs are judged apart, and are the same segments. -/
theorem eaves_are_runs_but_judged_apart :
    (features (.singleton .eave)).tag = (features (.singleton .run)).tag ∧
      (features (.singleton .eave)).overlaps (.features (.singleton .run)) = false ∧
      (ofOneSegment .run "Eave").IsBuilt ∧
      (features (.singleton .eave)).Addresses (ofOneSegment .run "Eave") 0 ∧
      (features (.singleton .run)).Addresses (ofOneSegment .run "Eave") 0 := by
  refine ⟨rfl, by decide, isBuilt_ofOneSegment .run "Eave", ?_, ?_⟩
  all_goals exact ⟨⟨0, 9, by decide⟩, List.mem_singleton_self _, by decide⟩

/-! ## The number of lights -/

/-- The lights of the ranges of a zone, range by range. -/
def lightsInTurn (zone : Zone) (roofline : Roofline) : List Nat :=
  (zone.ranges roofline).flatMap fun range => List.range' range.first range.length

/-- The lights of a zone. -/
def lights (zone : Zone) (roofline : Roofline) : Finset Nat :=
  (zone.lightsInTurn roofline).toFinset

/-- A zone that goes by tags of segments; a share of the strip stands in where none has them. -/
def IsTagged : Zone → Prop
  | .features _ | .side _ => True
  | _ => False

section Counting

variable {zone : Zone} {roofline : Roofline}

theorem mem_range'_iff {range : PixelRange} {pixel : Nat} :
    pixel ∈ List.range' range.first range.length ↔ range.Contains pixel := by
  have := range.ordered
  rw [List.mem_range'_1, PixelRange.length, PixelRange.Contains]
  omega

/-- The lights of a zone are those it addresses. -/
theorem mem_lights_iff {pixel : Nat} :
    pixel ∈ zone.lights roofline ↔ zone.Addresses roofline pixel := by
  simp [lights, lightsInTurn, Addresses, mem_range'_iff, -List.mem_range'_1]

theorem length_lightsInTurn (zone : Zone) (roofline : Roofline) :
    (zone.lightsInTurn roofline).length =
      ((zone.ranges roofline).map PixelRange.length).sum := by
  simp [lightsInTurn, List.length_flatMap]

/-- No light comes twice exactly where no two ranges overlap. -/
theorem nodup_lightsInTurn_iff :
    (zone.lightsInTurn roofline).Nodup ↔
      (zone.ranges roofline).Pairwise fun a b => a.overlaps b = false := by
  rw [lightsInTurn, List.nodup_flatMap, and_iff_right fun range _ => List.nodup_range' 1]
  apply List.Pairwise.iff
  intro a b
  rw [Function.onFun, List.disjoint_left, ← Bool.not_eq_true, PixelRange.overlaps_iff, not_exists]
  simp only [mem_range'_iff, not_and]

/-- A zone counts the lights of its ranges, unless tags are asked for that no segment has. -/
theorem pixelCount_eq_length (covers : zone.IsTagged → zone.ranges roofline ≠ [])
    (settings : CheckSettings) :
    zone.pixelCount roofline settings = .ok (zone.lightsInTurn roofline).length := by
  rw [length_lightsInTurn]
  by_cases empty : zone.ranges roofline = []
  · have untagged : ¬zone.IsTagged := fun tagged => covers tagged empty
    unfold pixelCount
    rw [empty]
    cases zone with
    | features named => exact absurd trivial untagged
    | side face => exact absurd trivial untagged
    | _ => rfl
  · exact pixelCount_eq_sum empty settings

/-- A zone counts its lights exactly where no light lies in two of the ranges it is given by, and
counts too many where one does; only tags that no segment with lights has are not counted. -/
theorem pixelCount_eq_card_iff (laidOut : roofline.LaidOut)
    (covers : zone.IsTagged → ∃ pixel, zone.Addresses roofline pixel) (settings : CheckSettings) :
    ∃ count, zone.pixelCount roofline settings = .ok count ∧
      (zone.lights roofline).card ≤ count ∧
      (count = (zone.lights roofline).card ↔ zone.CountsOnce roofline) := by
  have coversSome : zone.IsTagged → zone.ranges roofline ≠ [] := by
    intro tagged
    obtain ⟨pixel, range, mem, -⟩ := covers tagged
    exact List.ne_nil_of_mem mem
  refine ⟨_, pixelCount_eq_length coversSome settings, List.toFinset_card_le _, ?_⟩
  rw [← pairwise_ranges_iff laidOut, ← nodup_lightsInTurn_iff, eq_comm]
  exact Multiset.toFinset_card_eq_card_iff_nodup

end Counting

/-- Lights 1 to 4 and 8 to 12 and what follows light 10, given as three ranges. -/
def endsBeyondStrip : Zone :=
  .custom ⟨[⟨1, 4, by decide⟩, ⟨8, 12, by decide⟩, ⟨11, 20, by decide⟩], by decide⟩

/-- On ten lights the ranges no longer overlap, so the six lights are counted once each; all ten
are eaves. -/
theorem pixelCount_eq_card_iff_endsBeyondStrip :
    (ofOneSegment .run "Eave").LaidOut ∧ ¬endsBeyondStrip.IsTagged ∧
      endsBeyondStrip.pixelCount (ofOneSegment .run "Eave") {} = .ok 6 ∧
      endsBeyondStrip.lights (ofOneSegment .run "Eave") = {1, 2, 3, 4, 8, 9} ∧
      (features (.singleton .eave)).Addresses (ofOneSegment .run "Eave") 0 ∧
      (features (.singleton .eave)).pixelCount (ofOneSegment .run "Eave") {} = .ok 10 := by
  have laidOut := (isBuilt_ofOneSegment .run "Eave").laidOut
  have untagged : ¬endsBeyondStrip.IsTagged := id
  have six : endsBeyondStrip.lights (ofOneSegment .run "Eave") = {1, 2, 3, 4, 8, 9} := by decide
  have ten : (features (.singleton .eave)).lights (ofOneSegment .run "Eave") = .range 10 := by
    decide
  have isEave : (features (.singleton .eave)).Addresses (ofOneSegment .run "Eave") 0 := by
    rw [← mem_lights_iff, ten]
    decide
  obtain ⟨count, counted, -, isCard⟩ :=
    pixelCount_eq_card_iff laidOut (fun tagged => absurd tagged untagged) {}
  obtain ⟨eaves, countedEaves, -, areEaves⟩ :=
    pixelCount_eq_card_iff laidOut (fun _ => ⟨0, isEave⟩) {}
  refine ⟨laidOut, untagged, ?_, six, isEave, ?_⟩
  · rw [counted, isCard.mpr (by decide), six]
    rfl
  · rw [countedEaves, areEaves.mpr trivial, ten]
    rfl

/-- Two given ranges that share two lights are counted as nine lights, where there are seven. -/
theorem overlapping_ranges_count_twice :
    (ofOneSegment .run "Eave").IsBuilt ∧
      (custom (.pair ⟨0, 4, by decide⟩ ⟨3, 6, by decide⟩)).pixelCount
        (ofOneSegment .run "Eave") {} = .ok 9 ∧
      ((custom (.pair ⟨0, 4, by decide⟩ ⟨3, 6, by decide⟩)).lights
        (ofOneSegment .run "Eave")).card = 7 :=
  ⟨isBuilt_ofOneSegment .run "Eave", by decide, by decide⟩

end Eaves.Zone
