import Eaves.Pixels.Downlight
import Eaves.Proofs.Pixels.Merging
import Eaves.Proofs.Pixels.Offsets
import Eaves.Proofs.Roofline.Lookup

/-!
# What templates light

A template makes its groups segment by segment and merges them, so they show what the
groups of its segments do.

Four templates fill whole segments, each segment in a colour of its own; segments do
not overlap, so no light is in two groups.  Downlighting puts groups at anchors and
single lights between them.  Anchors may overlap, but all their groups have one colour,
and a light between anchors that falls into the width of any anchor is left out.

Only the places of the lights between anchors are computed with ratios, so nothing else
about a template can fail.
-/

namespace Eaves

open Number (Binary64)
open Outcome

namespace Group

/-! ## Groups of stretches -/

theorem ofSpan_eq_ok_iff {first last : Nat} {color : Color} {group : Group} :
    ofSpan first last color = .ok group ↔
      group.first = first ∧ group.last = last ∧ group.color = color := by
  unfold ofSpan span?
  by_cases ordered : first ≤ last
  · simp only [dif_pos ordered, Except.ok.injEq]
    constructor
    · rintro rfl
      exact ⟨rfl, rfl, rfl⟩
    · rintro ⟨sameFirst, sameLast, sameColor⟩
      exact eq_of_ends sameFirst.symm sameLast.symm sameColor.symm
  · simp only [dif_neg ordered, reduceCtorEq, false_iff]
    rintro ⟨rfl, rfl, -⟩
    exact ordered group.ordered

/-- A stretch that ends where it starts or later is a group, which shows the stretch. -/
theorem exists_ofSpan {first last : Nat} (ordered : first ≤ last) (color : Color) :
    ∃ group, ofSpan first last color = .ok group ∧
      Shows [group] fun pixel shown => (first ≤ pixel ∧ pixel ≤ last) ∧ shown = color := by
  refine ⟨⟨first, last, color, ordered⟩, ofSpan_eq_ok_iff.mpr ⟨rfl, rfl, rfl⟩, ?_⟩
  intro pixel shown
  rw [mem_expand_iff]
  simp only [List.mem_singleton, exists_eq_left, mem_pixels_iff, eq_comm]

end Group

namespace Segment

variable {segment : Segment}

/-! ## The groups of a segment -/

/-- A segment with lights is one group, which shows its lights. -/
theorem exists_wholeGroup (lit : 0 < segment.pixelCount) (color : Color) :
    ∃ group, segment.wholeGroup color = .ok group ∧
      Group.Shows [group] fun pixel shown => segment.contains pixel = true ∧ shown = color := by
  obtain ⟨group, isGroup, shows⟩ := Group.exists_ofSpan
    (show segment.startPixel ≤ segment.startPixel + segment.pixelCount - 1 by omega) color
  refine ⟨group, isGroup, shows.congr ?_⟩
  intro pixel shown
  rw [Roofline.contains_iff]
  exact and_congr_left fun _ => by omega

/-- The anchors of a segment are groups, which show the lights of its anchors. -/
theorem exists_anchorGroups (segment : Segment) (color : Color) :
    ∃ groups, segment.anchorGroups color = .ok groups ∧
      Group.Shows groups fun pixel shown => segment.IsAnchorLight pixel ∧ shown = color := by
  have made : ∀ anchor ∈ segment.globalAnchors, ∃ group,
      Group.ofSpan anchor (min (anchor + segment.anchorWidth.val - 1)
          (segment.startPixel + segment.pixelCount - 1)) color = .ok group ∧
        Group.Shows [group] fun pixel shown => (anchor ≤ pixel ∧
          pixel ≤ min (anchor + segment.anchorWidth.val - 1)
            (segment.startPixel + segment.pixelCount - 1)) ∧ shown = color := by
    intro anchor mem
    have bounds := globalAnchors_bounds mem
    have positive := segment.anchorWidth.property
    exact Group.exists_ofSpan (by omega) color
  obtain ⟨groups, ran, shows⟩ := Group.Shows.exists_mapM made
  refine ⟨groups, ran, shows.congr ?_⟩
  intro pixel shown
  constructor
  · rintro ⟨anchor, mem, ⟨fromAnchor, within⟩, rfl⟩
    have bounds := globalAnchors_bounds mem
    have positive := segment.anchorWidth.property
    exact ⟨⟨anchor, mem, fromAnchor, by omega, by omega⟩, rfl⟩
  · rintro ⟨⟨anchor, mem, fromAnchor, within, inSegment⟩, rfl⟩
    exact ⟨anchor, mem, ⟨fromAnchor, by omega⟩, rfl⟩

/-! ## Lights between anchors -/

/-- Lights between anchors lie in their segment, and in the width of no anchor. -/
theorem spacedOffsets_bounds {α : Type} [Number.Scalar α] {count : Int} {offsets : List Int}
    (computed : segment.spacedOffsets α count = .ok offsets) {offset : Int}
    (mem : offset ∈ offsets) :
    0 ≤ offset ∧ offset < segment.pixelCount ∧ segment.isAnchor offset = false := by
  unfold spacedOffsets at computed
  split at computed
  · cases computed
    cases mem
  · rcases bind_eq_ok_iff.mp computed with ⟨gaps, ran, shape⟩
    rw [pure_eq_ok_iff] at shape
    subst shape
    rcases List.mem_flatten.mp mem with ⟨gap, isGap, inGap⟩
    rcases exists_mem_of_mapM ran isGap with ⟨⟨anchor, next⟩, between, isGapOf⟩
    have nextInside := effectiveAnchors_lt (List.mem_of_mem_drop (List.of_mem_zip between).2)
    unfold gapOffsets at isGapOf
    simp only at isGapOf
    split at isGapOf
    · rw [pure_eq_ok_iff] at isGapOf
      subst isGapOf
      cases inGap
    · rcases bind_eq_ok_iff.mp isGapOf with ⟨places, -, kept⟩
      rw [pure_eq_ok_iff] at kept
      subst kept
      have passes := (List.mem_filter.mp inGap).2
      simp only [Bool.and_eq_true, decide_eq_true_eq, Bool.not_eq_true'] at passes
      exact ⟨by omega, by omega, passes.2⟩

/-- A light of the strip is one of those spread between the anchors of the segment. -/
def IsSpacedLight (segment : Segment) (count pixel : Nat) : Prop :=
  ∃ offsets, segment.spacedOffsets Binary64 count = .ok offsets ∧
    ∃ offset ∈ offsets, (pixel : Int) = segment.startPixel + offset

theorem IsSpacedLight.contains {count pixel : Nat} (isSpaced : segment.IsSpacedLight count pixel) :
    segment.contains pixel = true := by
  rcases isSpaced with ⟨offsets, computed, offset, mem, isPixel⟩
  have bounds := spacedOffsets_bounds computed mem
  rw [Roofline.contains_iff]
  omega

/-- No light between anchors is one of an anchor. -/
theorem IsSpacedLight.not_isAnchorLight {count pixel : Nat}
    (isSpaced : segment.IsSpacedLight count pixel) : ¬segment.IsAnchorLight pixel := by
  rw [← isAnchor_iff isSpaced.contains]
  rcases isSpaced with ⟨offsets, computed, offset, mem, isPixel⟩
  have isOffset : (pixel : Int) - segment.startPixel = offset := by omega
  rw [isOffset, (spacedOffsets_bounds computed mem).2.2]
  exact Bool.false_ne_true

end Segment

namespace Template

variable {template : Template} {roofline : Roofline} {main other : Color} {count : Nat}
  {anchorsOn : Bool}

/-! ## Downlighting -/

/-- A downlit segment has the groups of its anchors, if these are on, and behind them a group for
each light between them, if these can be computed. -/
theorem exists_downlightSegment_eq (main other : Color) (count : Nat) (anchorsOn : Bool)
    (segment : Segment) :
    ∃ anchors, Group.Shows anchors (fun pixel color =>
        anchorsOn = true ∧ segment.IsAnchorLight pixel ∧ color = main) ∧
      downlightSegment main other count anchorsOn segment =
        (segment.spacedOffsets Binary64 count).map fun offsets => anchors ++
          offsets.map fun offset => Group.single (segment.startPixel + offset.toNat) other := by
  unfold downlightSegment
  cases anchorsOn with
  | false =>
      refine ⟨[], Group.Shows.nil.congr (by simp), ?_⟩
      cases segment.spacedOffsets Binary64 count <;> rfl
  | true =>
      obtain ⟨anchors, isAnchors, shows⟩ := segment.exists_anchorGroups main
      refine ⟨anchors, shows.congr (by simp), ?_⟩
      simp only [if_true, isAnchors, ok_bind]
      cases segment.spacedOffsets Binary64 count <;> rfl

/-- A downlit segment shows its anchors, if these are on, and the lights between them. -/
theorem shows_downlightSegment {segment : Segment} {groups : List Group}
    (made : downlightSegment main other count anchorsOn segment = .ok groups) :
    Group.Shows groups fun pixel color =>
      anchorsOn = true ∧ segment.IsAnchorLight pixel ∧ color = main ∨
        segment.IsSpacedLight count pixel ∧ color = other := by
  obtain ⟨anchors, anchorsShow, isMap⟩ :=
    exists_downlightSegment_eq main other count anchorsOn segment
  rw [isMap] at made
  rcases map_eq_ok_iff.mp made with ⟨offsets, computed, rfl⟩
  apply anchorsShow.append
  intro pixel color
  rw [Group.mem_expand_iff]
  constructor
  · rintro ⟨group, mem, inside, rfl⟩
    rcases List.mem_map.mp mem with ⟨offset, isOffset, rfl⟩
    have bounds := Segment.spacedOffsets_bounds computed isOffset
    have here := Group.mem_pixels_iff.mp inside
    simp only [Group.single] at here
    exact ⟨⟨offsets, computed, offset, isOffset, by omega⟩, rfl⟩
  · rintro ⟨⟨same, isSame, offset, isOffset, isPixel⟩, rfl⟩
    rw [computed] at isSame
    cases isSame
    have bounds := Segment.spacedOffsets_bounds computed isOffset
    refine ⟨_, List.mem_map_of_mem isOffset, Group.mem_pixels_iff.mpr ?_, rfl⟩
    simp only [Group.single]
    omega

theorem failure_of_downlightSegment {segment : Segment} {failure : Failure}
    (failed : downlightSegment main other count anchorsOn segment = .error failure) :
    segment.spacedOffsets Binary64 count = .error failure := by
  obtain ⟨anchors, -, isMap⟩ := exists_downlightSegment_eq main other count anchorsOn segment
  rw [isMap] at failed
  cases computed : segment.spacedOffsets Binary64 count with
  | ok offsets =>
      rw [computed] at failed
      cases failed
  | error same =>
      rw [computed] at failed
      cases failed
      rfl

/-- Downlighting shows the anchors of every segment, if these are on, and the lights between
them. -/
theorem shows_downlighting {groups : List Group}
    (made : downlighting roofline main other count anchorsOn = .ok groups) :
    Group.Shows groups fun pixel color =>
      anchorsOn = true ∧ (∃ segment ∈ roofline.segments, segment.IsAnchorLight pixel) ∧
          color = main ∨
        (∃ segment ∈ roofline.segments, segment.IsSpacedLight count pixel) ∧ color = other := by
  rcases bind_eq_ok_iff.mp made with ⟨each, ran, shape⟩
  rw [pure_eq_ok_iff] at shape
  subst shape
  apply (Group.Shows.flatten_of_mapM ran fun _ _ _ => shows_downlightSegment).congr
  intro pixel color
  have lit : ∀ segment : Segment, segment.contains pixel = true → 0 < segment.pixelCount := by
    intro segment inside
    have := Roofline.contains_iff.mp inside
    omega
  constructor
  · rintro ⟨segment, mem, ⟨on, isAnchor, rfl⟩ | ⟨isSpaced, rfl⟩⟩
    · exact .inl ⟨on, ⟨segment, (List.mem_filter.mp mem).1, isAnchor⟩, rfl⟩
    · exact .inr ⟨⟨segment, (List.mem_filter.mp mem).1, isSpaced⟩, rfl⟩
  · rintro (⟨on, ⟨segment, mem, isAnchor⟩, rfl⟩ | ⟨⟨segment, mem, isSpaced⟩, rfl⟩)
    · have isLit := decide_eq_true (lit segment isAnchor.contains)
      exact ⟨segment, List.mem_filter.mpr ⟨mem, isLit⟩, .inl ⟨on, isAnchor, rfl⟩⟩
    · have isLit := decide_eq_true (lit segment isSpaced.contains)
      exact ⟨segment, List.mem_filter.mpr ⟨mem, isLit⟩, .inr ⟨isSpaced, rfl⟩⟩

theorem failure_of_downlighting {failure : Failure}
    (failed : downlighting roofline main other count anchorsOn = .error failure) :
    ∃ segment ∈ roofline.segments, segment.spacedOffsets Binary64 count = .error failure := by
  rcases bind_eq_error_iff.mp failed with inSegments | ⟨_, -, gone⟩
  · rcases exists_failure_of_mapM inSegments with ⟨segment, mem, inSegment⟩
    exact ⟨segment, (List.mem_filter.mp mem).1, failure_of_downlightSegment inSegment⟩
  · cases gone

/-! ## Filling whole segments -/

/-- Segments can be filled each in a colour of its own.  Their groups lie apart and show each light
in the colour of its segment. -/
theorem exists_perSegment (laidOut : roofline.LaidOut) (colorOf : Nat → Segment → Color) :
    ∃ groups, perSegment roofline colorOf = .ok groups ∧ Group.AreApart groups ∧
      Group.Shows groups fun pixel color => ∃ position segment,
        roofline.segments[position]? = some segment ∧ segment.contains pixel = true ∧
          color = colorOf position segment := by
  have made : ∀ placed ∈ roofline.segments.zipIdx.filter
      (fun placed => decide (0 < placed.1.pixelCount)), ∃ group,
        placed.1.wholeGroup (colorOf placed.2 placed.1) = .ok group ∧
          Group.Shows [group] fun pixel color =>
            placed.1.contains pixel = true ∧ color = colorOf placed.2 placed.1 := by
    intro placed mem
    exact Segment.exists_wholeGroup (of_decide_eq_true (List.mem_filter.mp mem).2) _
  obtain ⟨groups, ran, shows⟩ := Group.Shows.exists_mapM made
  refine ⟨groups, ran, ?_, shows.congr ?_⟩
  · have ordered : roofline.segments.zipIdx.Pairwise fun a b =>
        a.1.startPixel + a.1.pixelCount ≤ b.1.startPixel := by
      have behind := laidOut.pairwise
      rw [← List.zipIdx_map_fst 0 roofline.segments, List.pairwise_map] at behind
      exact behind
    have lit : (roofline.segments.zipIdx.filter
        fun placed => decide (0 < placed.1.pixelCount)).Pairwise fun a b =>
          0 < a.1.pixelCount ∧ a.1.startPixel + a.1.pixelCount ≤ b.1.startPixel := by
      apply (ordered.filter _).imp_of_mem
      intro a b aMem _ behind
      exact ⟨of_decide_eq_true (List.mem_filter.mp aMem).2, behind⟩
    refine pairwise_partners ?_ (mapM_eq_ok_iff.mp ran) lit
    rintro a b c d isC isD ⟨aLit, behind⟩ pixel inC inD
    obtain ⟨-, cLast, -⟩ := Group.ofSpan_eq_ok_iff.mp isC
    obtain ⟨dFirst, -, -⟩ := Group.ofSpan_eq_ok_iff.mp isD
    rw [Group.mem_pixels_iff] at inC inD
    omega
  · intro pixel color
    constructor
    · rintro ⟨⟨segment, position⟩, mem, inside, rfl⟩
      have there := List.mem_zipIdx_iff_getElem?.mp (List.mem_filter.mp mem).1
      exact ⟨position, segment, there, inside, rfl⟩
    · rintro ⟨position, segment, there, inside, rfl⟩
      have bounds := Roofline.contains_iff.mp inside
      have lit : 0 < segment.pixelCount := by omega
      refine ⟨(segment, position), List.mem_filter.mpr ⟨?_, decide_eq_true lit⟩, inside, rfl⟩
      exact List.mem_zipIdx_iff_getElem?.mpr there

/-! ## All templates -/

/-- A template that fills whole segments. -/
def FillsSegments (template : Template) : Prop :=
  template.kind ≠ .downlighting ∧ template.kind ≠ .anchorsOnly

/-- The colour that a template of whole segments gives to the segment at a position. -/
def segmentColor (template : Template) (position : Nat) (segment : Segment) : Color :=
  match template.kind with
  | .alternatingSegments =>
      if position % 2 = 0 then template.anchorColor
      else template.secondaryColor.getD template.spacedColor
  | .cornerAccent =>
      if segment.shape = .corner ∨ segment.shape = .peak then template.anchorColor
      else template.spacedColor
  | _ => template.anchorColor

/-- A template gives a light a colour. -/
def Lights (template : Template) (roofline : Roofline) (pixel : Nat) (color : Color) : Prop :=
  match template.kind with
  | .downlighting =>
      template.anchorsOn = true ∧ roofline.isAnchor pixel = true ∧ color = template.anchorColor ∨
        (∃ segment ∈ roofline.segments, segment.IsSpacedLight template.spacingCount pixel) ∧
          color = template.spacedColor
  | .anchorsOnly => roofline.isAnchor pixel = true ∧ color = template.anchorColor
  | _ => ∃ position segment, roofline.segments[position]? = some segment ∧
      segment.contains pixel = true ∧ color = template.segmentColor position segment

theorem kind_cases (template : Template) :
    template.FillsSegments ∨ template.kind = .downlighting ∨ template.kind = .anchorsOnly := by
  unfold FillsSegments
  tauto

section Lights

variable {pixel : Nat} {color : Color}

theorem lights_of_fillsSegments (fills : template.FillsSegments) :
    template.Lights roofline pixel color ↔ ∃ position segment,
      roofline.segments[position]? = some segment ∧ segment.contains pixel = true ∧
        color = template.segmentColor position segment := by
  obtain ⟨notDownlighting, notAnchors⟩ := fills
  unfold Lights
  cases isKind : template.kind with
  | downlighting => exact absurd isKind notDownlighting
  | anchorsOnly => exact absurd isKind notAnchors
  | _ => exact Iff.rfl

theorem lights_of_downlighting (isKind : template.kind = .downlighting) :
    template.Lights roofline pixel color ↔
      template.anchorsOn = true ∧ roofline.isAnchor pixel = true ∧ color = template.anchorColor ∨
        (∃ segment ∈ roofline.segments, segment.IsSpacedLight template.spacingCount pixel) ∧
          color = template.spacedColor := by
  rw [Lights, isKind]

theorem lights_of_anchorsOnly (isKind : template.kind = .anchorsOnly) :
    template.Lights roofline pixel color ↔
      roofline.isAnchor pixel = true ∧ color = template.anchorColor := by
  rw [Lights, isKind]

end Lights

/-- With no lights to spread, there are none between anchors. -/
theorem not_isSpacedLight_zero {segment : Segment} {pixel : Nat} :
    ¬segment.IsSpacedLight 0 pixel := by
  rintro ⟨offsets, computed, offset, mem, -⟩
  cases computed
  cases mem

/-- The group of all lights, where there are any, shows every light of the strip in one colour. -/
theorem exists_uniform (roofline : Roofline) (color : Color) :
    ∃ groups, (if roofline.total = 0 then .ok []
        else (Group.ofSpan 0 (roofline.total - 1) color).map ([·])) =
          (.ok groups : Outcome (List Group)) ∧
      Group.AreApart groups ∧
      Group.Shows groups fun pixel shown => pixel < roofline.total ∧ shown = color := by
  by_cases dark : roofline.total = 0
  · refine ⟨[], if_pos dark, .nil, Group.Shows.nil.congr ?_⟩
    simp [dark]
  · obtain ⟨group, isGroup, shows⟩ := Group.exists_ofSpan (Nat.zero_le (roofline.total - 1)) color
    refine ⟨[group], ?_, List.pairwise_singleton _ _, shows.congr ?_⟩
    · rw [if_neg dark, isGroup]
      rfl
    · intro pixel shown
      exact and_congr_left fun _ => by omega

/-- Segments filled in the colours of a template show its lights. -/
theorem exists_perSegment_of_segmentColor (laidOut : roofline.LaidOut)
    (fills : template.FillsSegments) {colorOf : Nat → Segment → Color}
    (isColor : ∀ position segment,
      colorOf position segment = template.segmentColor position segment) :
    ∃ groups, perSegment roofline colorOf = .ok groups ∧ Group.AreApart groups ∧
      Group.Shows groups (template.Lights roofline) := by
  obtain ⟨groups, made, apart, shows⟩ := exists_perSegment laidOut colorOf
  refine ⟨groups, made, apart, shows.congr ?_⟩
  intro pixel color
  simp only [lights_of_fillsSegments fills, isColor]

/-- A template that fills whole segments has groups, which lie apart and show its lights. -/
theorem exists_unmerged_of_fillsSegments (laidOut : roofline.LaidOut)
    (fills : template.FillsSegments) :
    ∃ groups, template.unmerged roofline = .ok groups ∧ Group.AreApart groups ∧
      Group.Shows groups (template.Lights roofline) := by
  unfold unmerged
  cases isKind : template.kind with
  | downlighting => exact absurd isKind fills.1
  | anchorsOnly => exact absurd isKind fills.2
  | uniform =>
      obtain ⟨groups, made, apart, shows⟩ := exists_uniform roofline template.anchorColor
      refine ⟨groups, made, apart, shows.congr ?_⟩
      intro pixel color
      rw [lights_of_fillsSegments fills, ← laidOut.exists_contains_iff]
      simp only [segmentColor, isKind, List.mem_iff_getElem?]
      tauto
  | chaseBySegment =>
      apply exists_perSegment_of_segmentColor laidOut fills
      simp [segmentColor, isKind]
  | alternatingSegments =>
      apply exists_perSegment_of_segmentColor laidOut fills
      simp [segmentColor, isKind]
  | cornerAccent =>
      apply exists_perSegment_of_segmentColor laidOut fills
      simp [segmentColor, isKind, accented]

/-- The groups of a template show its lights. -/
theorem shows_unmerged (laidOut : roofline.LaidOut) {groups : List Group}
    (made : template.unmerged roofline = .ok groups) :
    Group.Shows groups (template.Lights roofline) := by
  rcases template.kind_cases with fills | isKind | isKind
  · obtain ⟨same, isSame, -, shows⟩ := exists_unmerged_of_fillsSegments laidOut fills
    rw [made] at isSame
    cases isSame
    exact shows
  · rw [unmerged, isKind] at made
    apply (shows_downlighting made).congr
    intro pixel color
    rw [lights_of_downlighting isKind, laidOut.isAnchor_iff]
  · rw [unmerged, isKind] at made
    apply (shows_downlighting made).congr
    intro pixel color
    rw [lights_of_anchorsOnly isKind, laidOut.isAnchor_iff]
    simp [not_isSpacedLight_zero]

/-- Making the groups of a template fails only where downlighting cannot compute the lights between
the anchors of a segment. -/
theorem failure_of_unmerged (laidOut : roofline.LaidOut) {failure : Failure}
    (failed : template.unmerged roofline = .error failure) :
    template.kind = .downlighting ∧ ∃ segment ∈ roofline.segments,
      segment.spacedOffsets Binary64 template.spacingCount = .error failure := by
  rcases template.kind_cases with fills | isKind | isKind
  · obtain ⟨groups, made, -⟩ := exists_unmerged_of_fillsSegments laidOut fills
    rw [made] at failed
    cases failed
  · rw [unmerged, isKind] at failed
    exact ⟨isKind, failure_of_downlighting failed⟩
  · rw [unmerged, isKind] at failed
    rcases failure_of_downlighting failed with ⟨segment, -, inSegment⟩
    cases inSegment

section Lights

variable {pixel : Nat} {color : Color} (laidOut : roofline.LaidOut)

include laidOut

/-- The lights of a template are on the strip. -/
theorem Lights.lt_total (lit : template.Lights roofline pixel color) : pixel < roofline.total := by
  have ofAnchor : roofline.isAnchor pixel = true → pixel < roofline.total := by
    intro isAnchor
    rcases laidOut.isAnchor_iff.mp isAnchor with ⟨segment, mem, isOne⟩
    exact laidOut.exists_contains_iff.mp ⟨segment, mem, isOne.contains⟩
  rcases template.kind_cases with fills | isKind | isKind
  · rcases (lights_of_fillsSegments fills).mp lit with ⟨position, segment, there, inside, -⟩
    exact laidOut.exists_contains_iff.mp ⟨segment, List.mem_of_getElem? there, inside⟩
  · rcases (lights_of_downlighting isKind).mp lit with
      ⟨-, isAnchor, -⟩ | ⟨⟨segment, mem, isSpaced⟩, -⟩
    · exact ofAnchor isAnchor
    · exact laidOut.exists_contains_iff.mp ⟨segment, mem, isSpaced.contains⟩
  · exact ofAnchor ((lights_of_anchorsOnly isKind).mp lit).1

/-- A light between anchors is in the width of no anchor of the roofline. -/
theorem not_isAnchor_of_isSpacedLight {segment : Segment} (mem : segment ∈ roofline.segments)
    (isSpaced : segment.IsSpacedLight count pixel) : ¬roofline.isAnchor pixel = true := by
  intro isAnchor
  rcases laidOut.isAnchor_iff.mp isAnchor with ⟨other, otherMem, isOne⟩
  have same := laidOut.eq_of_contains mem otherMem isSpaced.contains isOne.contains
  subst same
  exact isSpaced.not_isAnchorLight isOne

/-- A template gives a light one colour. -/
theorem Lights.color_eq {another : Color} (lit : template.Lights roofline pixel color)
    (litToo : template.Lights roofline pixel another) : color = another := by
  rcases template.kind_cases with fills | isKind | isKind
  · rcases (lights_of_fillsSegments fills).mp lit with ⟨position, segment, there, inside, rfl⟩
    rcases (lights_of_fillsSegments fills).mp litToo with ⟨_, _, otherThere, otherInside, rfl⟩
    obtain rfl := laidOut.position_eq_of_contains there otherThere inside otherInside
    rw [there] at otherThere
    cases otherThere
    rfl
  · rcases (lights_of_downlighting isKind).mp lit with
      ⟨-, isAnchor, rfl⟩ | ⟨⟨segment, mem, isSpaced⟩, rfl⟩
    · rcases (lights_of_downlighting isKind).mp litToo with
        ⟨-, -, rfl⟩ | ⟨⟨segment, mem, isSpaced⟩, -⟩
      · rfl
      · exact absurd isAnchor (not_isAnchor_of_isSpacedLight laidOut mem isSpaced)
    · rcases (lights_of_downlighting isKind).mp litToo with ⟨-, isAnchor, -⟩ | ⟨-, rfl⟩
      · exact absurd isAnchor (not_isAnchor_of_isSpacedLight laidOut mem isSpaced)
      · rfl
  · rw [lights_of_anchorsOnly isKind] at lit litToo
    exact lit.2.trans litToo.2.symm

end Lights

/-- The groups of a template are what it makes, merged. -/
theorem groups_eq_ok_iff {groups : List Group} :
    template.groups roofline = .ok groups ↔
      ∃ unmerged, template.unmerged roofline = .ok unmerged ∧ Group.merge unmerged = groups :=
  map_eq_ok_iff

/-- Where a template fills whole segments, every light is in one group and no other, which has the
colour of its segment. -/
theorem exists_only_group (laidOut : roofline.LaidOut) (fills : template.FillsSegments)
    {groups : List Group} (made : template.groups roofline = .ok groups) {pixel : Nat}
    (inside : pixel < roofline.total) : ∃ position segment group,
      roofline.segments[position]? = some segment ∧ segment.contains pixel = true ∧
        groups.filter (fun other => decide (pixel ∈ other.pixels)) = [group] ∧
        group.color = template.segmentColor position segment := by
  rcases groups_eq_ok_iff.mp made with ⟨whole, isWhole, rfl⟩
  obtain ⟨same, isSame, apart, shows⟩ := exists_unmerged_of_fillsSegments laidOut fills
  rw [isWhole] at isSame
  cases isSame
  have canonical := apart.canonical_merge fun group mem =>
    shows.last_lt (fun _ _ => Lights.lt_total laidOut) mem
  obtain ⟨segment, mem, isIn⟩ := laidOut.exists_contains_iff.mpr inside
  obtain ⟨position, there⟩ := List.mem_iff_getElem?.mp mem
  have lit := (lights_of_fillsSegments fills).mpr ⟨position, segment, there, isIn, rfl⟩
  obtain ⟨group, isGroup, hasIt, isColor⟩ := Group.mem_expand_iff.mp
    ((shows.merge pixel (template.segmentColor position segment)).mpr lit)
  refine ⟨position, segment, group, there, isIn, ?_, isColor⟩
  exact Group.AreApart.filter_eq_singleton canonical.disjoint isGroup hasIt

/-- Templates of whole segments that light alike have the same groups. -/
theorem groups_congr (laidOut : roofline.LaidOut) {another : Template}
    (fills : template.FillsSegments) (fillsToo : another.FillsSegments)
    (same : ∀ pixel color, template.Lights roofline pixel color ↔
      another.Lights roofline pixel color) :
    template.groups roofline = another.groups roofline := by
  obtain ⟨parts, isParts, apart, shows⟩ := exists_unmerged_of_fillsSegments laidOut fills
  obtain ⟨others, isOthers, othersApart, othersShow⟩ :=
    exists_unmerged_of_fillsSegments laidOut fillsToo
  have merged : Group.merge parts = Group.merge others := by
    apply apart.merge_congr othersApart
    rintro ⟨pixel, color⟩
    rw [shows pixel color, othersShow pixel color, same]
  rw [groups, groups, isParts, isOthers]
  exact congrArg Except.ok merged

/-- A chase by segment has the groups of a uniform template. -/
theorem groups_chaseBySegment (laidOut : roofline.LaidOut)
    (isKind : template.kind = .chaseBySegment) :
    template.groups roofline =
      ({ template with kind := .uniform } : Template).groups roofline := by
  have fills : template.FillsSegments := by simp [FillsSegments, isKind]
  have fillsToo : FillsSegments { template with kind := .uniform } := by simp [FillsSegments]
  apply groups_congr laidOut fills fillsToo
  intro pixel color
  rw [lights_of_fillsSegments fills, lights_of_fillsSegments fillsToo]
  simp only [segmentColor, isKind]

/-- What a template lights.  No group of it is ever refused: making them fails only where
downlighting cannot compute the lights between the anchors of a segment, which it can on strips, and
for counts, far below the greatest finite number.  The groups come in the order of their first
lights, lie on the strip, and no light is in groups of different colours.  A template of whole
segments has every light in one group and no other, in the colour of its segment, so a chase by
segment has the groups of a uniform template; downlighting covers the lights of anchors, where these
are on, and the lights between them, and no others. -/
theorem groups_light_segments_or_anchors (laidOut : roofline.LaidOut) (template : Template) :
    (∀ failure, template.groups roofline = .error failure →
      template.kind = .downlighting ∧ (∃ fault, failure = .number fault) ∧
        ∃ segment ∈ roofline.segments,
          segment.spacedOffsets Binary64 template.spacingCount = .error failure) ∧
    ((template.kind = .downlighting →
        roofline.total < 2 ^ 120 ∧ template.spacingCount < 2 ^ 120) →
      ∃ groups, template.groups roofline = .ok groups) ∧
    (template.kind = .chaseBySegment → template.groups roofline =
      ({ template with kind := .uniform } : Template).groups roofline) ∧
    ∀ groups, template.groups roofline = .ok groups →
      Group.IsPlaced roofline.total groups ∧
      (template.FillsSegments → ∀ pixel, pixel < roofline.total → ∃ position segment group,
        roofline.segments[position]? = some segment ∧ segment.contains pixel = true ∧
          groups.filter (fun other => decide (pixel ∈ other.pixels)) = [group] ∧
          group.color = template.segmentColor position segment) ∧
      (template.kind = .downlighting → ∀ pixel color, (pixel, color) ∈ Group.expand groups ↔
        template.anchorsOn = true ∧ roofline.isAnchor pixel = true ∧
            color = template.anchorColor ∨
          (∃ segment ∈ roofline.segments, segment.IsSpacedLight template.spacingCount pixel) ∧
            color = template.spacedColor) := by
  have failing : ∀ failure, template.groups roofline = .error failure →
      template.kind = .downlighting ∧ ∃ segment ∈ roofline.segments,
        segment.spacedOffsets Binary64 template.spacingCount = .error failure := by
    intro failure failed
    exact failure_of_unmerged laidOut (map_eq_error_iff.mp failed)
  refine ⟨?refused, ?succeeds, groups_chaseBySegment laidOut, ?made⟩
  case refused =>
    intro failure failed
    obtain ⟨isKind, segment, mem, inSegment⟩ := failing failure failed
    exact ⟨isKind, Segment.failure_of_spacedOffsets inSegment, segment, mem, inSegment⟩
  case succeeds =>
    intro small
    cases made : template.groups roofline with
    | ok groups => exact ⟨groups, rfl⟩
    | error failure =>
        obtain ⟨isKind, segment, mem, inSegment⟩ := failing failure made
        obtain ⟨short, few⟩ := small isKind
        have fits := laidOut.end_le_total mem
        obtain ⟨offsets, computed⟩ := segment.spacedOffsets_succeeds (by omega)
          (show (template.spacingCount : Int) < 2 ^ 120 by omega)
        rw [computed] at inSegment
        cases inSegment
  case made =>
    intro groups made
    rcases groups_eq_ok_iff.mp made with ⟨parts, isParts, rfl⟩
    have shows := shows_unmerged laidOut isParts
    refine ⟨?_, fun fills pixel => exists_only_group laidOut fills made, ?_⟩
    · exact shows.isPlaced_merge (fun _ _ => Lights.lt_total laidOut)
        fun _ _ _ => Lights.color_eq laidOut
    · intro isKind pixel color
      rw [shows.merge pixel color, lights_of_downlighting isKind]

/-- A run of ten lights, a corner without lights, and a peak of three lights. -/
def runAndPeak : Roofline :=
  { segments := [{ id := "run", name := "Run", pixelCount := 10 },
      { id := "corner", name := "Corner", pixelCount := 0, startPixel := 10, sortOrder := 1,
        shape := .corner },
      { id := "peak", name := "Peak", pixelCount := 3, startPixel := 10, sortOrder := 2,
        shape := .peak }] }

/-- Red anchors, and two blue lights in each gap. -/
def redAndBlue : Template :=
  { anchorColor := ⟨255, 0, 0, 0⟩, spacedColor := ⟨0, 0, 255, 0⟩, spacingCount := 2 }

/-- The last light of the run is red, and of the six lights of its gap the third and the fifth are
blue. -/
theorem groups_light_segments_or_anchors_runAndPeak :
    runAndPeak.LaidOut ∧ ∃ groups, redAndBlue.groups runAndPeak = .ok groups ∧
      Group.IsPlaced 13 groups ∧ (9, ⟨255, 0, 0, 0⟩) ∈ Group.expand groups ∧
      (4, ⟨0, 0, 255, 0⟩) ∈ Group.expand groups ∧ (6, ⟨0, 0, 255, 0⟩) ∈ Group.expand groups := by
  have laidOut : runAndPeak.LaidOut := by decide
  obtain ⟨-, succeeds, -, made⟩ := groups_light_segments_or_anchors laidOut redAndBlue
  obtain ⟨groups, isGroups⟩ := succeeds fun _ => by decide
  obtain ⟨placed, -, lights⟩ := made groups isGroups
  have between : ∀ segment ∈ runAndPeak.segments.head?,
      segment.spacedOffsets Binary64 2 = .ok [4, 6] := by
    rintro segment ⟨⟩
    decide +kernel
  have isBlue : ∀ pixel : Nat, (pixel : Int) ∈ [4, 6] →
      (pixel, ⟨0, 0, 255, 0⟩) ∈ Group.expand groups := by
    intro pixel mem
    refine (lights rfl pixel _).mpr (.inr ⟨⟨_, List.mem_cons_self, [4, 6], between _ rfl, _, mem,
      ?_⟩, rfl⟩)
    exact (Int.zero_add _).symm
  exact ⟨laidOut, groups, isGroups, placed, (lights rfl 9 _).mpr (.inl ⟨rfl, by decide, rfl⟩),
    isBlue 4 (by decide), isBlue 6 (by decide)⟩

end Template

end Eaves
