import Eaves.Pixels.Compose
import Eaves.Proofs.Check.Suggestions
import Eaves.Proofs.Pixels.Rangewise
import Eaves.Proofs.Pixels.Spread

/-!
# How many lights an even spacing lights

The check of an even spacing looks at all lights of a zone together, while painting
spreads the count over every range of the zone on its own.  So a satisfied check says
how many lights there will be only where the two agree: each range gets as many lights
as were asked for, or all it has if these are fewer, and this comes to the count
exactly where the zone is a single range or every light of it was asked for.
-/

namespace Eaves

open Number (Binary64)

namespace Spacing

/-! ## The lights of one range -/

/-- The lights of a range that a count is spread to. -/
def spreadLights (count : Nat) (range : PixelRange) : List Nat :=
  match evenOffsets Binary64 range.length count with
  | .ok offsets => (lightsAt range.length offsets).map (range.first + ·)
  | .error _ => []

variable {count : Nat} {range : PixelRange}

/-- The lights at offsets stand in order inside the range. -/
theorem lightsAt_inside (range : PixelRange) (offsets : List Int) :
    ((lightsAt range.length offsets).map (range.first + ·)).Pairwise (· < ·) ∧
      ∀ light ∈ (lightsAt range.length offsets).map (range.first + ·), range.Contains light := by
  constructor
  · rw [List.pairwise_map]
    exact (pairwise_lightsAt _ _).imp fun less => Nat.add_lt_add_left less _
  · intro light mem
    rcases List.mem_map.mp mem with ⟨offset, isOffset, rfl⟩
    have inside := (mem_lightsAt_iff.mp isOffset).1
    have := range.ordered
    unfold PixelRange.length at inside
    unfold PixelRange.Contains
    omega

theorem pairwise_spreadLights (count : Nat) (range : PixelRange) :
    (spreadLights count range).Pairwise (· < ·) := by
  unfold spreadLights
  split
  · exact (lightsAt_inside range _).1
  · exact .nil

/-- The lights that a count is spread to stand once each in their range, and are as many as were
asked for, or as the range has if these are fewer. -/
theorem spreadLights_spec (positive : 0 < count) (precise : count * range.length < 2 ^ 48) :
    (spreadLights count range).Nodup ∧
      (∀ light ∈ spreadLights count range, range.Contains light) ∧
      (spreadLights count range).length = min count range.length := by
  have lit : 0 < range.length := Nat.succ_pos _
  obtain ⟨offsets, computed, -, counted⟩ := evenOffsets_spec positive lit precise
  refine ⟨(pairwise_spreadLights count range).imp Nat.ne_of_lt, ?_⟩
  unfold spreadLights
  rw [computed]
  refine ⟨(lightsAt_inside range offsets).2, ?_⟩
  rw [List.length_map, counted]

/-- Painting offsets over a range lights the lights of the range that stand at one of them. -/
theorem repaints_paintOffsets (canvas : Canvas) (range : PixelRange) (color : Color)
    (offsets : List Int) :
    canvas.Repaints color (fun pixel => ∃ offset ∈ offsets,
        pixel = ((range.first : Int) + offset).toNat ∧ pixel ≤ range.last)
      (paintOffsets canvas range color offsets) := by
  have steps : ∀ (work : Canvas) (offset : Int), work.Repaints color
      (fun pixel => pixel = ((range.first : Int) + offset).toNat ∧ pixel ≤ range.last)
      (let pixel := ((range.first : Int) + offset).toNat
        if pixel ≤ range.last then work.insert pixel color else work) := by
    intro work offset
    dsimp only
    split
    · apply (Canvas.Repaints.insert work _ color).congr
      intro pixel
      omega
    · apply (Canvas.Repaints.refl work color).congr
      intro pixel
      rw [false_iff]
      omega
  exact Canvas.Repaints.foldl steps offsets canvas

/-- The lights of a range at offsets inside it. -/
theorem mem_map_lightsAt_iff {offsets : List Int}
    (inside : ∀ offset ∈ offsets, 0 ≤ offset ∧ offset < range.length) {pixel : Nat} :
    pixel ∈ (lightsAt range.length offsets).map (range.first + ·) ↔ ∃ offset ∈ offsets,
      pixel = ((range.first : Int) + offset).toNat ∧ pixel ≤ range.last := by
  have ordered := range.ordered
  unfold PixelRange.length at inside
  simp only [List.mem_map, mem_lightsAt_iff]
  constructor
  · rintro ⟨light, ⟨_, mem⟩, rfl⟩
    have := inside light mem
    exact ⟨light, mem, by omega, by omega⟩
  · rintro ⟨offset, mem, rfl, -⟩
    have := inside offset mem
    have isLight : ((offset.toNat : Nat) : Int) = offset := by omega
    refine ⟨offset.toNat, ⟨?_, isLight ▸ mem⟩, by omega⟩
    unfold PixelRange.length
    omega

/-- In whatever numbers the offsets of a count are computed, where they are inside the range,
painting the count lights the lights at its offsets. -/
theorem exists_paint_offsets {α : Type} [Number.Scalar α] (positive : 0 < count)
    {offsets : List Int} (computed : evenOffsets α range.length count = .ok offsets)
    (inside : ∀ offset ∈ offsets, 0 ≤ offset ∧ offset < range.length) (canvas : Canvas)
    (coloring : Coloring) (roofline : Option Roofline) :
    ∃ painted, (Spacing.equallySpaced count).paint α canvas range coloring roofline =
        .ok painted ∧
      (canvas.paintRun? range.first range.length coloring.fill).Repaints coloring.lit
        (· ∈ (lightsAt range.length offsets).map (range.first + ·)) painted := by
  have repaints := (repaints_paintOffsets
    (canvas.paintRun? range.first range.length coloring.fill) range coloring.lit offsets).congr
      fun _ => (mem_map_lightsAt_iff inside).symm
  refine ⟨_, ?_, repaints⟩
  rw [paint, if_neg (by omega), Int.toNat_natCast, computed]
  rfl

/-- Painting a count of lights over a range decides that its spread lights, and no others, show the
colour of lit lights, where dark ones are not given that colour. -/
theorem exists_paint_equallySpaced {count : Int} (positive : 0 < count) {range : PixelRange}
    (precise : count * range.length < 2 ^ 48) {coloring : Coloring}
    (otherFill : coloring.fill ≠ some coloring.lit) (roofline : Option Roofline)
    (canvas : Canvas) :
    ∃ painted, (Spacing.equallySpaced count).paint Binary64 canvas range coloring roofline =
        .ok painted ∧
      canvas.Decides painted range coloring.lit (· ∈ spreadLights count.toNat range) := by
  obtain ⟨count, rfl⟩ := Int.eq_ofNat_of_zero_le positive.le
  have lit : 0 < range.length := Nat.succ_pos _
  have some : 0 < count := by omega
  have preciseNat : count * range.length < 2 ^ 48 := by exact_mod_cast precise
  obtain ⟨offsets, computed, inside, -⟩ := evenOffsets_spec some lit preciseNat
  obtain ⟨painted, paints, repaints⟩ :=
    exists_paint_offsets some computed inside canvas coloring roofline
  have spread : spreadLights count range =
      (lightsAt range.length offsets).map (range.first + ·) := by
    unfold spreadLights
    rw [computed]
  refine ⟨painted, paints, ?_⟩
  rw [← spread] at repaints
  rw [Int.toNat_natCast]
  exact repaints.decides (spreadLights_spec some preciseNat).2.1 otherFill

end Spacing

/-! ## The lights of a layer -/

/-- A layer that spreads a count of lights shows the colour of lit lights exactly at the lights that
the count is spread to in each range of its zone. -/
theorem Layer.exists_paint_equallySpaced {layer : Layer} (apart : layer.zone.IsApart)
    {roofline : Roofline} (laidOut : roofline.LaidOut) {count : Int}
    (rule : layer.coloring.spacing = some (.equallySpaced count)) (positive : 0 < count)
    (precise : ∀ range ∈ layer.zone.ranges roofline, count * range.length < 2 ^ 48)
    (otherFill : layer.coloring.fill ≠ some layer.coloring.lit) :
    ∃ canvas, layer.paint roofline = .ok canvas ∧
      ∀ pixel, canvas[pixel]? = some layer.coloring.lit ↔
        ∃ range ∈ layer.zone.ranges roofline, pixel ∈ Spacing.spreadLights count.toNat range := by
  have inRange : ∀ range ∈ layer.zone.ranges roofline, ∀ pixel,
      pixel ∈ Spacing.spreadLights count.toNat range → range.Contains pixel := by
    intro range mem
    have preciseNat : count.toNat * range.length < 2 ^ 48 := by
      have := precise range mem
      zify
      rwa [Int.toNat_of_nonneg positive.le]
    exact (Spacing.spreadLights_spec (by omega) preciseNat).2.1
  have dark : ∀ range ∈ layer.zone.ranges roofline, ∀ pixel, range.Contains pixel →
      Canvas.blank[pixel]? = none := fun _ _ pixel _ => Canvas.getElem?_blank pixel
  obtain ⟨canvas, paints, others, decided⟩ := Canvas.foldlM_decides
    (Zone.pairwise_ranges apart laidOut)
    (fun work range mem => Spacing.exists_paint_equallySpaced positive (precise range mem)
      otherFill (some roofline) work) dark
  refine ⟨canvas, ?_, ?_⟩
  · rw [paint, rule]
    exact paints
  intro pixel
  constructor
  · intro shown
    by_cases covered : ∃ range ∈ layer.zone.ranges roofline, range.Contains pixel
    · obtain ⟨range, mem, contained⟩ := covered
      exact ⟨range, mem, (decided range mem pixel contained).mp shown⟩
    · push Not at covered
      rw [others pixel covered, Canvas.getElem?_blank] at shown
      cases shown
  · rintro ⟨range, mem, spread⟩
    exact (decided range mem pixel (inRange range mem pixel spread)).mpr spread

/-- Spread over several ranges that do not overlap, a count lights in each as many as were asked
for, or as the range has if these are fewer. -/
theorem length_flatMap_spreadLights {count : Nat} (positive : 0 < count) {ranges : List PixelRange}
    (apart : ranges.Pairwise fun a b => a.overlaps b = false)
    (precise : ∀ range ∈ ranges, count * range.length < 2 ^ 48) :
    (ranges.flatMap (Spacing.spreadLights count)).Nodup ∧
      (ranges.flatMap (Spacing.spreadLights count)).length =
        (ranges.map fun range => min count range.length).sum := by
  have spec := fun range (mem : range ∈ ranges) =>
    Spacing.spreadLights_spec positive (precise range mem)
  constructor
  · rw [List.nodup_flatMap]
    refine ⟨fun range mem => (spec range mem).1, ?_⟩
    apply apart.imp_of_mem
    intro a b memA memB disjoint light inA inB
    have overlap := (PixelRange.overlaps_iff a b).mpr
      ⟨light, (spec a memA).2.1 light inA, (spec b memB).2.1 light inB⟩
    rw [disjoint] at overlap
    cases overlap
  · rw [List.length_flatMap]
    congr 1
    apply List.map_congr_left
    intro range mem
    exact (spec range mem).2.2

/-- A layer that spreads a count of lights shows the colour of lit lights only in the ranges of its
zone, and in each at as many lights as were asked for, or as the range has if these are fewer. -/
theorem Layer.exists_paint_count {layer : Layer} (apart : layer.zone.IsApart)
    {roofline : Roofline} (laidOut : roofline.LaidOut) {count : Nat}
    (rule : layer.coloring.spacing = some (.equallySpaced count)) (positive : 0 < count)
    (precise : ∀ range ∈ layer.zone.ranges roofline, count * range.length < 2 ^ 48)
    (otherFill : layer.coloring.fill ≠ some layer.coloring.lit) :
    ∃ canvas, layer.paint roofline = .ok canvas ∧
      (∀ light ∈ canvas.showing layer.coloring.lit,
        ∃ range ∈ layer.zone.ranges roofline, range.Contains light) ∧
      (canvas.showing layer.coloring.lit).length =
        ((layer.zone.ranges roofline).map fun range => min count range.length).sum := by
  obtain ⟨canvas, paints, shown⟩ := Layer.exists_paint_equallySpaced apart laidOut rule
    (by omega) (by exact_mod_cast precise) otherFill
  rw [Int.toNat_natCast] at shown
  obtain ⟨nodup, counts⟩ := length_flatMap_spreadLights positive
    (Zone.pairwise_ranges apart laidOut) precise
  have sameLights : (canvas.showing layer.coloring.lit).Perm
      ((layer.zone.ranges roofline).flatMap (Spacing.spreadLights count)) := by
    rw [List.perm_ext_iff_of_nodup (Canvas.nodup_showing _ _) nodup]
    intro light
    rw [Canvas.mem_showing_iff, shown, List.mem_flatMap]
  refine ⟨canvas, paints, ?_, sameLights.length_eq.trans counts⟩
  intro light isShown
  rw [Canvas.mem_showing_iff, shown] at isShown
  obtain ⟨range, isRange, spread⟩ := isShown
  exact ⟨range, isRange,
    (Spacing.spreadLights_spec positive (precise range isRange)).2.1 light spread⟩

/-- Of numbers of lights, none zero, as many as asked for but no more than there are in each sum up
to what was asked for only if there is one number, or every light was asked for. -/
theorem sum_min_eq_iff {lengths : List Nat} (lit : ∀ length ∈ lengths, 0 < length) {count : Nat}
    (positive : 0 < count) (enough : count ≤ lengths.sum) :
    (lengths.map (min count)).sum = count ↔ lengths.length = 1 ∨ count = lengths.sum := by
  by_cases short : ∀ length ∈ lengths, length ≤ count
  · -- no length is cut, so every light is lit
    have same : lengths.map (min count) = lengths := by
      rw [List.map_congr_left fun length mem => min_eq_right (short length mem), List.map_id']
    rw [same]
    constructor
    · intro all
      exact .inr all.symm
    · rintro (one | all)
      · obtain ⟨length, rfl⟩ := List.length_eq_one_iff.mp one
        have := short length (List.mem_singleton_self _)
        rw [List.sum_singleton] at enough ⊢
        omega
      · exact all.symm
  · -- one length alone gets the whole count, and every other at least one light
    push Not at short
    obtain ⟨long, mem, longer⟩ := short
    obtain ⟨before, after, rfl⟩ := List.append_of_mem mem
    have atLeast : ∀ some : List Nat, (∀ length ∈ some, 0 < length) →
        some.length ≤ (some.map (min count)).sum := by
      intro some someLit
      rw [← List.length_map (min count)]
      apply List.length_le_sum_of_one_le
      intro shown isShown
      rcases List.mem_map.mp isShown with ⟨length, isLength, rfl⟩
      exact le_min positive (someLit length isLength)
    have beforeLit := atLeast before fun length isLength =>
      lit length (List.mem_append_left _ isLength)
    have afterLit := atLeast after fun length isLength =>
      lit length (List.mem_append_right _ (List.mem_cons_of_mem _ isLength))
    have noneBefore : before.length = 0 → (before.map (min count)).sum = 0 := by
      intro none
      rw [List.length_eq_zero_iff.mp none]
      rfl
    have noneAfter : after.length = 0 → (after.map (min count)).sum = 0 := by
      intro none
      rw [List.length_eq_zero_iff.mp none]
      rfl
    simp only [List.map_append, List.map_cons, List.sum_append, List.sum_cons, List.length_append,
      List.length_cons, min_eq_left longer.le]
    omega

/-- A layer that is on and spreads a count of lights, with a satisfied check, lights in each range
of its zone as many as were asked for, or as the range has if these are fewer.  That is the count
itself exactly where the zone is a single range, or every light of it was asked for. -/
theorem satisfied_count_lit_iff {intent : Intent} {roofline : Roofline}
    (laidOut : roofline.LaidOut) {settings : CheckSettings} {validation : Validation}
    (checked : Check.validate intent roofline settings = .ok validation) {layer : Layer}
    (mem : layer ∈ intent.layers) (enabled : layer.enabled = true) {count : Int}
    (rule : layer.coloring.spacing = some (.equallySpaced count))
    (satisfied : ∀ verdict ∈ validation.verdicts, verdict.kind = .spacing →
      verdict.layerId = some layer.id → verdict.satisfied = true)
    (covers : layer.zone.ranges roofline ≠ []) (apart : layer.zone.IsApart)
    (precise : count * roofline.total < 2 ^ 48)
    (otherFill : layer.coloring.fill ≠ some layer.coloring.lit) :
    ∃ canvas, layer.paint roofline = .ok canvas ∧
      (∀ light ∈ canvas.showing layer.coloring.lit,
        ∃ range ∈ layer.zone.ranges roofline, range.Contains light) ∧
      (canvas.showing layer.coloring.lit).length =
        ((layer.zone.ranges roofline).map fun range => min count.toNat range.length).sum ∧
      (((canvas.showing layer.coloring.lit).length : Int) = count ↔
        (layer.zone.ranges roofline).length = 1 ∨
          count = ((layer.zone.ranges roofline).map PixelRange.length).sum) := by
  obtain ⟨n, verdict, counted, isVerdict, inside⟩ :=
    Check.exists_verdict_of_validate checked mem enabled rule
  rw [Zone.pixelCount_eq_sum covers, Except.ok.injEq] at counted
  have aboutLayer := Check.kind_of_spacing isVerdict
  have fits : Check.Fits n (.equallySpaced count) settings (some layer.id) :=
    ⟨verdict, isVerdict, satisfied verdict inside aboutLayer.1 aboutLayer.2⟩
  obtain ⟨positive, enough⟩ := Check.bounds_of_fits fits
  obtain ⟨count, rfl⟩ := Int.eq_ofNat_of_zero_le positive.le
  have preciseEach : ∀ range ∈ layer.zone.ranges roofline, count * range.length < 2 ^ 48 := by
    intro range isRange
    have inStrip := PixelRange.first_add_length_le (Zone.last_lt_total laidOut isRange)
    have : count * range.length ≤ count * roofline.total := Nat.mul_le_mul_left _ (by omega)
    have : count * roofline.total < 2 ^ 48 := by exact_mod_cast precise
    omega
  have some : 0 < count := by omega
  obtain ⟨canvas, paints, inRanges, lights⟩ :=
    Layer.exists_paint_count apart laidOut rule some preciseEach otherFill
  have lit : ∀ length ∈ (layer.zone.ranges roofline).map PixelRange.length, 0 < length := by
    simp [PixelRange.length]
  have numbers := sum_min_eq_iff lit some (by omega)
  rw [List.map_map, List.length_map] at numbers
  refine ⟨canvas, paints, inRanges, lights, ?_⟩
  rw [lights, Int.natCast_inj, Int.natCast_inj]
  exact numbers

/-- Two peaks with some lights each. -/
def twoPeaks (first second : Nat) : Roofline :=
  { segments := [{ id := "a", name := "A", pixelCount := first, shape := .peak },
      { id := "b", name := "B", pixelCount := second, startPixel := first, shape := .peak,
        sortOrder := 1 }] }

/-- A number of lights, spread evenly over the peaks. -/
def spreadOnPeaks (count : Int) : Layer :=
  { id := "layer_0", name := "peaks", zone := .features (.singleton .peak),
    coloring := { spacing := some (.equallySpaced count) } }

/-- Four lights over peaks of two and ten satisfy the check of twelve, and light both lights of the
first peak and four of the second. -/
theorem satisfied_count_lit_iff_twoAndTen :
    (twoPeaks 2 10).LaidOut ∧ (spreadOnPeaks 4).enabled = true ∧ ∃ validation,
      Check.validate { layers := [spreadOnPeaks 4] } (twoPeaks 2 10) {} = .ok validation ∧
      validation.allSatisfied = true ∧
      ∃ canvas, (spreadOnPeaks 4).paint (twoPeaks 2 10) = .ok canvas ∧
        (canvas.showing .pureWhite).length = 6 := by
  have laidOut : (twoPeaks 2 10).LaidOut := by decide
  have view : ((Check.validate { layers := [spreadOnPeaks 4] } (twoPeaks 2 10) {}).map
      Validation.allSatisfied).toOption = some true := by decide +kernel
  obtain ⟨validation, checked, all⟩ := Outcome.exists_ok_of_toOption view
  have satisfied := List.all_eq_true.mp all
  obtain ⟨canvas, paints, -, lights, -⟩ := satisfied_count_lit_iff laidOut checked
    (List.mem_singleton_self _) rfl
    (show (spreadOnPeaks 4).coloring.spacing = some (.equallySpaced 4) from rfl)
    (fun verdict mem _ _ => satisfied verdict mem) (by decide) trivial (by decide) (by decide)
  exact ⟨laidOut, rfl, validation, checked, all, canvas, paints, lights⟩

/-- Five lights over two peaks of ten satisfy the check of twenty, but each peak lights five. -/
theorem five_on_two_peaks_light_ten :
    (twoPeaks 10 10).LaidOut ∧ (spreadOnPeaks 5).enabled = true ∧
      (spreadOnPeaks 5).zone.ranges (twoPeaks 10 10) ≠ [] ∧ ∃ validation,
        Check.validate { layers := [spreadOnPeaks 5] } (twoPeaks 10 10) {} = .ok validation ∧
        validation.allSatisfied = true ∧
        ∃ canvas, (spreadOnPeaks 5).paint (twoPeaks 10 10) = .ok canvas ∧
          canvas.showing .pureWhite = [0, 2, 5, 7, 9, 10, 12, 15, 17, 19] := by
  have view : ((Check.validate { layers := [spreadOnPeaks 5] } (twoPeaks 10 10) {}).map
      Validation.allSatisfied).toOption = some true := by decide +kernel
  have lights : (((spreadOnPeaks 5).paint (twoPeaks 10 10)).map
      fun canvas => canvas.showing .pureWhite).toOption =
        some [0, 2, 5, 7, 9, 10, 12, 15, 17, 19] := by
    decide +kernel
  obtain ⟨validation, checked, all⟩ := Outcome.exists_ok_of_toOption view
  obtain ⟨canvas, paints, shown⟩ := Outcome.exists_ok_of_toOption lights
  exact ⟨by decide, rfl, by decide, validation, checked, all, canvas, paints, shown⟩

end Eaves
