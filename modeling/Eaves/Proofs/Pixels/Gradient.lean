import Eaves.Proofs.Pixels.Canvas
import Eaves.Proofs.Pixels.Offsets
import Eaves.Proofs.Sorting

/-!
# Gradients in exact arithmetic

A gradient goes by its stops in the order of their positions.  A light gets a colour
between those of the first two neighbouring stops that it lies between, and where there
are none, one between those of the first stop and the last.  The share of the way is cut
off at zero and one, and rounding a number between two integers leaves it between them.
So whatever stops are chosen, each channel lies between the channels of two stops, and
the blend is a colour.

The stops are distinct where their distance divides: where they are not, the colour is
that of the lower one.  Remainders of this are told by a division that fails at zero, and
a gradient painted with it is the same.

The first light lies at zero, which no stop lies in front of.  So it is at the first stop
or in front of it, and has its colour.
-/

namespace Eaves

open Number (Scalar)
open Outcome

/-! ## The hull of colours -/

namespace Color

/-- Each channel lies between the same channel of two of some colours. -/
def InHull (colors : List Color) (color : Color) : Prop :=
  ∀ channel ∈ channels, (∃ low ∈ colors, channel low ≤ channel color) ∧
    ∃ high ∈ colors, channel color ≤ channel high

variable {colors others : List Color} {color : Color}

theorem inHull_of_mem (mem : color ∈ colors) : InHull colors color := by
  intro channel _
  exact ⟨⟨color, mem, le_rfl⟩, color, mem, le_rfl⟩

theorem InHull.mono (inHull : InHull colors color) (among : ∀ member ∈ colors, member ∈ others) :
    InHull others color := by
  intro channel isChannel
  obtain ⟨⟨low, lowMem, atLeast⟩, high, highMem, atMost⟩ := inHull channel isChannel
  exact ⟨⟨low, among low lowMem, atLeast⟩, high, among high highMem, atMost⟩

/-- Colours with the same channels are the same. -/
theorem eq_of_channels {c d : Color} (same : ∀ channel ∈ channels, channel c = channel d) :
    c = d := by
  simp only [channels, List.forall_mem_cons] at same
  obtain ⟨red, green, blue, white, -⟩ := same
  cases c
  cases d
  simp only at red green blue white
  rw [red, green, blue, white]

/-- A colour with each channel between those of two colours is in their hull. -/
theorem inHull_pair {c d : Color} (between : ∀ channel ∈ channels,
    min (channel c) (channel d) ≤ channel color ∧ channel color ≤ max (channel c) (channel d)) :
    InHull [c, d] color := by
  intro channel isChannel
  obtain ⟨atLeast, atMost⟩ := between channel isChannel
  constructor
  · rcases min_le_iff.mp atLeast with fromFirst | fromSecond
    · exact ⟨c, by simp, fromFirst⟩
    · exact ⟨d, by simp, fromSecond⟩
  · rcases le_max_iff.mp atMost with toFirst | toSecond
    · exact ⟨c, by simp, toFirst⟩
    · exact ⟨d, by simp, toSecond⟩

/-! ## Exact blends -/

/-- Computed exactly, a blended channel is a level between the two. -/
theorem exists_blendChannel_between (a b : Level) {share : Rat} (nonneg : 0 ≤ share)
    (atMostOne : share ≤ 1) :
    ∃ level : Level, blendChannel share a b = .ok level.toInt ∧
      min a b ≤ level ∧ level ≤ max a b := by
  obtain ⟨low, high⟩ := exactWay_between a b nonneg atMostOne
  obtain ⟨atLeast, atMost⟩ := Number.roundEven_between low high
  have computed : blendChannel share a b = .ok (Number.roundEven
      ((a.toInt : Rat) + (b.toInt - a.toInt : Int) * share)) := rfl
  rw [computed]
  generalize Number.roundEven ((a.toInt : Rat) + (b.toInt - a.toInt : Int) * share) = whole
    at atLeast atMost
  have lowest := (min a b).toInt_bounds
  have highest := (max a b).toInt_bounds
  obtain ⟨level, rfl⟩ : ∃ level : Level, level.toInt = whole :=
    ⟨⟨whole.toNat, by omega⟩, Int.toNat_of_nonneg (by omega)⟩
  exact ⟨level, rfl, Level.toInt_le_iff.mp atLeast, Level.toInt_le_iff.mp atMost⟩

/-- A share cut off at zero and one. -/
theorem cutOff_eq (t : Rat) :
    Scalar.greatest (Scalar.ofRat 0) (Scalar.least (Scalar.ofRat 1) t) = max 0 (min 1 t) := by
  have least : Scalar.least (Scalar.ofRat 1) t = min 1 t := by
    rw [min_comm, min_def_lt]
    exact if_congr decide_eq_true_iff rfl rfl
  rw [least, max_def_lt]
  exact if_congr decide_eq_true_iff rfl rfl

/-- Any two colours blend to a colour in their hull, whatever the share. -/
theorem exists_blend_inHull (c d : Color) (t : Rat) :
    ∃ mixed, c.blend d t = .ok mixed ∧ InHull [c, d] mixed := by
  have nonneg : 0 ≤ max 0 (min 1 t) := le_max_left _ _
  have atMostOne : max 0 (min 1 t) ≤ 1 := max_le zero_le_one (min_le_left _ _)
  obtain ⟨mixed, blends, between⟩ : ∃ mixed, c.blend d t = .ok mixed ∧ ∀ channel ∈ channels,
      min (channel c) (channel d) ≤ channel mixed ∧
        channel mixed ≤ max (channel c) (channel d) := by
    apply exists_blend fun a b level => min a b ≤ level ∧ level ≤ max a b
    intro a b
    rw [cutOff_eq]
    exact exists_blendChannel_between a b nonneg atMostOne
  exact ⟨mixed, blends, inHull_pair between⟩

/-- A blend that does not leave the first colour is that colour. -/
theorem blend_of_nonpos (c d : Color) {t : Rat} (atStart : t ≤ 0) : c.blend d t = .ok c := by
  have share : max 0 (min 1 t) = 0 := max_eq_left ((min_le_right _ _).trans atStart)
  obtain ⟨mixed, blends, same⟩ : ∃ mixed, c.blend d t = .ok mixed ∧ ∀ channel ∈ channels,
      channel mixed = channel c := by
    apply exists_blend fun a _ level => level = a
    intro a b
    refine ⟨a, ?_, rfl⟩
    rw [cutOff_eq, share]
    change Except.ok (Number.roundEven ((a.toInt : Rat) + (b.toInt - a.toInt : Int) * 0)) = _
    rw [mul_zero, add_zero, Number.roundEven_intCast]
  rw [blends, eq_of_channels same]

end Color

namespace Pattern

/-! ## Divisions that can fail -/

/-- A ratio; there is none where the divisor is zero. -/
def strictRatio (x y : Rat) : Outcome Rat :=
  if y = 0 then .error (.number .zeroDivisor) else .ok (x / y)

theorem strictRatio_of_ne {x y : Rat} (nonzero : y ≠ 0) : strictRatio x y = .ok (x / y) :=
  if_neg nonzero

/-- The colour at a position of a gradient, by a division that fails at zero. -/
def strictColorAt (first last : Stop Rat) (stops : List (Stop Rat)) (position : Rat) :
    Outcome Color :=
  let (lower, upper) := (between? position stops).getD (first, last)
  if Scalar.eq upper.1 lower.1 then .ok lower.2
  else do
    let share ← strictRatio (position - lower.1) (upper.1 - lower.1)
    lower.2.blend upper.2 share

/-- A gradient painted over a range of lights, by divisions that fail at zero. -/
def strictGradient (pattern : Pattern) (canvas : Canvas) (range : PixelRange)
    (coloring : Coloring) : Outcome Canvas :=
  let plain := canvas.paintRun range.first range.length coloring.primary
  let stops := stopsInUse Rat pattern coloring
  match stops.head?, stops.getLast? with
  | some first, some last =>
      if stops.length < 2 then .ok plain
      else
        paintEach canvas range fun offset => do
          let position ← strictRatio offset range.length
          strictColorAt first last stops position
  | _, _ => .ok plain

/-- No two stops whose distance divides are at one position. -/
theorem strictColorAt_eq (first last : Stop Rat) (stops : List (Stop Rat)) (position : Rat) :
    strictColorAt first last stops position = colorAt first last stops position := by
  unfold strictColorAt colorAt
  generalize (between? position stops).getD (first, last) = ends
  obtain ⟨lower, upper⟩ := ends
  simp only
  split
  · rfl
  · rename_i apart
    have nonzero : upper.1 - lower.1 ≠ 0 := by
      intro same
      exact apart (decide_eq_true (sub_eq_zero.mp same))
    rw [strictRatio_of_ne nonzero, ok_bind]
    rfl

/-- A light of a range has a position: the share of the range that lies before it. -/
theorem position_eq (range : PixelRange) (offset : Nat) :
    liftNumber (Scalar.quotient (α := Rat) offset range.length) =
      .ok ((offset : Rat) / range.length) := by
  have nonzero : (range.length : Int) ≠ 0 := by
    unfold PixelRange.length
    omega
  simp only [Scalar.quotient, if_neg nonzero]
  rfl

theorem strictPosition_eq (range : PixelRange) (offset : Nat) :
    strictRatio offset range.length = .ok ((offset : Rat) / range.length) := by
  apply strictRatio_of_ne
  exact_mod_cast (show range.length ≠ 0 from Nat.succ_ne_zero _)

/-- No gradient divides by zero. -/
theorem strictGradient_eq {pattern : Pattern} (isGradient : pattern.layout = .gradient)
    (canvas : Canvas) (range : PixelRange) (coloring : Coloring) :
    pattern.strictGradient canvas range coloring =
      pattern.paint Rat canvas range coloring := by
  unfold strictGradient paint
  simp only [isGradient, position_eq, strictPosition_eq, strictColorAt_eq]
  cases (stopsInUse Rat pattern coloring).head? with
  | none => rfl
  | some first => cases (stopsInUse Rat pattern coloring).getLast? <;> rfl

/-! ## The colour at a position -/

section Position

variable {first last : Stop Rat} {stops : List (Stop Rat)} {position : Rat}

theorem scalar_le_iff {x y : Rat} : Scalar.le x y = true ↔ x ≤ y := by
  rw [Scalar.le, Bool.or_eq_true, le_iff_lt_or_eq]
  exact or_congr decide_eq_true_iff decide_eq_true_iff

/-- Neighbouring stops that a position lies between are among the stops. -/
theorem mem_of_between? {lower upper : Stop Rat}
    (found : between? position stops = some (lower, upper)) : lower ∈ stops ∧ upper ∈ stops := by
  induction stops using between?.induct position with
  | case1 current following rest inside =>
      rw [between?, if_pos inside] at found
      cases found
      exact ⟨List.mem_cons_self, List.mem_cons_of_mem _ List.mem_cons_self⟩
  | case2 current following rest outside ih =>
      rw [between?, if_neg outside] at found
      obtain ⟨lowerMem, upperMem⟩ := ih found
      exact ⟨List.mem_cons_of_mem _ lowerMem, List.mem_cons_of_mem _ upperMem⟩
  | case3 stops short =>
      cases stops with
      | nil => cases found
      | cons stop rest =>
          cases rest with
          | nil => cases found
          | cons following rest => exact absurd rfl (short stop following rest)

/-- A position in front of all stops lies between none. -/
theorem between?_eq_none (inFront : ∀ stop ∈ stops, position < stop.1) :
    between? position stops = none := by
  induction stops using between?.induct position with
  | case1 current following rest inside =>
      obtain ⟨behind, -⟩ := (Bool.and_eq_true _ _).mp inside
      have ahead := inFront current List.mem_cons_self
      rw [scalar_le_iff] at behind
      exact absurd ahead (not_lt.mpr behind)
  | case2 current following rest outside ih =>
      rw [between?, if_neg outside]
      exact ih fun stop mem => inFront stop (List.mem_cons_of_mem _ mem)
  | case3 stops short => exact between?.eq_2 position stops short

/-- The colour at a position is in the hull of those of the stops. -/
theorem exists_colorAt_inHull (firstMem : first ∈ stops) (lastMem : last ∈ stops)
    (position : Rat) : ∃ color, colorAt first last stops position = .ok color ∧
      Color.InHull (stops.map Prod.snd) color := by
  obtain ⟨lower, upper, isPair, lowerMem, upperMem⟩ : ∃ lower upper,
      (between? position stops).getD (first, last) = (lower, upper) ∧
        lower ∈ stops ∧ upper ∈ stops := by
    cases found : between? position stops with
    | none => exact ⟨first, last, rfl, firstMem, lastMem⟩
    | some pair => exact ⟨pair.1, pair.2, rfl, mem_of_between? found⟩
  have lowerColor : lower.2 ∈ stops.map Prod.snd := List.mem_map_of_mem lowerMem
  have upperColor : upper.2 ∈ stops.map Prod.snd := List.mem_map_of_mem upperMem
  unfold colorAt
  rw [isPair]
  simp only
  split
  · exact ⟨_, rfl, Color.inHull_of_mem lowerColor⟩
  · obtain ⟨mixed, blends, inHull⟩ := Color.exists_blend_inHull lower.2 upper.2
      (Scalar.div (Scalar.sub position lower.1) (Scalar.sub upper.1 lower.1))
    refine ⟨mixed, blends, inHull.mono ?_⟩
    intro member mem
    rcases List.mem_pair.mp mem with rfl | rfl
    · exact lowerColor
    · exact upperColor

/-- At the first stop and in front of it, the colour is that of the first stop. -/
theorem colorAt_of_le_first {rest : List (Stop Rat)}
    (increasing : (first :: rest).Pairwise fun a b => a.1 ≤ b.1) (lastMem : last ∈ rest)
    (upToFirst : position ≤ first.1) :
    colorAt first last (first :: rest) position = .ok first.2 := by
  obtain ⟨firstLeast, -⟩ := List.pairwise_cons.mp increasing
  obtain ⟨upper, isPair, ordered⟩ : ∃ upper,
      (between? position (first :: rest)).getD (first, last) = (first, upper) ∧
        first.1 ≤ upper.1 := by
    rcases upToFirst.lt_or_eq with inFront | same
    · rw [between?_eq_none]
      · exact ⟨last, rfl, firstLeast last lastMem⟩
      · intro stop mem
        rcases List.mem_cons.mp mem with rfl | later
        · exact inFront
        · exact inFront.trans_le (firstLeast stop later)
    · cases rest with
      | nil => cases lastMem
      | cons following others =>
          have behind := firstLeast following List.mem_cons_self
          have inside : (Scalar.le first.1 position && Scalar.le position following.1) = true := by
            rw [Bool.and_eq_true, scalar_le_iff, scalar_le_iff, same]
            exact ⟨le_rfl, behind⟩
          rw [between?, if_pos inside]
          exact ⟨following, rfl, behind⟩
  unfold colorAt
  rw [isPair]
  simp only
  split
  · rfl
  · exact Color.blend_of_nonpos _ _
      (div_nonpos_of_nonpos_of_nonneg (sub_nonpos.mpr upToFirst) (sub_nonneg.mpr ordered))

end Position

/-! ## The stops in use -/

section InUse

variable {pattern : Pattern} {coloring : Coloring} {stops : List (Stop Rat)}

/-- The stops that a gradient goes by, as they were given: its own where there are several, else the
two colours at zero and at one, else the primary colour alone. -/
def usedStops (pattern : Pattern) (coloring : Coloring) : List (Stop Rat) :=
  if 2 ≤ pattern.stops.length then
    pattern.stops.map fun stop => (stop.position.toRat, stop.color)
  else
    match coloring.secondary with
    | some secondary => [(0, coloring.primary), (1, secondary)]
    | none => [(0, coloring.primary)]

/-- The first of the stops in the order of their positions, where those that share one keep their
order. -/
def IsFirst (stops : List (Stop Rat)) (first : Stop Rat) : Prop :=
  ∃ front back, stops = front ++ first :: back ∧
    (∀ stop ∈ front, first.1 < stop.1) ∧ ∀ stop ∈ back, first.1 ≤ stop.1

theorem sortedStops_eq (stops : List (Stop Rat)) :
    sortedStops stops = stops.mergeSort (Sorting.before Prod.fst) := by
  have same : (fun a b : Stop Rat => !Scalar.lt b.1 a.1) = Sorting.before Prod.fst := by
    funext a b
    change (!decide (b.1 < a.1)) = decide (a.1 ≤ b.1)
    rw [← decide_not]
    exact decide_eq_decide.mpr not_lt
  rw [sortedStops, same]

/-- Several stops in use are sorted by their positions. -/
theorem stopsInUse_eq (several : 2 ≤ (pattern.usedStops coloring).length) :
    stopsInUse Rat pattern coloring =
      (pattern.usedStops coloring).mergeSort (Sorting.before Prod.fst) := by
  unfold usedStops at several ⊢
  unfold stopsInUse
  simp only [sortedStops_eq, List.length_mergeSort, List.length_map]
  by_cases enough : 2 ≤ pattern.stops.length
  · rw [if_pos enough]
    cases coloring.secondary with
    | none => rfl
    | some secondary =>
        simp only
        rw [if_neg (by omega)]
        rfl
  · rw [if_neg enough] at several ⊢
    cases isSecondary : coloring.secondary with
    | none =>
        rw [isSecondary] at several
        exact absurd several (by simp)
    | some secondary =>
        simp only
        rw [if_pos (by omega), List.mergeSort_of_pairwise]
        · rfl
        · simp [Sorting.before]

/-- Without several stops in use, there is only the primary colour. -/
theorem usedStops_eq_primary (few : ¬2 ≤ (pattern.usedStops coloring).length) :
    pattern.usedStops coloring = [(0, coloring.primary)] ∧
      (stopsInUse Rat pattern coloring).length < 2 := by
  unfold usedStops at few ⊢
  unfold stopsInUse
  by_cases enough : 2 ≤ pattern.stops.length
  · rw [if_pos enough, List.length_map] at few
    exact absurd enough few
  · rw [if_neg enough] at few ⊢
    cases isSecondary : coloring.secondary with
    | none =>
        simp only [sortedStops_eq, List.length_mergeSort, List.length_map, true_and]
        omega
    | some secondary =>
        rw [isSecondary] at few
        exact absurd (le_refl 2) few

/-- No stop in use lies in front of zero. -/
theorem usedStops_nonneg (bounded : ∀ stop ∈ pattern.stops, stop.position.IsUnit) :
    ∀ stop ∈ pattern.usedStops coloring, 0 ≤ stop.1 := by
  unfold usedStops
  split
  · intro stop mem
    obtain ⟨own, ownMem, rfl⟩ := List.mem_map.mp mem
    exact (Number.Binary64.isUnit_iff.mp (bounded own ownMem)).2.1
  · cases coloring.secondary with
    | none => simp
    | some secondary => simp

end InUse

/-! ## Gradients over a range -/

/-- What painting a gradient by some stops does: it gives every light of a range a colour in the
hull of those of the stops, the first light that of the first stop, and no other light any. -/
structure IsGradient (canvas : Canvas) (range : PixelRange) (stops : List (Stop Rat))
    (painted : Canvas) : Prop where
  inHull : ∀ pixel, range.Contains pixel → ∃ color, painted[pixel]? = some color ∧
    Color.InHull (stops.map Prod.snd) color
  starts : ∃ first, IsFirst stops first ∧ painted[range.first]? = some first.2
  changesOnly : canvas.ChangesOnly range.Contains painted

/-- A range in one colour is a gradient by a single stop. -/
theorem isGradient_paintRun (canvas : Canvas) (range : PixelRange) (stop : Stop Rat) :
    IsGradient canvas range [stop] (canvas.paintRun range.first range.length stop.2) := by
  have painted := Canvas.Repaints.paintRun canvas range.first range.length stop.2
  have shown : ∀ pixel, range.Contains pixel →
      (canvas.paintRun range.first range.length stop.2)[pixel]? = some stop.2 :=
    fun pixel inside => (painted pixel).1 (range.contains_iff_lt.mpr inside)
  refine ⟨?_, ?_, ?_⟩
  · intro pixel inside
    exact ⟨stop.2, shown pixel inside, Color.inHull_of_mem (by simp)⟩
  · exact ⟨stop, ⟨[], [], rfl, by simp, by simp⟩, shown range.first ⟨le_rfl, range.ordered⟩⟩
  · intro pixel outside
    exact (painted pixel).2 fun within => outside (range.contains_iff_lt.mp within)

/-- Painting each light by its position among several sorted stops paints a gradient. -/
theorem exists_paintEach_gradient {stops rest : List (Stop Rat)} {first last : Stop Rat}
    (sorted : stops.mergeSort (Sorting.before Prod.fst) = first :: rest) (lastMem : last ∈ rest)
    (nonneg : ∀ stop ∈ stops, 0 ≤ stop.1) (canvas : Canvas) (range : PixelRange) :
    ∃ painted,
      (paintEach canvas range fun offset => do
        let position ← liftNumber (Scalar.quotient (α := Rat) offset range.length)
        colorAt first last (first :: rest) position) = .ok painted ∧
      IsGradient canvas range stops painted := by
  have among : ∀ stop, stop ∈ first :: rest ↔ stop ∈ stops := by
    intro stop
    rw [← sorted, List.mem_mergeSort]
  have firstMem : first ∈ first :: rest := List.mem_cons_self
  have increasing := Sorting.pairwise_le_mergeSort Prod.fst stops
  rw [sorted] at increasing
  choose color isColor inHull using fun offset : Nat =>
    exists_colorAt_inHull firstMem (List.mem_cons_of_mem first lastMem) (offset / range.length)
  have isRule : ∀ offset, offset < range.length → (do
      let position ← liftNumber (Scalar.quotient (α := Rat) offset range.length)
      colorAt first last (first :: rest) position) = .ok (color offset) := by
    intro offset _
    rw [position_eq, ok_bind, isColor]
  obtain ⟨painted, paints, shown, others⟩ := exists_paintEach_shows isRule canvas
  refine ⟨painted, paints, ?_, ?_, others⟩
  · intro pixel inside
    obtain ⟨fromFirst, beforeEnd⟩ := range.contains_iff_lt.mpr inside
    have shows := shown (pixel - range.first) (by omega)
    rw [Nat.add_sub_cancel' fromFirst] at shows
    refine ⟨_, shows, (inHull _).mono ?_⟩
    intro member mem
    obtain ⟨stop, stopMem, rfl⟩ := List.mem_map.mp mem
    exact List.mem_map_of_mem ((among stop).mp stopMem)
  · refine ⟨first, Sorting.exists_of_mergeSort_eq_cons Prod.fst sorted, ?_⟩
    have starts : ((0 : Nat) : Rat) / range.length ≤ first.1 := by
      rw [Nat.cast_zero, zero_div]
      exact nonneg first ((among first).mp firstMem)
    have isFirst := (isColor 0).symm.trans (colorAt_of_le_first increasing lastMem starts)
    have shows := shown 0 (Nat.succ_pos _)
    rw [Except.ok.inj isFirst] at shows
    exact shows

/-- A gradient can be painted over any range, and paints one by the stops in use. -/
theorem exists_paint_gradient {pattern : Pattern} (isGradient : pattern.layout = .gradient)
    (bounded : ∀ stop ∈ pattern.stops, stop.position.IsUnit) (canvas : Canvas)
    (range : PixelRange) (coloring : Coloring) :
    ∃ painted, pattern.paint Rat canvas range coloring = .ok painted ∧
      IsGradient canvas range (pattern.usedStops coloring) painted := by
  unfold paint
  rw [isGradient]
  simp only
  by_cases several : 2 ≤ (pattern.usedStops coloring).length
  · have manyLeft : ¬(stopsInUse Rat pattern coloring).length < 2 := by
      rw [stopsInUse_eq several, List.length_mergeSort]
      omega
    generalize inUse : stopsInUse Rat pattern coloring = stops at manyLeft ⊢
    have sorted := (stopsInUse_eq several).symm.trans inUse
    rcases stops with _ | ⟨first, _ | ⟨following, others⟩⟩
    · exact absurd Nat.zero_lt_two manyLeft
    · exact absurd Nat.one_lt_two manyLeft
    · obtain ⟨last, isLast⟩ : ∃ last, (following :: others).getLast? = some last :=
        ⟨_, List.getLast?_eq_some_getLast (List.cons_ne_nil _ _)⟩
      rw [List.head?_cons, List.getLast?_cons_cons, isLast]
      simp only
      rw [if_neg manyLeft]
      exact exists_paintEach_gradient sorted (List.mem_of_getLast? isLast)
        (usedStops_nonneg bounded) canvas range
  · obtain ⟨alone, fewLeft⟩ := usedStops_eq_primary several
    have plain := isGradient_paintRun canvas range (0, coloring.primary)
    rw [alone]
    split
    · rw [if_pos fewLeft]
      exact ⟨_, rfl, plain⟩
    · exact ⟨_, rfl, plain⟩

/-- In exact arithmetic, a gradient whose stops lie between zero and one divides by no zero, and
paints a gradient by the stops in use over any range. -/
theorem gradient_stays_in_hull {pattern : Pattern} (isGradient : pattern.layout = .gradient)
    (bounded : ∀ stop ∈ pattern.stops, stop.position.IsUnit) (canvas : Canvas)
    (range : PixelRange) (coloring : Coloring) :
    ∃ painted, pattern.strictGradient canvas range coloring = .ok painted ∧
      pattern.paint Rat canvas range coloring = .ok painted ∧
      IsGradient canvas range (pattern.usedStops coloring) painted := by
  obtain ⟨painted, paints, isPainted⟩ := exists_paint_gradient isGradient bounded canvas range
    coloring
  exact ⟨painted, (strictGradient_eq isGradient canvas range coloring).trans paints, paints,
    isPainted⟩

/-- A gradient with two stops half way and one at the end, which is given first. -/
def halfwayTwice : Pattern where
  layout := .gradient
  stops := [⟨.finite 1, ⟨0, 0, 255, 0⟩⟩, ⟨.finite (1 / 2), ⟨255, 0, 0, 0⟩⟩,
    ⟨.finite (1 / 2), ⟨0, 255, 0, 0⟩⟩]

/-- The colour of the first stop half way reaches to the middle of the range; behind it, that of the
second blends with the one at the end. -/
theorem gradient_stays_in_hull_halfwayTwice :
    halfwayTwice.layout = .gradient ∧ (∀ stop ∈ halfwayTwice.stops, stop.position.IsUnit) ∧
      ∃ painted, halfwayTwice.paint Rat .blank ⟨4, 7, by decide⟩ {} = .ok painted ∧
        IsGradient .blank ⟨4, 7, by decide⟩ (halfwayTwice.usedStops {}) painted ∧
        painted.toList = [(4, ⟨255, 0, 0, 0⟩), (5, ⟨255, 0, 0, 0⟩), (6, ⟨255, 0, 0, 0⟩),
          (7, ⟨0, 128, 128, 0⟩)] := by
  have bounded : ∀ stop ∈ halfwayTwice.stops, stop.position.IsUnit := by
    intro stop mem
    simp only [halfwayTwice, List.mem_cons, List.not_mem_nil, or_false] at mem
    rcases mem with rfl | rfl | rfl
    all_goals exact ⟨by decide +kernel, by decide +kernel⟩
  obtain ⟨painted, -, paints, isPainted⟩ :=
    @gradient_stays_in_hull halfwayTwice rfl bounded .blank ⟨4, 7, by decide⟩ {}
  have sorted : stopsInUse Rat halfwayTwice {} =
      [(1 / 2, ⟨255, 0, 0, 0⟩), (1 / 2, ⟨0, 255, 0, 0⟩), (1, ⟨0, 0, 255, 0⟩)] := by
    rw [stopsInUse_eq (by decide), Sorting.mergeSort_eq_insertionSort]
    decide +kernel
  have shown : ((halfwayTwice.paint Rat .blank ⟨4, 7, by decide⟩ {}).map
      Std.TreeMap.toList).toOption = some [(4, ⟨255, 0, 0, 0⟩), (5, ⟨255, 0, 0, 0⟩),
        (6, ⟨255, 0, 0, 0⟩), (7, ⟨0, 128, 128, 0⟩)] := by
    unfold paint
    rw [sorted]
    decide +kernel
  obtain ⟨_, same, isShown⟩ := Outcome.exists_ok_of_toOption shown
  cases paints.symm.trans same
  exact ⟨rfl, bounded, painted, paints, isPainted, isShown⟩

end Pattern

end Eaves
