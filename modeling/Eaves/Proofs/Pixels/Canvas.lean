import Eaves.Pixels.Patterned
import Eaves.Pixels.Spaced
import Eaves.Proofs.Outcome
import Eaves.Proofs.Pixels.Groups

/-!
# What painting does to the lights of a canvas

Each way of painting is described by what it does to a single light.  Two relations
between a canvas and what is painted over it go with every step of a painting: that
none but some lights changed, and that all of these are lit.  The steps of a rule or a
pattern change no light outside their range, so a canvas that fits on a strip, one with
no light lit beyond it, still does when a range of the strip is painted.
-/

namespace Eaves

namespace Canvas

/-! ## Single lights -/

@[simp]
theorem getElem?_blank (pixel : Nat) : (blank : Canvas)[pixel]? = none :=
  Std.TreeMap.getElem?_emptyc

@[simp]
theorem getElem?_insert (canvas : Canvas) (first pixel : Nat) (color : Color) :
    (canvas.insert first color)[pixel]? = if first = pixel then some color else canvas[pixel]? := by
  rw [Std.TreeMap.getElem?_insert]
  simp only [Nat.compare_eq_eq]

/-- A run of lights has its colour; the others are as before. -/
theorem getElem?_paintRun (canvas : Canvas) (first count pixel : Nat) (color : Color) :
    (canvas.paintRun first count color)[pixel]? =
      if first ≤ pixel ∧ pixel < first + count then some color else canvas[pixel]? := by
  unfold paintRun
  induction count generalizing canvas first with
  | zero =>
      have outside : ¬ (first ≤ pixel ∧ pixel < first + 0) := by omega
      rw [if_neg outside, List.range'_zero, List.foldl_nil]
  | succ count ih =>
      rw [List.range'_succ, List.foldl_cons, ih, getElem?_insert]
      by_cases here : first = pixel
      · subst here
        simp
      · have moved : (first + 1 ≤ pixel ∧ pixel < first + 1 + count) ↔
            (first ≤ pixel ∧ pixel < first + (count + 1)) := by omega
        simp only [moved, here, if_false]

/-- A run of lights has its colour if there is one for it. -/
theorem getElem?_paintRun? (canvas : Canvas) (first count pixel : Nat) (color : Option Color) :
    (canvas.paintRun? first count color)[pixel]? =
      if first ≤ pixel ∧ pixel < first + count then color.or canvas[pixel]?
      else canvas[pixel]? := by
  cases color with
  | none => simp [paintRun?]
  | some color => simp [paintRun?, getElem?_paintRun]

theorem getElem?_below (canvas : Canvas) (total pixel : Nat) :
    (canvas.below total)[pixel]? = if pixel < total then canvas[pixel]? else none := by
  unfold below
  rw [Std.TreeMap.getElem?_filter']
  by_cases inside : pixel < total <;> cases canvas[pixel]? <;> simp [inside]

/-- Painting lights changes none that is not among them. -/
theorem getElem?_foldl_insert_of_forall_ne {lights : List (Nat × Color)} {pixel : Nat}
    (others : ∀ light ∈ lights, light.1 ≠ pixel) (canvas : Canvas) :
    (lights.foldl (fun painted light => painted.insert light.1 light.2) canvas)[pixel]? =
      canvas[pixel]? := by
  induction lights generalizing canvas with
  | nil => rfl
  | cons light rest ih =>
      rw [List.foldl_cons, ih fun other mem => others other (List.mem_cons_of_mem _ mem),
        getElem?_insert, if_neg (others light List.mem_cons_self)]

/-- Painting lights at distinct places gives each its colour. -/
theorem getElem?_foldl_insert_of_mem {lights : List (Nat × Color)} {pixel : Nat} {color : Color}
    (distinct : lights.Pairwise fun a b => a.1 ≠ b.1) (mem : (pixel, color) ∈ lights)
    (canvas : Canvas) :
    (lights.foldl (fun painted light => painted.insert light.1 light.2) canvas)[pixel]? =
      some color := by
  induction lights generalizing canvas with
  | nil => cases mem
  | cons light rest ih =>
      rcases List.pairwise_cons.mp distinct with ⟨others, restDistinct⟩
      rw [List.foldl_cons]
      rcases List.mem_cons.mp mem with here | later
      · subst here
        rw [getElem?_foldl_insert_of_forall_ne, getElem?_insert, if_pos rfl]
        intro other otherMem
        exact (others other otherMem).symm
      · exact ih restDistinct later _

/-- Painted over another, a canvas shows its own lights, and the other's where it has none. -/
theorem getElem?_onTopOf (canvas below : Canvas) (pixel : Nat) :
    (canvas.onTopOf below)[pixel]? = canvas[pixel]?.or below[pixel]? := by
  unfold onTopOf
  cases own : canvas[pixel]? with
  | none =>
      rw [Option.none_or]
      apply getElem?_foldl_insert_of_forall_ne
      rintro ⟨other, color⟩ mem rfl
      rw [Std.TreeMap.mem_toList_iff_getElem?_eq_some, own] at mem
      cases mem
  | some color =>
      rw [Option.some_or]
      apply getElem?_foldl_insert_of_mem (canvas.pairwise_toList.imp Nat.ne_of_lt)
      exact Std.TreeMap.mem_toList_iff_getElem?_eq_some.mpr own

/-! ## One operation after another -/

/-- A relation between a canvas, some lights and what is painted over it goes through a run of
operations that succeed, if it holds of nothing painted and goes through painting twice. -/
theorem exists_foldlM {Paints : Canvas → (Nat → Prop) → Canvas → Prop}
    (nothing : ∀ canvas, Paints canvas (fun _ => False) canvas)
    (twice : ∀ {canvas middle painted lights more}, Paints canvas lights middle →
      Paints middle more painted → Paints canvas (fun pixel => lights pixel ∨ more pixel) painted)
    {α : Type} {paint : Canvas → α → Outcome Canvas} {each : α → Nat → Prop} {members : List α}
    (steps : ∀ (work : Canvas), ∀ member ∈ members, ∃ next,
      paint work member = .ok next ∧ Paints work (each member) next) (canvas : Canvas) :
    ∃ painted, members.foldlM paint canvas = .ok painted ∧
      Paints canvas (fun pixel => ∃ member ∈ members, each member pixel) painted := by
  induction members generalizing canvas with
  | nil => exact ⟨canvas, rfl, by simpa using nothing canvas⟩
  | cons member rest ih =>
      obtain ⟨next, stepOk, step⟩ := steps canvas member List.mem_cons_self
      obtain ⟨painted, restOk, others⟩ :=
        ih (fun work other mem => steps work other (List.mem_cons_of_mem _ mem)) next
      refine ⟨painted, ?_, by simpa using twice step others⟩
      rw [List.foldlM_cons, stepOk, Outcome.ok_bind, restOk]

/-! ## Lights painted in one colour -/

/-- Painting gave some lights a colour, and left the others as they were. -/
def Repaints (canvas : Canvas) (color : Color) (lights : Nat → Prop) (painted : Canvas) : Prop :=
  ∀ pixel, (lights pixel → painted[pixel]? = some color) ∧
    (¬lights pixel → painted[pixel]? = canvas[pixel]?)

namespace Repaints

variable {canvas middle painted : Canvas} {color : Color} {lights more : Nat → Prop}

theorem refl (canvas : Canvas) (color : Color) :
    canvas.Repaints color (fun _ => False) canvas := by
  intro pixel
  exact ⟨False.elim, fun _ => rfl⟩

theorem congr (repaints : canvas.Repaints color lights painted)
    (same : ∀ pixel, lights pixel ↔ more pixel) : canvas.Repaints color more painted := by
  intro pixel
  rw [← same]
  exact repaints pixel

/-- Painting twice in one colour paints the lights of both times. -/
theorem trans (first : canvas.Repaints color lights middle)
    (second : middle.Repaints color more painted) :
    canvas.Repaints color (fun pixel => lights pixel ∨ more pixel) painted := by
  intro pixel
  by_cases again : more pixel
  · exact ⟨fun _ => (second pixel).1 again, fun neither => absurd (.inr again) neither⟩
  · rw [(second pixel).2 again]
    constructor
    · intro either
      exact (first pixel).1 (either.resolve_right again)
    · intro neither
      exact (first pixel).2 fun before => neither (.inl before)

theorem insert (canvas : Canvas) (first : Nat) (color : Color) :
    canvas.Repaints color (fun pixel => pixel = first) (canvas.insert first color) := by
  intro pixel
  rw [getElem?_insert]
  constructor
  · rintro rfl
    exact if_pos rfl
  · intro other
    exact if_neg fun same => other same.symm

theorem paintRun (canvas : Canvas) (first count : Nat) (color : Color) :
    canvas.Repaints color (fun pixel => first ≤ pixel ∧ pixel < first + count)
      (canvas.paintRun first count color) := by
  intro pixel
  rw [getElem?_paintRun]
  exact ⟨fun inside => if_pos inside, fun outside => if_neg outside⟩

/-- Steps that each paint some lights paint the lights of all of them. -/
theorem foldl {α : Type} {paint : Canvas → α → Canvas} {each : α → Nat → Prop}
    (steps : ∀ (work : Canvas) member, work.Repaints color (each member) (paint work member))
    (members : List α) (canvas : Canvas) :
    canvas.Repaints color (fun pixel => ∃ member ∈ members, each member pixel)
      (members.foldl paint canvas) := by
  induction members generalizing canvas with
  | nil => exact (refl canvas color).congr (by simp)
  | cons member rest ih =>
      apply ((steps canvas member).trans (ih (paint canvas member))).congr
      simp

/-- Operations that each succeed and paint some lights succeed one after another, and paint the
lights of all of them. -/
theorem foldlM {α : Type} {paint : Canvas → α → Outcome Canvas} {each : α → Nat → Prop}
    (steps : ∀ (work : Canvas) member, ∃ next, paint work member = .ok next ∧
      work.Repaints color (each member) next)
    (members : List α) (canvas : Canvas) :
    ∃ painted, members.foldlM paint canvas = .ok painted ∧
      canvas.Repaints color (fun pixel => ∃ member ∈ members, each member pixel) painted :=
  exists_foldlM (fun canvas => refl canvas color) trans (fun work member _ => steps work member)
    canvas

/-- Painted on a blank canvas, the lights are those that show the colour, and no light shows any
other. -/
theorem getElem?_eq_some_iff (repaints : blank.Repaints color lights painted) {pixel : Nat}
    {shown : Color} : painted[pixel]? = some shown ↔ shown = color ∧ lights pixel := by
  by_cases lit : lights pixel
  · rw [(repaints pixel).1 lit, Option.some.injEq, eq_comm]
    exact (and_iff_left lit).symm
  · rw [(repaints pixel).2 lit, getElem?_blank]
    simp [lit]

end Repaints

/-! ## Lights that painting may change -/

/-- Painting changed none but some lights. -/
def ChangesOnly (canvas : Canvas) (lights : Nat → Prop) (painted : Canvas) : Prop :=
  ∀ pixel, ¬lights pixel → painted[pixel]? = canvas[pixel]?

/-- Painting in one colour changes none but the lights it paints. -/
theorem Repaints.changesOnly {canvas painted : Canvas} {color : Color} {lights : Nat → Prop}
    (repaints : canvas.Repaints color lights painted) : canvas.ChangesOnly lights painted :=
  fun pixel => (repaints pixel).2

namespace ChangesOnly

variable {canvas middle painted : Canvas} {lights more : Nat → Prop}

theorem refl (canvas : Canvas) (lights : Nat → Prop) : canvas.ChangesOnly lights canvas :=
  fun _ _ => rfl

theorem trans (first : canvas.ChangesOnly lights middle)
    (second : middle.ChangesOnly lights painted) : canvas.ChangesOnly lights painted := by
  intro pixel other
  rw [second pixel other, first pixel other]

theorem mono (changes : canvas.ChangesOnly lights painted)
    (among : ∀ pixel, lights pixel → more pixel) : canvas.ChangesOnly more painted := by
  intro pixel other
  exact changes pixel fun mem => other (among pixel mem)

theorem insert (canvas : Canvas) {first : Nat} (inside : lights first) (color : Color) :
    canvas.ChangesOnly lights (canvas.insert first color) := by
  apply (Repaints.insert canvas first color).changesOnly.mono
  rintro pixel rfl
  exact inside

theorem paintRun (canvas : Canvas) {first count : Nat}
    (inside : ∀ pixel, first ≤ pixel → pixel < first + count → lights pixel) (color : Color) :
    canvas.ChangesOnly lights (canvas.paintRun first count color) := by
  apply (Repaints.paintRun canvas first count color).changesOnly.mono
  rintro pixel ⟨fromFirst, beforeEnd⟩
  exact inside pixel fromFirst beforeEnd

theorem paintRun? (canvas : Canvas) {first count : Nat}
    (inside : ∀ pixel, first ≤ pixel → pixel < first + count → lights pixel)
    (color : Option Color) : canvas.ChangesOnly lights (canvas.paintRun? first count color) := by
  cases color with
  | none => exact refl canvas lights
  | some color => exact paintRun canvas inside color

/-- Steps that each change none but some lights change none but these. -/
theorem foldl {α : Type} {paint : Canvas → α → Canvas} {members : List α}
    (steps : ∀ work member, member ∈ members → ChangesOnly work lights (paint work member))
    (canvas : Canvas) : canvas.ChangesOnly lights (members.foldl paint canvas) := by
  induction members generalizing canvas with
  | nil => exact refl canvas lights
  | cons member rest ih =>
      apply (steps canvas member List.mem_cons_self).trans
      exact ih (fun work other mem => steps work other (List.mem_cons_of_mem _ mem)) _

end ChangesOnly

/-! ## Lights that painting lights -/

/-- Painting lit every one of some lights, in whatever colours, and changed no other. -/
structure Fills (canvas : Canvas) (lights : Nat → Prop) (painted : Canvas) : Prop where
  lit : ∀ pixel, lights pixel → ∃ color, painted[pixel]? = some color
  changesOnly : canvas.ChangesOnly lights painted

namespace Fills

variable {canvas middle painted : Canvas} {lights more : Nat → Prop}

theorem congr (fills : canvas.Fills lights painted)
    (same : ∀ pixel, lights pixel ↔ more pixel) : canvas.Fills more painted := by
  constructor
  · intro pixel inside
    exact fills.lit pixel ((same pixel).mpr inside)
  · exact fills.changesOnly.mono fun pixel => (same pixel).mp

/-- A light that was lit before stays lit, whether it is painted again or not. -/
theorem trans (first : canvas.Fills lights middle) (second : middle.Fills more painted) :
    canvas.Fills (fun pixel => lights pixel ∨ more pixel) painted := by
  constructor
  · intro pixel inside
    by_cases again : more pixel
    · exact second.lit pixel again
    · rw [second.changesOnly pixel again]
      exact first.lit pixel (inside.resolve_right again)
  · apply (first.changesOnly.mono fun pixel => Or.inl).trans
    exact second.changesOnly.mono fun pixel => Or.inr

/-- Painting in one colour lights the lights it paints. -/
theorem of_repaints {color : Color} (repaints : canvas.Repaints color lights painted) :
    canvas.Fills lights painted :=
  ⟨fun pixel inside => ⟨color, (repaints pixel).1 inside⟩, repaints.changesOnly⟩

/-- Operations that each succeed and light some lights succeed one after another, and light the
lights of all of them. -/
theorem foldlM {α : Type} {paint : Canvas → α → Outcome Canvas} {each : α → Nat → Prop}
    {members : List α} (steps : ∀ (work : Canvas), ∀ member ∈ members, ∃ next,
      paint work member = .ok next ∧ work.Fills (each member) next) (canvas : Canvas) :
    ∃ painted, members.foldlM paint canvas = .ok painted ∧
      canvas.Fills (fun pixel => ∃ member ∈ members, each member pixel) painted :=
  exists_foldlM (fun canvas => ⟨fun _ => False.elim, ChangesOnly.refl canvas _⟩) trans steps canvas

end Fills

/-! ## Canvases that fit on a strip -/

/-- No light beyond a strip of `total` lights is lit. -/
def FitsOn (canvas : Canvas) (total : Nat) : Prop :=
  ∀ pixel color, canvas[pixel]? = some color → pixel < total

theorem blank_fitsOn {total : Nat} : FitsOn blank total := by
  intro pixel color lit
  simp at lit

/-- Cutting a canvas that fits on a strip at the end of the strip drops no light. -/
theorem FitsOn.toList_below {canvas : Canvas} {total : Nat} (fits : canvas.FitsOn total) :
    (canvas.below total).toList = canvas.toList := by
  unfold below
  rw [Std.TreeMap.toList_filter, List.filter_eq_self]
  rintro ⟨pixel, color⟩ mem
  exact decide_eq_true (fits pixel color (Std.TreeMap.mem_toList_iff_getElem?_eq_some.mp mem))

/-- Painting lights of the strip only leaves a canvas that fits on it. -/
theorem FitsOn.of_changesOnly {canvas painted : Canvas} {lights : Nat → Prop} {total : Nat}
    (fits : canvas.FitsOn total) (changes : canvas.ChangesOnly lights painted)
    (onStrip : ∀ pixel, lights pixel → pixel < total) : painted.FitsOn total := by
  intro pixel color lit
  by_cases inside : lights pixel
  · exact onStrip pixel inside
  · rw [changes pixel inside] at lit
    exact fits pixel color lit

end Canvas

/-! ## Spacing rules stay inside their range -/

namespace PixelRange

/-- A range has the lights from its first on, as many as it is long. -/
theorem contains_iff_lt (range : PixelRange) {pixel : Nat} :
    range.first ≤ pixel ∧ pixel < range.first + range.length ↔ range.Contains pixel := by
  have := range.ordered
  unfold length Contains
  omega

/-- A range starts, and has as many lights as are left, before the end of a strip it lies on. -/
theorem first_add_length_le {range : PixelRange} {total : Nat} (inside : range.last < total) :
    range.first + range.length ≤ total := by
  have := range.ordered
  unfold length
  omega

end PixelRange

namespace Spacing

variable {canvas : Canvas}

/-- A cycle changes none but the lights that remain. -/
theorem paintCycle_changesOnly {lit : Color} {dark : Option Color} {on off : Nat} {isLit : Bool}
    {first remaining : Nat} {lights : Nat → Prop}
    (inside : ∀ pixel, first ≤ pixel → pixel < first + remaining → lights pixel) :
    canvas.ChangesOnly lights (paintCycle lit dark on off canvas isLit first remaining) := by
  induction canvas, isLit, first, remaining using paintCycle.induct lit dark on off with
  | case1 canvas isLit first remaining count done =>
      rw [paintCycle, dif_pos done]
      exact Canvas.ChangesOnly.refl canvas lights
  | case2 canvas isLit first remaining count going _ ih =>
      have inStretch : ∀ pixel, first ≤ pixel → pixel < first + min count remaining →
          lights pixel := fun pixel fromFirst beforeEnd => inside pixel fromFirst (by omega)
      have stretch : canvas.ChangesOnly lights
          (paintStretch canvas lit dark isLit first (min count remaining)) := by
        unfold paintStretch
        split
        · exact Canvas.ChangesOnly.paintRun canvas inStretch lit
        · exact Canvas.ChangesOnly.paintRun? canvas inStretch dark
      rw [paintCycle, dif_neg going]
      apply stretch.trans
      apply ih
      intro pixel fromNext beforeEnd
      exact inside pixel (by omega) (by omega)

/-- Lighting offsets, none of them left of a range, changes none but its lights. -/
theorem paintOffsets_changesOnly {range : PixelRange} {color : Color} {offsets : List Int}
    (notLeft : ∀ offset ∈ offsets, 0 ≤ offset) :
    canvas.ChangesOnly range.Contains (paintOffsets canvas range color offsets) := by
  apply Canvas.ChangesOnly.foldl
  intro work offset mem
  have notLeft := notLeft offset mem
  simp only
  split
  · exact Canvas.ChangesOnly.insert work ⟨by omega, by assumption⟩ color
  · exact Canvas.ChangesOnly.refl work _

/-- Painting the anchors of a segment over a range changes none but the lights of the range. -/
theorem paintAnchors_changesOnly {range : PixelRange} {color : Color} {segment : Segment} :
    canvas.ChangesOnly range.Contains (paintAnchors canvas range color segment) := by
  unfold paintAnchors
  split
  · exact Canvas.ChangesOnly.refl canvas _
  · apply Canvas.ChangesOnly.foldl
    intro work anchor _
    simp only
    split
    · apply Canvas.ChangesOnly.paintRun
      intro pixel fromAnchor beforeEnd
      constructor <;> omega
    · exact Canvas.ChangesOnly.refl work _

/-- The first light of every interval is each light of the range at a multiple of the interval. -/
theorem mem_everyNthPixels_iff {range : PixelRange} {interval pixel : Nat}
    (positive : 0 < interval) :
    pixel ∈ everyNthPixels range interval ↔
      range.Contains pixel ∧ (pixel - range.first) % interval = 0 := by
  have ordered := range.ordered
  have isNext (index : Nat) : index < (range.length + interval - 1) / interval ↔
      range.first + index * interval ≤ range.last := by
    rw [← Nat.succ_le_iff, Nat.le_div_iff_mul_le positive, Nat.succ_mul, PixelRange.length]
    omega
  unfold everyNthPixels PixelRange.Contains
  simp only [List.mem_map, List.mem_range, isNext]
  constructor
  · rintro ⟨index, inside, rfl⟩
    refine ⟨⟨Nat.le_add_right _ _, inside⟩, ?_⟩
    rw [Nat.add_sub_cancel_left, Nat.mul_mod_left]
  · rintro ⟨⟨starts, ends⟩, isMultiple⟩
    have whole := Nat.div_add_mod' (pixel - range.first) interval
    exact ⟨(pixel - range.first) / interval, by omega, by omega⟩

end Spacing

/-! ## Patterns light their range -/

namespace Pattern

/-- Painting by a rule with a colour for every offset of a range paints the lights one by one. -/
theorem paintEach_eq {range : PixelRange} {rule : Nat → Outcome Color} {colors : Nat → Color}
    (isRule : ∀ offset, offset < range.length → rule offset = .ok (colors offset))
    (canvas : Canvas) : paintEach canvas range rule =
      .ok (((List.range range.length).map fun offset =>
        (range.first + offset, colors offset)).foldl
          (fun painted light => painted.insert light.1 light.2) canvas) := by
  rw [List.foldl_map]
  apply Outcome.foldlM_eq_ok_foldl
  intro work offset mem
  rw [isRule offset (List.mem_range.mp mem)]
  rfl

/-- A rule with a colour for every offset of a range gives each light of the range the colour of its
offset, and changes no other light. -/
theorem exists_paintEach_shows {range : PixelRange} {rule : Nat → Outcome Color}
    {colors : Nat → Color}
    (isRule : ∀ offset, offset < range.length → rule offset = .ok (colors offset))
    (canvas : Canvas) :
    ∃ painted, paintEach canvas range rule = .ok painted ∧
      (∀ offset, offset < range.length →
        painted[range.first + offset]? = some (colors offset)) ∧
      canvas.ChangesOnly range.Contains painted := by
  refine ⟨_, paintEach_eq isRule canvas, ?_, ?_⟩
  · intro offset inside
    apply Canvas.getElem?_foldl_insert_of_mem
    · rw [List.pairwise_map]
      exact List.nodup_range.imp fun other same => other (Nat.add_left_cancel same)
    · exact List.mem_map_of_mem (List.mem_range.mpr inside)
  · intro pixel outside
    apply Canvas.getElem?_foldl_insert_of_forall_ne
    intro light mem
    obtain ⟨offset, inRange, rfl⟩ := List.mem_map.mp mem
    rintro rfl
    have inside := List.mem_range.mp inRange
    exact outside (range.contains_iff_lt.mp ⟨by omega, by omega⟩)

/-- A rule with a colour for every offset of a range lights the whole range. -/
theorem exists_paintEach {range : PixelRange} {rule : Nat → Outcome Color}
    (colors : ∀ offset, offset < range.length → ∃ color, rule offset = .ok color)
    (canvas : Canvas) :
    ∃ painted, paintEach canvas range rule = .ok painted ∧
      canvas.Fills range.Contains painted := by
  choose! color isColor using colors
  obtain ⟨painted, paints, shown, others⟩ := exists_paintEach_shows isColor canvas
  refine ⟨painted, paints, ?_, others⟩
  intro pixel inside
  obtain ⟨fromFirst, beforeEnd⟩ := range.contains_iff_lt.mpr inside
  have shows := shown (pixel - range.first) (by omega)
  rw [Nat.add_sub_cancel' fromFirst] at shows
  exact ⟨_, shows⟩

end Pattern

end Eaves
