import Eaves.Pixels.Canvas
import Mathlib.Data.List.Chain
import Mathlib.Data.List.Sort

/-!
# The groups of a canvas

Merging never changes which light has which colour.  Written as groups, a canvas
is therefore recovered by expanding them, and the groups are the only way to write
it as maximal stretches in order: they increase, lie apart, and no group continues
the one before it.
-/

namespace Eaves

namespace Group

/-! ## Merging keeps the lights -/

@[simp]
theorem expand_nil : expand [] = [] :=
  rfl

@[simp]
theorem expand_cons (group : Group) (rest : List Group) :
    expand (group :: rest) =
      (group.pixels.map fun pixel => (pixel, group.color)) ++ expand rest :=
  rfl

@[simp]
theorem mem_pixels_iff {group : Group} {pixel : Nat} :
    pixel ∈ group.pixels ↔ group.first ≤ pixel ∧ pixel ≤ group.last := by
  have := group.ordered
  simp only [pixels, length, List.mem_range'_1]
  omega

/-- Groups have a light in a colour where one of that colour has the light. -/
theorem mem_expand_iff {groups : List Group} {pixel : Nat} {color : Color} :
    (pixel, color) ∈ expand groups ↔
      ∃ group ∈ groups, pixel ∈ group.pixels ∧ group.color = color := by
  unfold expand
  rw [List.mem_flatMap]
  refine exists_congr fun group => and_congr_right fun _ => ?_
  simp only [List.mem_map, Prod.mk.injEq]
  constructor
  · rintro ⟨same, inside, rfl, isColor⟩
    exact ⟨inside, isColor⟩
  · rintro ⟨inside, isColor⟩
    exact ⟨pixel, inside, rfl, isColor⟩

/-- A joined group has the lights of both. -/
theorem pixels_join (current next : Group) (touching : current.last + 1 = next.first) :
    (current.join next touching).pixels = current.pixels ++ next.pixels := by
  have currentOrdered := current.ordered
  have nextOrdered := next.ordered
  have nextFirst : next.first = current.first + current.length := by
    unfold length
    omega
  have lengths : (current.join next touching).length = current.length + next.length := by
    simp only [length, join]
    omega
  unfold pixels
  rw [lengths, nextFirst]
  exact List.range'_append_1.symm

theorem expand_fuseFrom (current : Group) (rest : List Group) :
    expand (fuseFrom current rest) = expand (current :: rest) := by
  induction rest generalizing current with
  | nil => rfl
  | cons next rest ih =>
      rw [fuseFrom]
      split
      · rename_i continues
        rw [ih, expand_cons, expand_cons, expand_cons, pixels_join]
        simp [join, continues.2]
      · rw [expand_cons, ih, expand_cons current]

/-- Joining neighbours changes no light. -/
theorem expand_fuse (groups : List Group) : expand (fuse groups) = expand groups := by
  cases groups with
  | nil => rfl
  | cons group rest => exact expand_fuseFrom group rest

/-- A light lies in one of the groups exactly where it has a colour in them. -/
theorem exists_mem_pixels_iff {groups : List Group} {pixel : Nat} :
    (∃ group ∈ groups, pixel ∈ group.pixels) ↔ ∃ color, (pixel, color) ∈ expand groups := by
  simp only [mem_expand_iff]
  constructor
  · rintro ⟨group, mem, inside⟩
    exact ⟨group.color, group, mem, inside, rfl⟩
  · rintro ⟨color, group, mem, inside, -⟩
    exact ⟨group, mem, inside⟩

/-! ## Merged neighbours do not continue each other -/

/-- Merging from a group on keeps its first light and its colour in front. -/
theorem exists_fuseFrom_eq_cons (current : Group) (rest : List Group) :
    ∃ head tail, fuseFrom current rest = head :: tail ∧ head.first = current.first ∧
      head.color = current.color := by
  induction rest generalizing current with
  | nil => exact ⟨current, [], rfl, rfl, rfl⟩
  | cons next rest ih =>
      rw [fuseFrom]
      split
      · rename_i continues
        exact ih (current.join next continues.1)
      · exact ⟨current, _, rfl, rfl, rfl⟩

theorem isChain_fuseFrom (current : Group) (rest : List Group) :
    (fuseFrom current rest).IsChain fun before after => ¬ Continues after before := by
  induction rest generalizing current with
  | nil => exact List.IsChain.singleton current
  | cons next rest ih =>
      rw [fuseFrom]
      split
      · exact ih _
      · rename_i apart
        have restChain := ih next
        rcases exists_fuseFrom_eq_cons next rest with ⟨head, tail, shape, first, color⟩
        rw [shape] at restChain ⊢
        rw [List.isChain_cons_cons]
        constructor
        · rintro ⟨touching, agree⟩
          exact apart ⟨touching.trans first, agree.trans color⟩
        · exact restChain

/-- After merging no group continues the one before it. -/
theorem isChain_fuse (groups : List Group) :
    (fuse groups).IsChain fun before after => ¬ Continues after before := by
  cases groups with
  | nil => exact List.IsChain.nil
  | cons group rest => exact isChain_fuseFrom group rest

/-! ## Lights in increasing order -/

/-- There is one list of lights in increasing order. -/
theorem eq_of_increasing {lights others : List (Nat × Color)}
    (increasing : lights.Pairwise fun a b => a.1 < b.1)
    (othersIncreasing : others.Pairwise fun a b => a.1 < b.1)
    (same : ∀ light, light ∈ lights ↔ light ∈ others) : lights = others := by
  have : Std.Irrefl fun a b : Nat × Color => a.1 < b.1 := ⟨fun a => Nat.lt_irrefl a.1⟩
  have : Std.Antisymm fun a b : Nat × Color => a.1 < b.1 :=
    ⟨fun a b below above => absurd above (Nat.lt_asymm below)⟩
  exact increasing.eq_of_mem_iff othersIncreasing fun {light} => same light

/-! ## The canonical form -/

/-- The one way to write coloured lights of a strip of `total` lights as groups: in order, each
inside the strip, no light in two of them, and none that continues the one before it. -/
structure Canonical (total : Nat) (groups : List Group) : Prop where
  increasing : groups.Pairwise fun before after => before.first < after.first
  disjoint : groups.Pairwise fun before after =>
    ∀ pixel, pixel ∈ before.pixels → pixel ∉ after.pixels
  inside : ∀ group ∈ groups, group.first ≤ group.last ∧ group.last < total
  maximal : groups.IsChain fun before after => ¬ Continues after before

/-- Groups whose lights come in increasing order, all on the strip, are canonical as soon as
none continues the one before it. -/
theorem canonical_of_expand {groups : List Group} {total : Nat}
    (increasing : (expand groups).Pairwise fun a b => a.1 < b.1)
    (inside : ∀ light ∈ expand groups, light.1 < total)
    (maximal : groups.IsChain fun before after => ¬ Continues after before) :
    Canonical total groups := by
  have lastMem : ∀ group ∈ groups, (group.last, group.color) ∈ expand groups := by
    intro group mem
    exact mem_expand_iff.mpr ⟨group, mem, mem_pixels_iff.mpr ⟨group.ordered, le_refl _⟩, rfl⟩
  have apart : groups.Pairwise fun before after => before.last < after.first := by
    apply (List.pairwise_flatMap.mp increasing).2.imp
    intro before after below
    refine below (before.last, before.color) (List.mem_map.mpr ⟨before.last, ?_, rfl⟩)
      (after.first, after.color) (List.mem_map.mpr ⟨after.first, ?_, rfl⟩)
    · exact mem_pixels_iff.mpr ⟨before.ordered, le_refl _⟩
    · exact mem_pixels_iff.mpr ⟨le_refl _, after.ordered⟩
  refine ⟨?_, ?_, ?_, maximal⟩
  · apply apart.imp
    intro before after below
    exact lt_of_le_of_lt before.ordered below
  · apply apart.imp
    intro before after below pixel inBefore inAfter
    rw [mem_pixels_iff] at inBefore inAfter
    omega
  · intro group mem
    exact ⟨group.ordered, inside _ (lastMem group mem)⟩

end Group

namespace Canvas

/-! ## Writing a canvas as groups -/

/-- The lights of a canvas come in increasing order. -/
theorem pairwise_toList (canvas : Canvas) :
    canvas.toList.Pairwise fun a b => a.1 < b.1 := by
  apply Std.TreeMap.ordered_keys_toList.imp
  intro a b below
  exact Nat.compare_eq_lt.mp below

/-- A canvas lists the lights it shows: there is one list of them in increasing order. -/
theorem toList_eq_of_shows {canvas : Canvas} {lights : List (Nat × Color)}
    (increasing : lights.Pairwise fun a b => a.1 < b.1)
    (shows : ∀ pixel color, canvas[pixel]? = some color ↔ (pixel, color) ∈ lights) :
    canvas.toList = lights := by
  apply Group.eq_of_increasing canvas.pairwise_toList increasing
  rintro ⟨pixel, color⟩
  rw [Std.TreeMap.mem_toList_iff_getElem?_eq_some, shows]

theorem toList_congr {canvas other : Canvas}
    (same : ∀ pixel : Nat, canvas[pixel]? = other[pixel]?) :
    canvas.toList = other.toList := by
  apply toList_eq_of_shows other.pairwise_toList
  intro pixel color
  rw [same, Std.TreeMap.mem_toList_iff_getElem?_eq_some]

theorem sorted_singles (canvas : Canvas) :
    Group.sorted (canvas.toList.map fun pixel => Group.single pixel.1 pixel.2) =
      canvas.toList.map fun pixel => Group.single pixel.1 pixel.2 := by
  apply List.mergeSort_of_pairwise
  rw [List.pairwise_map]
  apply canvas.pairwise_toList.imp
  intro a b below
  exact decide_eq_true (le_of_lt below)

/-- The lights of a canvas are listed in order, so they are joined as they stand. -/
theorem groups_eq_fuse_singles (canvas : Canvas) :
    canvas.groups = Group.fuse (canvas.toList.map fun pixel => Group.single pixel.1 pixel.2) := by
  rw [groups, Group.merge, sorted_singles]

theorem expand_singles (pixels : List (Nat × Color)) :
    Group.expand (pixels.map fun pixel => Group.single pixel.1 pixel.2) = pixels := by
  induction pixels with
  | nil => rfl
  | cons pixel rest ih =>
      rw [List.map_cons, Group.expand_cons, ih]
      simp [Group.pixels, Group.length, Group.single]

/-- Expanding the groups of a canvas gives back its lights. -/
theorem expand_groups (canvas : Canvas) : Group.expand canvas.groups = canvas.toList := by
  rw [groups_eq_fuse_singles, Group.expand_fuse, expand_singles]

/-- A light is in the groups of a canvas with a colour exactly when the canvas has it in that
colour. -/
theorem mem_expand_groups_iff {canvas : Canvas} {pixel : Nat} {color : Color} :
    (pixel, color) ∈ Group.expand canvas.groups ↔ canvas[pixel]? = some color := by
  rw [expand_groups, Std.TreeMap.mem_toList_iff_getElem?_eq_some]

/-- The groups of a canvas on a strip are its canonical form. -/
theorem canonical_groups {canvas : Canvas} {total : Nat}
    (inside : ∀ pixel color, canvas[pixel]? = some color → pixel < total) :
    Group.Canonical total canvas.groups := by
  apply Group.canonical_of_expand
  · rw [expand_groups]
    exact canvas.pairwise_toList
  · rintro ⟨pixel, color⟩ lit
    exact inside pixel color (mem_expand_groups_iff.mp lit)
  · exact Group.isChain_fuse _

end Canvas

end Eaves
