import Eaves.Proofs.Outcome
import Eaves.Proofs.Pixels.Canvas
import Eaves.Proofs.Sorting

/-!
# Groups as a form of canvases

Joining neighbours looks at nothing but the lights of groups, one after another: two
lists of groups with the same lights in the same order come to the same list.  Two
things follow.

Whatever the groups are, overlapping ones included, merging keeps their lights in the
order of sorting, and a merged list is merged already.  Where no light is in two
groups, the sorted lights are those of a canvas, so merging gives its groups; writing a
canvas as groups and reading groups as a canvas then undo each other.

What groups show is a relation between lights and colours.  It goes through every way
of putting groups together, merging included.
-/

namespace Eaves

open Outcome

namespace Group

variable {a b : Group} {groups others rest more : List Group}

/-- Groups are equal when their ends and colours are. -/
theorem eq_of_ends (first : a.first = b.first) (last : a.last = b.last)
    (color : a.color = b.color) :
    a = b := by
  obtain ⟨_, _, _, _⟩ := a
  obtain ⟨_, _, _, _⟩ := b
  subst first last color
  rfl

/-! ## Groups are told by their lights -/

theorem length_pos (group : Group) : 0 < group.length :=
  Nat.succ_pos _

theorem pairwise_pixels (group : Group) : group.pixels.Pairwise (· < ·) :=
  List.pairwise_lt_range'

/-- The lights of the first group come first, and behind them those of the others. -/
theorem getElem?_expand_cons (group : Group) (rest : List Group) (position : Nat) :
    (expand (group :: rest))[position]? =
      if position < group.length then some (group.first + position, group.color)
      else (expand rest)[position - group.length]? := by
  rw [expand_cons, List.getElem?_append, List.length_map, pixels, List.length_range']
  by_cases inFirst : position < group.length
  · rw [if_pos inFirst, if_pos inFirst, List.getElem?_map, List.getElem?_range' inFirst,
      Nat.one_mul]
    rfl
  · rw [if_neg inFirst, if_neg inFirst]

theorem ends_of_expand_eq (same : expand (a :: rest) = expand (b :: more)) :
    a.first = b.first ∧ a.color = b.color := by
  have here := congrArg (fun lights => lights[0]?) same
  simp only [getElem?_expand_cons, length_pos, if_pos, Nat.add_zero, Option.some.injEq,
    Prod.mk.injEq] at here
  exact here

/-- A group that no other continues is as long as lists with the same lights can have it. -/
theorem length_le_of_expand_eq (same : expand (a :: rest) = expand (b :: more))
    (maximal : (a :: rest).IsChain fun before after => ¬Continues after before) :
    b.length ≤ a.length := by
  by_contra longer
  obtain ⟨sameFirst, sameColor⟩ := ends_of_expand_eq same
  have behind := congrArg (fun lights => lights[a.length]?) same
  simp only [getElem?_expand_cons, Nat.lt_irrefl, if_false, Nat.sub_self,
    if_pos (Nat.lt_of_not_le longer)] at behind
  cases rest with
  | nil => cases behind
  | cons next rest =>
      rw [getElem?_expand_cons, if_pos next.length_pos, Option.some.injEq, Prod.mk.injEq] at behind
      apply (List.isChain_cons_cons.mp maximal).1
      have := a.ordered
      refine ⟨?_, sameColor.trans behind.2.symm⟩
      unfold length at behind
      omega

/-- Groups of which none continues the one before it are told by their lights. -/
theorem eq_of_expand_eq (same : expand groups = expand others)
    (maximal : groups.IsChain fun before after => ¬Continues after before)
    (othersMaximal : others.IsChain fun before after => ¬Continues after before) :
    groups = others := by
  induction groups generalizing others with
  | nil =>
      cases others with
      | nil => rfl
      | cons other more =>
          have first := congrArg (fun lights => lights[0]?) same
          rw [getElem?_expand_cons, if_pos other.length_pos] at first
          cases first
  | cons group rest ih =>
      cases others with
      | nil =>
          have first := congrArg (fun lights => lights[0]?) same
          rw [getElem?_expand_cons, if_pos group.length_pos] at first
          cases first
      | cons other more =>
          obtain ⟨sameFirst, sameColor⟩ := ends_of_expand_eq same
          have sameLength : group.length = other.length :=
            Nat.le_antisymm (length_le_of_expand_eq same.symm othersMaximal)
              (length_le_of_expand_eq same maximal)
          have sameGroup : group = other := by
            have := group.ordered
            have := other.ordered
            refine eq_of_ends sameFirst ?_ sameColor
            unfold length at sameLength
            omega
          subst sameGroup
          rw [expand_cons, expand_cons, List.append_cancel_left_eq] at same
          rw [ih same maximal.tail othersMaximal.tail]

/-- Joining neighbours looks at the lights of groups only. -/
theorem fuse_congr (same : expand groups = expand others) : fuse groups = fuse others := by
  apply eq_of_expand_eq _ (isChain_fuse groups) (isChain_fuse others)
  rw [expand_fuse, expand_fuse, same]

theorem fuse_eq_self (maximal : groups.IsChain fun before after => ¬Continues after before) :
    fuse groups = groups :=
  eq_of_expand_eq (expand_fuse groups) (isChain_fuse groups) maximal

/-! ## Merging any groups -/

/-- A joined group starts where one of its parts did. -/
theorem map_first_fuseFrom_sublist (current : Group) (rest : List Group) :
    ((fuseFrom current rest).map first).Sublist ((current :: rest).map first) := by
  induction rest generalizing current with
  | nil => exact List.Sublist.refl _
  | cons next rest ih =>
      rw [fuseFrom]
      split
      · rename_i continues
        have joined := ih (current.join next continues.1)
        exact joined.trans ((List.sublist_cons_self next.first _).cons_cons current.first)
      · exact (ih next).cons_cons current.first

theorem pairwise_fuse (increasing : groups.Pairwise fun a b => a.first ≤ b.first) :
    (fuse groups).Pairwise fun a b => a.first ≤ b.first := by
  cases groups with
  | nil => exact increasing
  | cons group rest =>
      rw [← List.pairwise_map (f := first) (R := (· ≤ ·))] at increasing ⊢
      exact increasing.sublist (map_first_fuseFrom_sublist group rest)

theorem sorted_eq_self (increasing : groups.Pairwise fun a b => a.first ≤ b.first) :
    sorted groups = groups := by
  apply List.mergeSort_of_pairwise
  exact increasing.imp decide_eq_true

/-- Groups in order of which none continues the one before it are merged already. -/
theorem merge_eq_self (increasing : groups.Pairwise fun a b => a.first ≤ b.first)
    (maximal : groups.IsChain fun before after => ¬Continues after before) :
    merge groups = groups := by
  rw [merge, sorted_eq_self increasing, fuse_eq_self maximal]

/-- Merging any groups, overlapping ones included, keeps their lights with their colours, in the
order of the groups sorted by their first lights with the order of equals kept; no group of the
result continues the one before it; and merging the result again changes nothing. -/
theorem merge_keeps_sequence (groups : List Group) :
    (∃ arranged, Sorting.IsStableSort first groups arranged ∧
      expand (merge groups) = expand arranged) ∧
    (merge groups).IsChain (fun before after => ¬Continues after before) ∧
    merge (merge groups) = merge groups := by
  have arranges := Sorting.isStableSort_mergeSort first groups
  refine ⟨⟨sorted groups, arranges, expand_fuse _⟩, isChain_fuse _, ?_⟩
  exact merge_eq_self (pairwise_fuse arranges.increasing) (isChain_fuse _)

/-! ## Groups that lie apart -/

/-- No light is in two groups. -/
def AreApart (groups : List Group) : Prop :=
  groups.Pairwise fun a b => ∀ pixel ∈ a.pixels, pixel ∉ b.pixels

instance (groups : List Group) : Decidable (AreApart groups) :=
  inferInstanceAs (Decidable (List.Pairwise _ _))

/-- The lights of groups that lie apart are at distinct places. -/
theorem AreApart.pairwise_expand (apart : AreApart groups) :
    (expand groups).Pairwise fun a b => a.1 ≠ b.1 := by
  apply List.pairwise_flatMap.mpr
  constructor
  · intro group _
    rw [List.pairwise_map]
    exact group.pairwise_pixels.imp Nat.ne_of_lt
  · apply apart.imp
    intro a b noneShared x xMem y yMem
    rcases List.mem_map.mp xMem with ⟨pixel, inA, rfl⟩
    rcases List.mem_map.mp yMem with ⟨other, inB, rfl⟩
    rintro rfl
    exact noneShared pixel inA inB

theorem AreApart.of_perm (apart : AreApart groups) (perm : groups.Perm others) :
    AreApart others := by
  refine perm.pairwise apart ?_
  intro a b noneShared pixel inB inA
  exact noneShared pixel inA inB

/-- Sorted, the lights of groups that lie apart come in increasing order. -/
theorem AreApart.pairwise_expand_sorted (apart : AreApart groups) :
    (expand (sorted groups)).Pairwise fun a b => a.1 < b.1 := by
  have sortedApart : AreApart (sorted groups) :=
    apart.of_perm (List.mergeSort_perm groups _).symm
  have increasing := Sorting.pairwise_le_mergeSort first groups
  apply List.pairwise_flatMap.mpr
  constructor
  · intro group _
    rw [List.pairwise_map]
    exact group.pairwise_pixels
  · apply (List.pairwise_and_iff.mpr ⟨increasing, sortedApart⟩).imp
    rintro a b ⟨below, noneShared⟩ x xMem y yMem
    rcases List.mem_map.mp xMem with ⟨pixel, inA, rfl⟩
    rcases List.mem_map.mp yMem with ⟨other, inB, rfl⟩
    have starts : b.first ∉ a.pixels := fun inside =>
      noneShared b.first inside (mem_pixels_iff.mpr ⟨Nat.le_refl _, b.ordered⟩)
    rw [mem_pixels_iff] at inA inB starts
    omega

theorem mem_expand_sorted_iff {light : Nat × Color} :
    light ∈ expand (sorted groups) ↔ light ∈ expand groups := by
  simp only [expand, List.mem_flatMap, sorted, List.mem_mergeSort]

/-- Merging groups that lie apart gives a canonical form, on any strip that has their lights. -/
theorem AreApart.canonical_merge (apart : AreApart groups) {total : Nat}
    (inside : ∀ group ∈ groups, group.last < total) : Canonical total (merge groups) := by
  have lights : expand (merge groups) = expand (sorted groups) := expand_fuse _
  apply canonical_of_expand
  · rw [lights]
    exact apart.pairwise_expand_sorted
  · rintro ⟨pixel, color⟩ mem
    rw [lights, mem_expand_sorted_iff, mem_expand_iff] at mem
    rcases mem with ⟨group, groupMem, inGroup, -⟩
    exact Nat.lt_of_le_of_lt (mem_pixels_iff.mp inGroup).2 (inside group groupMem)
  · exact isChain_fuse _

/-- Merging groups that lie apart gives one list for all that have the same lights. -/
theorem AreApart.merge_congr (apart : AreApart groups) (othersApart : AreApart others)
    (same : ∀ light, light ∈ expand groups ↔ light ∈ expand others) :
    merge groups = merge others := by
  apply fuse_congr
  apply eq_of_increasing apart.pairwise_expand_sorted othersApart.pairwise_expand_sorted
  intro light
  rw [mem_expand_sorted_iff, mem_expand_sorted_iff, same]

/-- Merging keeps the lights of groups with their colours. -/
theorem mem_expand_merge_iff {light : Nat × Color} :
    light ∈ expand (merge groups) ↔ light ∈ expand groups := by
  rw [merge, expand_fuse, mem_expand_sorted_iff]

/-- Of groups that lie apart, the only one that has a light is the one that does. -/
theorem AreApart.filter_eq_singleton (apart : AreApart groups) {group : Group}
    (mem : group ∈ groups) {pixel : Nat} (inside : pixel ∈ group.pixels) :
    groups.filter (fun other => decide (pixel ∈ other.pixels)) = [group] := by
  obtain ⟨before, after, rfl⟩ := List.append_of_mem mem
  obtain ⟨-, fromHere, beforeRest⟩ := List.pairwise_append.mp apart
  have noneBefore : before.filter (fun other => decide (pixel ∈ other.pixels)) = [] := by
    rw [List.filter_eq_nil_iff]
    intro other isBefore hasToo
    exact beforeRest other isBefore group List.mem_cons_self pixel (of_decide_eq_true hasToo) inside
  have noneAfter : after.filter (fun other => decide (pixel ∈ other.pixels)) = [] := by
    rw [List.filter_eq_nil_iff]
    intro other isAfter hasToo
    exact (List.pairwise_cons.mp fromHere).1 other isAfter pixel inside (of_decide_eq_true hasToo)
  rw [List.filter_append, noneBefore, List.nil_append, List.filter_cons,
    if_pos (decide_eq_true inside), noneAfter]

/-! ## What groups show -/

/-- The lights of groups with their colours are those that a relation gives. -/
def Shows (groups : List Group) (colors : Nat → Color → Prop) : Prop :=
  ∀ pixel color, (pixel, color) ∈ expand groups ↔ colors pixel color

namespace Shows

variable {groups others : List Group} {colors more : Nat → Color → Prop}

theorem nil : Shows [] fun _ _ => False := by
  intro pixel color
  simp

theorem congr (shows : Shows groups colors)
    (same : ∀ pixel color, colors pixel color ↔ more pixel color) : Shows groups more := by
  intro pixel color
  rw [shows, same]

theorem append (shows : Shows groups colors) (othersShow : Shows others more) :
    Shows (groups ++ others) fun pixel color => colors pixel color ∨ more pixel color := by
  intro pixel color
  rw [expand, List.flatMap_append, List.mem_append]
  exact or_congr (shows pixel color) (othersShow pixel color)

theorem merge (shows : Shows groups colors) : Shows (merge groups) colors := by
  intro pixel color
  rw [mem_expand_merge_iff, shows]

theorem of_mem (shows : Shows groups colors) {group : Group} (mem : group ∈ groups) {pixel : Nat}
    (inside : pixel ∈ group.pixels) : colors pixel group.color :=
  (shows pixel group.color).mp (mem_expand_iff.mpr ⟨group, mem, inside, rfl⟩)

/-- Groups are on a strip as soon as all they show is. -/
theorem last_lt (shows : Shows groups colors) {total : Nat}
    (onStrip : ∀ pixel color, colors pixel color → pixel < total) {group : Group}
    (mem : group ∈ groups) : group.last < total := by
  apply onStrip _ group.color (shows.of_mem mem _)
  exact mem_pixels_iff.mpr ⟨group.ordered, Nat.le_refl _⟩

/-- Groups that are made member by member show what those of some member show. -/
theorem flatten_of_mapM {α : Type} {f : α → Outcome (List Group)} {members : List α}
    {results : List (List Group)} {each : α → Nat → Color → Prop}
    (ran : members.mapM f = .ok results)
    (shows : ∀ member ∈ members, ∀ groups, f member = .ok groups → Shows groups (each member)) :
    Shows results.flatten fun pixel color => ∃ member ∈ members, each member pixel color := by
  intro pixel color
  have inResults : (pixel, color) ∈ expand results.flatten ↔
      ∃ groups ∈ results, (pixel, color) ∈ expand groups := by
    simp only [expand, List.mem_flatMap, List.mem_flatten]
    tauto
  rw [inResults, exists_result_iff_of_mapM ran]
  constructor
  · rintro ⟨member, mem, groups, isResult, shown⟩
    exact ⟨member, mem, (shows member mem groups isResult pixel color).mp shown⟩
  · rintro ⟨member, mem, shown⟩
    obtain ⟨groups, isResult⟩ := mapM_succeeds_iff.mp ⟨results, ran⟩ member mem
    exact ⟨member, mem, groups, isResult,
      (shows member mem groups isResult pixel color).mpr shown⟩

/-- Groups can be made one for each member where one can be made for each, and show what that of
some member shows. -/
theorem exists_mapM {α : Type} {f : α → Outcome Group} {members : List α}
    {each : α → Nat → Color → Prop}
    (made : ∀ member ∈ members, ∃ group, f member = .ok group ∧ Shows [group] (each member)) :
    ∃ groups, members.mapM f = .ok groups ∧
      Shows groups fun pixel color => ∃ member ∈ members, each member pixel color := by
  obtain ⟨groups, ran⟩ := mapM_succeeds fun member mem => (made member mem).imp fun _ => And.left
  refine ⟨groups, ran, ?_⟩
  intro pixel color
  have inOne : ∀ group : Group, (pixel, color) ∈ expand [group] ↔
      pixel ∈ group.pixels ∧ group.color = color := by
    intro group
    rw [mem_expand_iff]
    simp
  rw [mem_expand_iff, exists_result_iff_of_mapM ran]
  constructor
  · rintro ⟨member, mem, group, isResult, shown⟩
    obtain ⟨same, isSame, shows⟩ := made member mem
    rw [isResult] at isSame
    cases isSame
    exact ⟨member, mem, (shows pixel color).mp ((inOne group).mpr shown)⟩
  · rintro ⟨member, mem, shown⟩
    obtain ⟨group, isResult, shows⟩ := made member mem
    exact ⟨member, mem, group, isResult, (inOne group).mp ((shows pixel color).mpr shown)⟩

end Shows

/-- Groups in the order of their first lights, all of them on a strip of `total` lights, and no
light in groups of different colours. -/
structure IsPlaced (total : Nat) (groups : List Group) : Prop where
  increasing : groups.Pairwise fun a b => a.first ≤ b.first
  inside : ∀ group ∈ groups, group.first ≤ group.last ∧ group.last < total
  agree : ∀ a ∈ groups, ∀ b ∈ groups, ∀ pixel, pixel ∈ a.pixels → pixel ∈ b.pixels →
    a.color = b.color

/-- Merged groups are placed on a strip as soon as all they show is on it, each light in one
colour. -/
theorem Shows.isPlaced_merge {groups : List Group} {colors : Nat → Color → Prop} {total : Nat}
    (shows : Shows groups colors) (onStrip : ∀ pixel color, colors pixel color → pixel < total)
    (single : ∀ pixel color other, colors pixel color → colors pixel other → color = other) :
    IsPlaced total (Group.merge groups) := by
  constructor
  · exact pairwise_fuse (Sorting.pairwise_le_mergeSort first groups)
  · intro group mem
    exact ⟨group.ordered, shows.merge.last_lt onStrip mem⟩
  · intro a aMem b bMem pixel inA inB
    exact single pixel _ _ (shows.merge.of_mem aMem inA) (shows.merge.of_mem bMem inB)

end Group

namespace Canvas

variable {groups others : List Group} {canvas : Canvas} {pixel : Nat} {color : Color}

/-- The canvas that groups denote: their lights painted one after another. -/
def ofGroups (groups : List Group) : Canvas :=
  (Group.expand groups).foldl (fun painted light => painted.insert light.1 light.2) blank

/-- Where lights are at distinct places, the canvas that is painted with them shows just them. -/
theorem getElem?_ofGroups_eq_some_iff
    (distinct : (Group.expand groups).Pairwise fun a b => a.1 ≠ b.1) :
    (ofGroups groups)[pixel]? = some color ↔ (pixel, color) ∈ Group.expand groups := by
  constructor
  · intro shows
    by_cases isPainted : ∃ light ∈ Group.expand groups, light.1 = pixel
    · rcases isPainted with ⟨light, mem, rfl⟩
      have own := getElem?_foldl_insert_of_mem distinct mem blank
      rw [← ofGroups, shows, Option.some.injEq] at own
      exact own ▸ mem
    · have others : ∀ light ∈ Group.expand groups, light.1 ≠ pixel := fun light mem same =>
        isPainted ⟨light, mem, same⟩
      rw [ofGroups, getElem?_foldl_insert_of_forall_ne others, getElem?_blank] at shows
      cases shows
  · intro mem
    exact getElem?_foldl_insert_of_mem distinct mem blank

/-- Reading the groups of a canvas gives back the canvas. -/
theorem toList_ofGroups_groups (canvas : Canvas) :
    (ofGroups canvas.groups).toList = canvas.toList := by
  apply toList_eq_of_shows canvas.pairwise_toList
  intro pixel color
  rw [getElem?_ofGroups_eq_some_iff, expand_groups]
  rw [expand_groups]
  exact canvas.pairwise_toList.imp Nat.ne_of_lt

/-- The groups of a canvas are the merged form of any groups that list its lights in order. -/
theorem groups_eq_fuse (lights : Group.expand groups = canvas.toList) :
    canvas.groups = Group.fuse groups := by
  rw [groups_eq_fuse_singles]
  apply Group.fuse_congr
  rw [expand_singles, lights]

/-- Merging groups that lie apart gives the groups of the canvas they denote. -/
theorem groups_ofGroups (apart : Group.AreApart groups) :
    (ofGroups groups).groups = Group.merge groups := by
  apply groups_eq_fuse
  symm
  apply toList_eq_of_shows apart.pairwise_expand_sorted
  intro pixel color
  rw [getElem?_ofGroups_eq_some_iff apart.pairwise_expand, Group.mem_expand_sorted_iff]

/-- Groups are a form of canvases.  Written as groups and read again, a canvas is what it was.  Of
groups that lie apart, in any order: the canvas they denote shows each light of a group in the
colour of that group and nothing else; merging them gives the groups of that canvas, so it depends
on nothing but what the canvas shows; merged, they are canonical on any strip that has their
lights; and where they are canonical, they are the groups of their canvas. -/
theorem groups_are_form_of_canvas (canvas : Canvas) {groups : List Group}
    (apart : Group.AreApart groups) :
    (ofGroups canvas.groups).toList = canvas.toList ∧
    (∀ pixel color, (ofGroups groups)[pixel]? = some color ↔
      ∃ group ∈ groups, pixel ∈ group.pixels ∧ group.color = color) ∧
    Group.merge groups = (ofGroups groups).groups ∧
    (∀ others, Group.AreApart others →
      (∀ pixel : Nat, (ofGroups others)[pixel]? = (ofGroups groups)[pixel]?) →
        Group.merge others = Group.merge groups) ∧
    (∀ total, (∀ group ∈ groups, group.last < total) →
      Group.Canonical total (Group.merge groups)) ∧
    ∀ total, Group.Canonical total groups → (ofGroups groups).groups = groups := by
  refine ⟨toList_ofGroups_groups canvas, ?_, (groups_ofGroups apart).symm, ?_, ?_, ?_⟩
  · intro pixel color
    rw [getElem?_ofGroups_eq_some_iff apart.pairwise_expand, Group.mem_expand_iff]
  · intro others othersApart sameCanvas
    rw [← groups_ofGroups othersApart, ← groups_ofGroups apart, Canvas.groups, Canvas.groups,
      toList_congr sameCanvas]
  · intro total inside
    exact apart.canonical_merge inside
  · intro total canonical
    rw [groups_ofGroups apart]
    exact Group.merge_eq_self (canonical.increasing.imp Nat.le_of_lt) canonical.maximal

/-- Four groups in no order: the red ones touch and make one run, the blue one ends at a gap. -/
def scattered : List Group :=
  [⟨9, 9, ⟨0, 0, 255, 0⟩, by decide⟩, ⟨3, 5, ⟨255, 0, 0, 0⟩, by decide⟩,
    ⟨6, 7, ⟨0, 0, 255, 0⟩, by decide⟩, ⟨0, 2, ⟨255, 0, 0, 0⟩, by decide⟩]

/-- Merged, they are the three groups of their canvas, canonical on a strip of ten lights. -/
theorem groups_are_form_of_canvas_scattered :
    Group.AreApart scattered ∧
      (ofGroups scattered).groups =
        [⟨0, 5, ⟨255, 0, 0, 0⟩, by decide⟩, ⟨6, 7, ⟨0, 0, 255, 0⟩, by decide⟩,
          ⟨9, 9, ⟨0, 0, 255, 0⟩, by decide⟩] ∧
      Group.Canonical 10 (Group.merge scattered) := by
  have apart : Group.AreApart scattered := by decide
  obtain ⟨-, -, -, -, canonical, -⟩ := groups_are_form_of_canvas blank apart
  refine ⟨apart, ?_, canonical 10 (by decide)⟩
  rw [groups_eq_fuse_singles]
  decide +kernel

end Canvas

end Eaves
