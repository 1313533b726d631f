import Eaves.Device.Payload
import Eaves.Proofs.Pixels.Composition

/-!
# Lists of lights that are sent

A payload that lists every light is one flat list of numbers, and nothing in it tells
where one light ends and the next begins: a controller counts.  It takes an index and
as many channels as the strip has, three, or four where there is a white light, and
then the next index.  Cut like that, the list gives back the lights of its groups, one
after another, each with its colour.

The white light takes over what the three channels of a colour have in common.  So
added to what is left of each it gives that channel back, and of what is left one is
dark.
-/

namespace Eaves.Payload

open Eaves.Composition (compose)

/-- The lights of a payload that lists them, in one flat list. -/
def lights (payload : Payload) : List Int :=
  match payload.scene with
  | .individual lights => lights
  | .effect .. => []

/-! ## Cutting a list into lights -/

/-- The number of channels of a light. -/
def channelCount (rgbw : Bool) : Nat :=
  if rgbw then 4 else 3

/-- A flat list cut into indices, each with the `count` channels that follow it. -/
def records (count : Nat) : List Int → List (Int × List Int)
  | [] => []
  | index :: rest => (index, rest.take count) :: records count (rest.drop count)
termination_by numbers => numbers.length
decreasing_by
  rw [List.length_drop, List.length_cons]
  omega

/-- A record is about a light of the groups and has the channels of its colour: those of red, green
and blue, or, for a strip with a white light, four levels that give these back when the level of the
white light is added, and of which no more than three are in use. -/
def Tells (rgbw : Bool) (record : Int × List Int) (light : Nat × Color) : Prop :=
  record.1 = light.1 ∧
    if rgbw then
      ∃ r g b w : Int, record.2 = [r, g, b, w] ∧
        (∀ channel ∈ [r, g, b, w], 0 ≤ channel ∧ channel ≤ 255) ∧
        r + w = light.2.red.toInt ∧ g + w = light.2.green.toInt ∧ b + w = light.2.blue.toInt ∧
        min r (min g b) = 0
    else record.2 = [light.2.red.toInt, light.2.green.toInt, light.2.blue.toInt]

theorem length_channels (rgbw : Bool) (color : Color) :
    (channels rgbw color).length = channelCount rgbw := by
  cases rgbw <;> rfl

/-- The channels that are sent for a colour tell it. -/
theorem tells_channels (rgbw : Bool) (light : Nat × Color) :
    Tells rgbw (light.1, channels rgbw light.2) light := by
  refine ⟨rfl, ?_⟩
  cases rgbw with
  | false => rfl
  | true =>
      have red := light.2.red.toInt_bounds
      have green := light.2.green.toInt_bounds
      have blue := light.2.blue.toInt_bounds
      refine ⟨_, _, _, _, rfl, ?_, ?_⟩
      · simp only [List.mem_cons, List.not_mem_nil, or_false, forall_eq_or_imp, forall_eq]
        omega
      · omega

/-- What is sent for groups is what is sent for their lights, one after another. -/
theorem flatten_eq (groups : List Group) (rgbw : Bool) :
    flatten groups rgbw =
      (Group.expand groups).flatMap fun light => (light.1 : Int) :: channels rgbw light.2 := by
  rw [Group.expand, List.flatMap_assoc]
  simp only [flatten, List.flatMap_map]

/-- The groups of a canvas are sent as its lights, one after another. -/
theorem flatten_groups (canvas : Canvas) (rgbw : Bool) :
    flatten canvas.groups rgbw =
      canvas.toList.flatMap fun light => (light.1 : Int) :: channels rgbw light.2 := by
  rw [flatten_eq, Canvas.expand_groups]

/-- Cut at the right width, a list of lights falls apart into the lights. -/
theorem records_flatMap (rgbw : Bool) (listed : List (Nat × Color)) :
    records (channelCount rgbw)
        (listed.flatMap fun light => (light.1 : Int) :: channels rgbw light.2) =
      listed.map fun light => ((light.1 : Int), channels rgbw light.2) := by
  induction listed with
  | nil => rw [List.flatMap_nil, List.map_nil, records]
  | cons light rest ih =>
      rw [List.flatMap_cons, List.map_cons, List.cons_append, records,
        List.take_left' (length_channels rgbw light.2),
        List.drop_left' (length_channels rgbw light.2), ih]

/-- What is sent for groups falls apart into their lights. -/
theorem records_flatten (groups : List Group) (rgbw : Bool) :
    records (channelCount rgbw) (flatten groups rgbw) =
      (Group.expand groups).map fun light => ((light.1 : Int), channels rgbw light.2) := by
  rw [flatten_eq, records_flatMap]

/-! ## Where a list stops -/

/-- The indices that a flat list of lights holds. -/
def indices (rgbw : Bool) (numbers : List Int) : List Int :=
  (records (channelCount rgbw) numbers).map Prod.fst

theorem indices_flatten (groups : List Group) (rgbw : Bool) :
    indices rgbw (flatten groups rgbw) =
      (Group.expand groups).map fun light => (light.1 : Int) := by
  rw [indices, records_flatten, List.map_map]
  rfl

theorem mem_indices_flatten {groups : List Group} {rgbw : Bool} {index : Int} :
    index ∈ indices rgbw (flatten groups rgbw) ↔
      ∃ group ∈ groups, ∃ pixel ∈ group.pixels, (pixel : Int) = index := by
  rw [indices_flatten, List.mem_map]
  constructor
  · rintro ⟨⟨pixel, color⟩, mem, rfl⟩
    rcases Group.mem_expand_iff.mp mem with ⟨group, isGroup, inside, -⟩
    exact ⟨group, isGroup, pixel, inside, rfl⟩
  · rintro ⟨group, isGroup, pixel, inside, rfl⟩
    exact ⟨(pixel, group.color), Group.mem_expand_iff.mpr ⟨group, isGroup, inside, rfl⟩, rfl⟩

/-- The greatest of some numbers and zero is not less than any of them, and is one of them. -/
theorem foldl_max_spec (start : Int) (numbers : List Int) :
    (∀ number ∈ start :: numbers, number ≤ numbers.foldl max start) ∧
      numbers.foldl max start ∈ start :: numbers := by
  induction numbers generalizing start with
  | nil => simp
  | cons first rest ih =>
      obtain ⟨atMost, isOne⟩ := ih (max start first)
      rw [List.foldl_cons]
      constructor
      · intro number mem
        rcases List.mem_cons.mp mem with rfl | mem
        · exact (le_max_left _ _).trans (atMost _ List.mem_cons_self)
        · rcases List.mem_cons.mp mem with rfl | mem
          · exact (le_max_right _ _).trans (atMost _ List.mem_cons_self)
          · exact atMost number (List.mem_cons_of_mem _ mem)
      · rcases List.mem_cons.mp isOne with here | there
        · rw [here]
          rcases max_choice start first with isStart | isFirst
          · rw [isStart]
            exact List.mem_cons_self
          · rw [isFirst]
            exact List.mem_cons_of_mem _ List.mem_cons_self
        · exact List.mem_cons_of_mem _ (List.mem_cons_of_mem _ there)

/-- Where no count is given, the stop is one past the last of the lights, and zero where there are
none. -/
theorem stopOf_none_spec (groups : List Group) (rgbw : Bool) :
    (∀ index ∈ indices rgbw (flatten groups rgbw), index < stopOf groups none) ∧
      (stopOf groups none = 0 ∧ groups = [] ∨
        stopOf groups none - 1 ∈ indices rgbw (flatten groups rgbw)) := by
  obtain ⟨atMost, isOne⟩ := foldl_max_spec 0 (groups.map fun group => (group.last : Int) + 1)
  simp only [mem_indices_flatten, stopOf]
  constructor
  · rintro index ⟨group, isGroup, pixel, inside, rfl⟩
    have ends := (Group.mem_pixels_iff.mp inside).2
    have least := atMost _ (List.mem_cons_of_mem _ (List.mem_map_of_mem isGroup))
    omega
  · cases groups with
    | nil => exact .inl ⟨rfl, rfl⟩
    | cons first rest =>
        right
        generalize ((first :: rest).map fun group => (group.last : Int) + 1).foldl max 0 = stop
          at atMost isOne ⊢
        rcases List.mem_cons.mp isOne with zero | there
        · -- the stop is not before the end of the first group
          have least := atMost ((first.last : Int) + 1) (by simp)
          omega
        · rcases List.mem_map.mp there with ⟨group, isGroup, rfl⟩
          refine ⟨group, isGroup, group.last, ?_, by omega⟩
          exact Group.mem_pixels_iff.mpr ⟨group.ordered, Nat.le_refl _⟩

/-! ## What is sent decodes -/

/-- The lights of a composition that shows something are listed in increasing order, all of them on
the strip. -/
theorem indices_of_composition {intent : Intent} {roofline : Roofline} {form : Bool}
    {result : Composition} (composed : compose intent roofline form = .ok result)
    (shown : result.success = true) (rgbw : Bool) :
    (indices rgbw (flatten result.groups rgbw)).Pairwise (· < ·) ∧
      ∀ index ∈ indices rgbw (flatten result.groups rgbw), 0 ≤ index ∧ index < roofline.total := by
  rcases Composition.compose_cases composed with ⟨refused, -, -⟩ | ⟨work, -, -, paints, -, rfl⟩
  · rw [refused] at shown
    cases shown
  · rw [indices_flatten, Canvas.expand_groups, List.pairwise_map]
    constructor
    · apply work.canvas.pairwise_toList.imp
      intro a b below
      exact_mod_cast below
    · intro index mem
      rcases List.mem_map.mp mem with ⟨⟨pixel, color⟩, listed, rfl⟩
      have lit := Std.TreeMap.mem_toList_iff_getElem?_eq_some.mp listed
      have onStrip := Composition.paintAll_fitsOn paints pixel color lit
      constructor <;> omega

/-- A payload that lists every light decodes to the lights of its groups.  Cut into an index and the
channels of the strip over and over, the list has the lights of the groups one after another, each
with its colour.  Where no count is given, the segment stops one past the greatest index, at zero
where there is none.  The lights of a composition that shows something come in increasing order and
all before the stop. -/
theorem individual_decodes (groups : List Group) (brightness segmentId : Int)
    (transition total : Option Int) (rgbw : Bool) :
    let payload := individual groups brightness total segmentId transition rgbw
    let listed := indices rgbw payload.lights
    payload.segmentEntries.value? "i" = some (.ofInts payload.lights) ∧
    payload.segmentEntries.value? "stop" = some (.int payload.stop) ∧
    List.Forall₂ (Tells rgbw) (records (channelCount rgbw) payload.lights)
      (Group.expand groups) ∧
    (total = none → (listed = [] → payload.stop = 0) ∧
      (listed ≠ [] → payload.stop - 1 ∈ listed) ∧ ∀ index ∈ listed, index < payload.stop) ∧
    (∀ intent roofline form result, compose intent roofline form = .ok result →
      result.success = true → groups = result.groups → total = some (roofline.total : Int) →
      listed.Pairwise (· < ·) ∧ ∀ index ∈ listed, 0 ≤ index ∧ index < payload.stop) := by
  refine ⟨rfl, rfl, ?channels, ?stops, ?composed⟩
  case channels =>
    change List.Forall₂ (Tells rgbw) (records (channelCount rgbw) (flatten groups rgbw)) _
    rw [records_flatten, List.forall₂_map_left_iff, List.forall₂_same]
    intro light _
    exact tells_channels rgbw light
  case stops =>
    rintro rfl
    obtain ⟨before, ends⟩ := stopOf_none_spec groups rgbw
    refine ⟨?_, ?_, before⟩
    · intro empty
      rcases ends with ⟨zero, -⟩ | last
      · exact zero
      · exact absurd last (empty ▸ List.not_mem_nil)
    · intro lit
      rcases ends with ⟨-, rfl⟩ | last
      · exact absurd (by simp [individual, lights, flatten, indices, records]) lit
      · exact last
  case composed =>
    rintro intent roofline form result composed shown rfl rfl
    exact indices_of_composition composed shown rgbw

/-- An eave in blue and a peak in red, sent to a strip with a white light. -/
theorem individual_decodes_redBlueGreen :
    ∃ result, compose Composition.redBlueGreen Composition.eaveAndPeak false = .ok result ∧
      result.success = true ∧
      (indices true (individual result.groups 128 (some 7) 0 none true).lights).Pairwise (· < ·) ∧
      (records 4 (individual result.groups 128 (some 7) 0 none true).lights)[5]? =
        some (5, [255, 0, 0, 0]) := by
  have painted : ((compose Composition.redBlueGreen Composition.eaveAndPeak false).map
      fun result => (result.success, Group.expand result.groups)).toOption =
        some (true, [(0, ⟨0, 0, 255, 0⟩), (1, ⟨0, 0, 255, 0⟩), (2, ⟨0, 0, 255, 0⟩),
          (3, ⟨0, 0, 255, 0⟩), (4, ⟨255, 0, 0, 0⟩), (5, ⟨255, 0, 0, 0⟩), (6, ⟨255, 0, 0, 0⟩)]) := by
    simp only [compose, Composition.paintAll, Composition.paintingOrder_eq_insertionSort,
      Canvas.groups_eq_fuse_singles]
    decide +kernel
  rcases Outcome.exists_ok_of_toOption painted with ⟨result, composed, shape⟩
  rcases Prod.mk.injEq .. ▸ shape with ⟨shown, lit⟩
  obtain ⟨-, -, -, -, onStrip⟩ := individual_decodes result.groups 128 0 none (some 7) true
  refine ⟨result, composed, shown, ?_, ?_⟩
  · exact (onStrip _ _ _ result composed shown rfl rfl).1
  · change (records (channelCount true) (flatten result.groups true))[5]? = _
    rw [records_flatten, lit]
    rfl

end Eaves.Payload
