import Eaves.Pixels.Compose
import Eaves.Proofs.Pixels.Rangewise
import Eaves.Proofs.Sorting

/-!
# What a composition shows

Every light of a composition shows the colour that the layer on top gives it.  The
layer on top is said without sorting and without painting over: of the enabled
layers that cover the light it is the one of highest priority, and of those the one
that stands last in the design.

The proof has two halves.  Painting layer after layer leaves at each light the
colour of the last layer that covers it; and the painting order is the order by
priority and position, since sorting by priority keeps the order of equals.

How a composition comes out depends on the layers that light something.  Painting keeps
count of them, and writes a warning for each of the others, so both are read off from
the painting order.
-/

namespace Eaves

open Number (Binary64)

/-! ## The lights of a layer -/

namespace Layer

/-- The layer gives a light a colour. -/
def Paints (layer : Layer) (roofline : Roofline) (pixel : Nat) (color : Color) : Prop :=
  ∃ canvas, layer.paint roofline = .ok canvas ∧ canvas[pixel]? = some color

/-- The layer lights a light. -/
def Covers (layer : Layer) (roofline : Roofline) (pixel : Nat) : Prop :=
  ∃ color, layer.Paints roofline pixel color

theorem Paints.color_eq {layer : Layer} {roofline : Roofline} {pixel : Nat} {a b : Color}
    (first : layer.Paints roofline pixel a) (second : layer.Paints roofline pixel b) : a = b := by
  rcases first with ⟨canvas, paints, lit⟩
  rcases second with ⟨other, paintsOther, litOther⟩
  rw [paints] at paintsOther
  cases paintsOther
  exact Option.some.inj (lit.symm.trans litOther)

end Layer

namespace Composition

/-! ## Painting layer after layer -/

/-- The colour that a layer leaves at a light of the strip. -/
def shownBy (roofline : Roofline) (pixel : Nat) (layer : Layer) : Option Color :=
  match layer.paint roofline with
  | .ok canvas => (canvas.below roofline.total)[pixel]?
  | .error _ => none

theorem shownBy_eq_some_iff {roofline : Roofline} (laidOut : roofline.LaidOut) {pixel : Nat}
    {layer : Layer} {color : Color} :
    shownBy roofline pixel layer = some color ↔ layer.Paints roofline pixel color := by
  unfold shownBy Layer.Paints
  cases paints : layer.paint roofline with
  | error failure => simp
  | ok canvas =>
      have fits := Layer.paint_fitsOn laidOut paints
      simp only [Except.ok.injEq, exists_eq_left', Canvas.getElem?_below]
      constructor
      · intro shown
        split at shown
        · exact shown
        · cases shown
      · intro lit
        rw [if_pos (fits pixel color lit)]
        exact lit

/-- What one more layer does to the work: where nothing of it is on the strip it leaves a warning,
and else it covers what is painted and counts as lit. -/
theorem paintLayer_cases {roofline : Roofline} {work next : Work} {layer : Layer}
    (paints : paintLayer roofline work layer = .ok next) :
    ∃ canvas, layer.paint roofline = .ok canvas ∧
      ((canvas.below roofline.total).isEmpty = true ∧
          next = { work with warnings := work.warnings ++ [unlitWarning layer] } ∨
        (canvas.below roofline.total).isEmpty = false ∧
          next = { work with
            canvas := (canvas.below roofline.total).onTopOf work.canvas
            painted := work.painted + 1 }) := by
  rcases Outcome.bind_eq_ok_iff.mp paints with ⟨canvas, layerPaints, rest⟩
  refine ⟨canvas, layerPaints, ?_⟩
  simp only at rest
  split at rest
  · rename_i empty
    cases rest
    exact .inl ⟨empty, rfl⟩
  · rename_i lit
    cases rest
    exact .inr ⟨Bool.eq_false_iff.mpr lit, rfl⟩

/-- One more layer shows at the lights it covers; the others are as before. -/
theorem getElem?_paintLayer {roofline : Roofline} {work next : Work} {layer : Layer}
    (paints : paintLayer roofline work layer = .ok next) (pixel : Nat) :
    next.canvas[pixel]? = (shownBy roofline pixel layer).or work.canvas[pixel]? := by
  rcases paintLayer_cases paints with ⟨canvas, layerPaints, ⟨empty, rfl⟩ | ⟨-, rfl⟩⟩
  all_goals simp only [shownBy, layerPaints]
  · rw [Std.TreeMap.getElem?_of_isEmpty empty, Option.none_or]
  · exact Canvas.getElem?_onTopOf _ _ pixel

/-- Painted one after another, layers leave at a light the colour of the last one that shows
there. -/
theorem getElem?_foldlM_paintLayer {roofline : Roofline} {layers : List Layer} {work done : Work}
    (paints : layers.foldlM (paintLayer roofline) work = .ok done) (pixel : Nat) :
    done.canvas[pixel]? =
      (layers.reverse.findSome? (shownBy roofline pixel)).or work.canvas[pixel]? := by
  induction layers generalizing work with
  | nil =>
      rw [List.foldlM_nil, Outcome.pure_eq_ok_iff] at paints
      rw [paints, List.reverse_nil, List.findSome?_nil, Option.none_or]
  | cons layer rest ih =>
      rw [List.foldlM_cons] at paints
      rcases Outcome.bind_eq_ok_iff.mp paints with ⟨next, first, others⟩
      rw [ih others, getElem?_paintLayer first, List.reverse_cons, List.findSome?_append,
        List.findSome?_singleton, Option.or_assoc]

/-- Painting never lights anything beyond the strip. -/
theorem paintAll_fitsOn {intent : Intent} {roofline : Roofline} {work : Work}
    (paints : paintAll intent roofline = .ok work) : work.canvas.FitsOn roofline.total := by
  apply Outcome.foldlM_keeps (fun work => work.canvas.FitsOn roofline.total) _
    Canvas.blank_fitsOn paints
  intro work layer next _ workFits step pixel color lit
  rw [getElem?_paintLayer step, Option.or_eq_some_iff] at lit
  rcases lit with shown | ⟨-, before⟩
  · unfold shownBy at shown
    split at shown
    · rw [Canvas.getElem?_below] at shown
      split at shown
      · assumption
      · cases shown
    · cases shown
  · exact workFits pixel color before

/-! ## Layers that light nothing -/

/-- Whether a layer lights nothing on a roofline. -/
def isUnlit (roofline : Roofline) (layer : Layer) : Bool :=
  match layer.paint roofline with
  | .ok canvas => canvas.isEmpty
  | .error _ => false

theorem isUnlit_eq_true_iff {roofline : Roofline} {layer : Layer} :
    isUnlit roofline layer = true ↔
      ∃ canvas, layer.paint roofline = .ok canvas ∧ canvas.isEmpty = true := by
  unfold isUnlit
  cases layer.paint roofline <;> simp

/-- What one more layer adds to the warnings and to the count of lit layers. -/
theorem tally_paintLayer {roofline : Roofline} (laidOut : roofline.LaidOut) {work next : Work}
    {layer : Layer} (paints : paintLayer roofline work layer = .ok next) :
    next.warnings = work.warnings ++ ([layer].filter (isUnlit roofline)).map unlitWarning ∧
      next.painted = work.painted + [layer].countP fun layer => !isUnlit roofline layer := by
  obtain ⟨canvas, layerPaints, outcome⟩ := paintLayer_cases paints
  have onStrip := (Layer.paint_fitsOn laidOut layerPaints).toList_below
  rw [← Std.TreeMap.isEmpty_toList, onStrip, Std.TreeMap.isEmpty_toList] at outcome
  have unlit : isUnlit roofline layer = canvas.isEmpty := by rw [isUnlit, layerPaints]
  rcases outcome with ⟨empty, rfl⟩ | ⟨lit, rfl⟩
  · simp [unlit, empty]
  · simp [unlit, lit]

/-- Painted one after another, layers leave a warning for each that lights nothing, in their order,
and the count of the others. -/
theorem tally_foldlM_paintLayer {roofline : Roofline} (laidOut : roofline.LaidOut)
    {layers : List Layer} {work done : Work}
    (paints : layers.foldlM (paintLayer roofline) work = .ok done) :
    done.warnings = work.warnings ++ (layers.filter (isUnlit roofline)).map unlitWarning ∧
      done.painted = work.painted + layers.countP fun layer => !isUnlit roofline layer := by
  induction layers generalizing work with
  | nil =>
      rw [List.foldlM_nil, Outcome.pure_eq_ok_iff] at paints
      simp [paints]
  | cons layer rest ih =>
      rw [List.foldlM_cons] at paints
      rcases Outcome.bind_eq_ok_iff.mp paints with ⟨next, first, others⟩
      obtain ⟨firstWarnings, firstPainted⟩ := tally_paintLayer laidOut first
      obtain ⟨warnings, painted⟩ := ih others
      rw [← List.singleton_append, List.filter_append, List.map_append, List.countP_append]
      constructor
      · rw [warnings, firstWarnings, List.append_assoc]
      · rw [painted, firstPainted, Nat.add_assoc]

/-! ## The painting order -/

/-- Of two layers with their positions, the first is painted before the second: it has the lower
priority, or an equal one and the lower position. -/
def PaintedBefore (a b : Layer × Nat) : Prop :=
  a.1.priority < b.1.priority ∨ a.1.priority = b.1.priority ∧ a.2 < b.2

/-- The painting order, put together layer by layer. -/
theorem paintingOrder_eq_insertionSort (layers : List Layer) :
    paintingOrder layers = layers.insertionSort fun a b => a.priority ≤ b.priority :=
  Sorting.mergeSort_eq_insertionSort Layer.priority layers

/-- Layers with their positions, sorted by priority alone. -/
def byPriority (placed : List (Layer × Nat)) : List (Layer × Nat) :=
  placed.mergeSort fun a b => decide (a.1.priority ≤ b.1.priority)

/-- The enabled layers of a design with their positions in it. -/
def placedLayers (intent : Intent) : List (Layer × Nat) :=
  intent.layers.zipIdx.filter fun placed => placed.1.enabled

theorem map_fst_filter_zipIdx (layers : List Layer) (start : Nat) :
    ((layers.zipIdx start).filter fun placed => placed.1.enabled).map Prod.fst =
      layers.filter Layer.enabled := by
  induction layers generalizing start with
  | nil => rfl
  | cons layer rest ih =>
      rw [List.zipIdx_cons]
      by_cases on : layer.enabled
      · rw [List.filter_cons_of_pos (by exact on), List.map_cons, ih,
          List.filter_cons_of_pos on]
      · rw [List.filter_cons_of_neg (by exact on), ih, List.filter_cons_of_neg on]

/-- The painting order is that of the placed layers sorted by priority. -/
theorem paintingOrder_enabledLayers (intent : Intent) :
    paintingOrder intent.enabledLayers = (byPriority (placedLayers intent)).map Prod.fst := by
  have sorted : (byPriority (placedLayers intent)).map Prod.fst =
      paintingOrder ((placedLayers intent).map Prod.fst) :=
    List.map_mergeSort fun _ _ _ _ => rfl
  rw [sorted, placedLayers, map_fst_filter_zipIdx]
  rfl

theorem pairwise_snd_placedLayers (intent : Intent) :
    (placedLayers intent).Pairwise fun a b => a.2 < b.2 := by
  apply List.Pairwise.filter _
  rw [← List.pairwise_map (f := Prod.snd), List.zipIdx_map_snd]
  exact List.pairwise_lt_range'

/-- In the painting order every layer stands before those that are painted after it. -/
theorem pairwise_byPriority (intent : Intent) :
    (byPriority (placedLayers intent)).Pairwise PaintedBefore :=
  Sorting.pairwise_mergeSort (fun placed : Layer × Nat => placed.1.priority)
    (pairwise_snd_placedLayers intent)

/-! ## The layer on top -/

/-- The layer that is seen at a light: of the enabled layers that cover it, the one that is
painted after every other. -/
structure OnTop (intent : Intent) (roofline : Roofline) (pixel : Nat) (top : Layer × Nat) :
    Prop where
  placed : top ∈ intent.layers.zipIdx
  enabled : top.1.enabled = true
  covers : top.1.Covers roofline pixel
  last : ∀ other ∈ intent.layers.zipIdx, other.1.enabled = true →
    other.1.Covers roofline pixel → other = top ∨ PaintedBefore other top

theorem mem_byPriority_iff {intent : Intent} {placed : Layer × Nat} :
    placed ∈ byPriority (placedLayers intent) ↔
      placed ∈ intent.layers.zipIdx ∧ placed.1.enabled = true := by
  unfold byPriority placedLayers
  rw [List.mem_mergeSort, List.mem_filter]

theorem PaintedBefore.asymm {a b : Layer × Nat} (before : PaintedBefore a b) :
    ¬ PaintedBefore b a := by
  unfold PaintedBefore at before ⊢
  omega

/-- The last layer of the painting order that shows at a light is the one on top. -/
theorem findSome?_reverse_eq_some_iff {intent : Intent} {roofline : Roofline}
    (laidOut : roofline.LaidOut) {pixel : Nat} {color : Color} :
    (paintingOrder intent.enabledLayers).reverse.findSome? (shownBy roofline pixel) = some color ↔
      ∃ top, OnTop intent roofline pixel top ∧ top.1.Paints roofline pixel color := by
  rw [paintingOrder_enabledLayers, ← List.map_reverse, List.findSome?_map]
  have order : (byPriority (placedLayers intent)).reverse.Pairwise
      fun later earlier => PaintedBefore earlier later :=
    List.pairwise_reverse.mpr (pairwise_byPriority intent)
  have memReverse : ∀ placed, placed ∈ (byPriority (placedLayers intent)).reverse ↔
      placed ∈ intent.layers.zipIdx ∧ placed.1.enabled = true := by
    intro placed
    rw [List.mem_reverse, mem_byPriority_iff]
  rw [List.findSome?_eq_some_iff]
  constructor
  · rintro ⟨after, top, before, shape, shows, unseen⟩
    have paints := (shownBy_eq_some_iff laidOut).mp shows
    have topMem := (memReverse top).mp (by simp [shape])
    refine ⟨top, ⟨topMem.1, topMem.2, ⟨color, paints⟩, ?_⟩, paints⟩
    intro other otherPlaced otherEnabled ⟨otherColor, otherPaints⟩
    have otherMem := (memReverse other).mpr ⟨otherPlaced, otherEnabled⟩
    rw [shape] at otherMem order
    rcases List.mem_append.mp otherMem with isAfter | fromTop
    · have hidden := unseen other isAfter
      rw [Function.comp_apply, (shownBy_eq_some_iff laidOut).mpr otherPaints] at hidden
      cases hidden
    · rcases List.mem_cons.mp fromTop with here | isBefore
      · exact .inl here
      · exact .inr ((List.pairwise_cons.mp (List.pairwise_append.mp order).2.1).1 other isBefore)
  · rintro ⟨top, onTop, paints⟩
    obtain ⟨after, before, shape⟩ :=
      List.append_of_mem ((memReverse top).mpr ⟨onTop.placed, onTop.enabled⟩)
    refine ⟨after, top, before, shape, (shownBy_eq_some_iff laidOut).mpr paints, ?_⟩
    intro other otherMem
    rw [Function.comp_apply, Option.eq_none_iff_forall_not_mem]
    intro otherColor shows
    have otherPlaced := (memReverse other).mp (by simp [shape, otherMem])
    have otherCovers : other.1.Covers roofline pixel :=
      ⟨otherColor, (shownBy_eq_some_iff laidOut).mp shows⟩
    rw [shape] at order
    have later := (List.pairwise_append.mp order).2.2 other otherMem top List.mem_cons_self
    rcases onTop.last other otherPlaced.1 otherPlaced.2 otherCovers with here | earlier
    · subst here
      exact later.asymm later
    · exact later.asymm earlier

/-! ## The result of composing -/

/-- What composing can give: a refusal where something is open or there are no layers, and else,
with the warnings of the painting, a refusal where no layer lit anything and the groups of the
painted canvas with their payload where one did. -/
theorem compose_outcomes {intent : Intent} {roofline : Roofline} {rgbw : Bool}
    {result : Composition} (composed : compose intent roofline rgbw = .ok result) :
    (∃ error suggestions byHand, (intent.ambiguities ≠ [] ∨ intent.layers = []) ∧
        result = refused error suggestions [] byHand) ∨
      ∃ work, intent.ambiguities = [] ∧ intent.layers ≠ [] ∧
        paintAll intent roofline = .ok work ∧
        ((∃ error suggestions byHand, work.painted = 0 ∧
            result = refused error suggestions work.warnings byHand) ∨
          work.painted ≠ 0 ∧
            result = ⟨true, work.canvas.groups,
              some (payloadFor work.canvas.groups intent (leadingMotion intent) roofline.total
                rgbw),
              work.warnings, none, [], false⟩) := by
  unfold compose at composed
  split at composed
  · rename_i flagged
    cases composed
    exact .inl ⟨_, _, _, .inl (by simpa using flagged), rfl⟩
  · rename_i settled
    split at composed
    · rename_i empty
      cases composed
      exact .inl ⟨_, _, _, .inr (by simpa using empty), rfl⟩
    · rename_i layered
      rcases Outcome.bind_eq_ok_iff.mp composed with ⟨work, paints, rest⟩
      refine .inr ⟨work, by simpa using settled, by simpa using layered, paints, ?_⟩
      split at rest
      · rename_i nothing
        cases rest
        exact .inl ⟨_, _, _, nothing, rfl⟩
      · rename_i painted
        cases rest
        exact .inr ⟨painted, rfl⟩

/-- What composing can give: a refusal without groups and payload, or the groups of the painted
canvas with their payload, and then nothing was open. -/
theorem compose_cases {intent : Intent} {roofline : Roofline} {rgbw : Bool}
    {result : Composition} (composed : compose intent roofline rgbw = .ok result) :
    (result.success = false ∧ result.groups = [] ∧ result.payload = none) ∨
      ∃ work, intent.ambiguities = [] ∧ intent.layers ≠ [] ∧
        paintAll intent roofline = .ok work ∧ work.painted ≠ 0 ∧
        result = ⟨true, work.canvas.groups,
          some (payloadFor work.canvas.groups intent (leadingMotion intent) roofline.total rgbw),
          work.warnings, none, [], false⟩ := by
  rcases compose_outcomes composed with ⟨_, _, _, -, rfl⟩ | ⟨work, settled, layered, paints, done⟩
  · exact .inl ⟨rfl, rfl, rfl⟩
  · rcases done with ⟨_, _, _, -, rfl⟩ | ⟨painted, shape⟩
    · exact .inl ⟨rfl, rfl, rfl⟩
    · exact .inr ⟨work, settled, layered, paints, painted, shape⟩

/-- The groups of a composition that shows something are the priority painting of the enabled
layers in canonical form: a light has the colour that the layer on top gives it, is absent
exactly where no enabled layer covers it, and the groups increase, lie apart on the strip, and
join wherever two could be joined. -/
theorem groups_paint_layers_by_priority {intent : Intent} {roofline : Roofline} {rgbw : Bool}
    {result : Composition} (laidOut : roofline.LaidOut)
    (composed : compose intent roofline rgbw = .ok result) (shown : result.success = true) :
    (∀ pixel color, (pixel, color) ∈ Group.expand result.groups ↔
      ∃ top, OnTop intent roofline pixel top ∧ top.1.Paints roofline pixel color) ∧
    (∀ pixel, (∀ color, (pixel, color) ∉ Group.expand result.groups) ↔
      ∀ layer ∈ intent.layers, layer.enabled = true → ¬ layer.Covers roofline pixel) ∧
    Group.Canonical roofline.total result.groups := by
  rcases compose_cases composed with ⟨refused, -, -⟩ | ⟨work, -, -, paints, -, shape⟩
  · rw [refused] at shown
    cases shown
  · subst shape
    have lookup : ∀ pixel, work.canvas[pixel]? =
        (paintingOrder intent.enabledLayers).reverse.findSome? (shownBy roofline pixel) := by
      intro pixel
      rw [getElem?_foldlM_paintLayer paints pixel, Canvas.getElem?_blank, Option.or_none]
    refine ⟨?_, ?_, Canvas.canonical_groups (paintAll_fitsOn paints)⟩
    · intro pixel color
      rw [Canvas.mem_expand_groups_iff, lookup, findSome?_reverse_eq_some_iff laidOut]
    · intro pixel
      simp only [Canvas.mem_expand_groups_iff, lookup]
      rw [← Option.eq_none_iff_forall_ne_some, List.findSome?_eq_none_iff]
      constructor
      · rintro dark layer layerMem on ⟨color, layerPaints⟩
        have inOrder : layer ∈ (paintingOrder intent.enabledLayers).reverse := by
          rw [List.mem_reverse, paintingOrder, List.mem_mergeSort]
          exact List.mem_filter.mpr ⟨layerMem, on⟩
        have hidden := dark layer inOrder
        rw [(shownBy_eq_some_iff laidOut).mpr layerPaints] at hidden
        cases hidden
      · intro uncovered layer inOrder
        rw [List.mem_reverse, paintingOrder, List.mem_mergeSort] at inOrder
        rcases List.mem_filter.mp inOrder with ⟨layerMem, on⟩
        rw [Option.eq_none_iff_forall_ne_some]
        intro color shows
        exact uncovered layer layerMem on ⟨color, (shownBy_eq_some_iff laidOut).mp shows⟩

/-- An eave of four lights and a peak of three. -/
def eaveAndPeak : Roofline :=
  { segments := [{ id := "eave", name := "Eave", pixelCount := 4 },
      { id := "peak", name := "Peak", pixelCount := 3, startPixel := 4, sortOrder := 1 }] }

/-- Red everywhere, blue on the eave at the same priority, green on the peak at a lower one. -/
def redBlueGreen : Intent :=
  { layers := [
      { id := "a", name := "red", coloring := { primary := ⟨255, 0, 0, 0⟩ }, priority := 1 },
      { id := "b", name := "blue", zone := .segments (.singleton "eave"),
        coloring := { primary := ⟨0, 0, 255, 0⟩ }, priority := 1 },
      { id := "c", name := "green", zone := .segments (.singleton "peak"),
        coloring := { primary := ⟨0, 255, 0, 0⟩ } }] }

/-- Blue covers red by its position, red covers green by its priority. -/
theorem groups_redBlueGreen :
    eaveAndPeak.LaidOut ∧ ∃ result, compose redBlueGreen eaveAndPeak false = .ok result ∧
      result.success = true ∧
      result.groups = [⟨0, 3, ⟨0, 0, 255, 0⟩, by decide⟩, ⟨4, 6, ⟨255, 0, 0, 0⟩, by decide⟩] ∧
      (∃ top, OnTop redBlueGreen eaveAndPeak 2 top ∧
        top.1.Paints eaveAndPeak 2 ⟨0, 0, 255, 0⟩) ∧
      Group.Canonical 7 result.groups := by
  have laidOut : eaveAndPeak.LaidOut := by decide
  have painted : ((compose redBlueGreen eaveAndPeak false).map
      fun result => (result.success, result.groups)).toOption =
        some (true, [⟨0, 3, ⟨0, 0, 255, 0⟩, by decide⟩, ⟨4, 6, ⟨255, 0, 0, 0⟩, by decide⟩]) := by
    simp only [compose, paintAll, paintingOrder_eq_insertionSort, Canvas.groups_eq_fuse_singles]
    decide +kernel
  rcases Outcome.exists_ok_of_toOption painted with ⟨result, composed, shape⟩
  rcases Prod.mk.injEq .. ▸ shape with ⟨shown, groups⟩
  rcases groups_paint_layers_by_priority laidOut composed shown with ⟨lights, -, canonical⟩
  refine ⟨laidOut, result, composed, shown, groups, (lights 2 _).mp ?_, canonical⟩
  rw [groups]
  decide

/-! ## How a composition comes out -/

/-- A design of which all layers were painted has lit something exactly where some enabled layer
lights something. -/
theorem painted_ne_zero_iff {intent : Intent} {roofline : Roofline} (laidOut : roofline.LaidOut)
    {work : Work} (paints : paintAll intent roofline = .ok work) :
    work.painted ≠ 0 ↔ ∃ layer ∈ intent.layers, layer.enabled = true ∧
      ∃ canvas, layer.paint roofline = .ok canvas ∧ canvas.isEmpty = false := by
  obtain ⟨-, counted⟩ := tally_foldlM_paintLayer laidOut paints
  have enabled : ∀ layer, layer ∈ paintingOrder intent.enabledLayers ↔
      layer ∈ intent.layers ∧ layer.enabled = true := by
    intro layer
    rw [paintingOrder, List.mem_mergeSort]
    exact List.mem_filter
  rw [counted, Nat.zero_add, ← Nat.pos_iff_ne_zero, List.countP_pos_iff]
  constructor
  · rintro ⟨layer, mem, isLit⟩
    obtain ⟨earlier, later, order⟩ := List.append_of_mem mem
    unfold paintAll at paints
    rw [order] at paints
    obtain ⟨before, after, -, step, -⟩ := Outcome.exists_step_of_foldlM paints
    obtain ⟨canvas, layerPaints, -⟩ := paintLayer_cases step
    obtain ⟨isLayer, on⟩ := (enabled layer).mp mem
    refine ⟨layer, isLayer, on, canvas, layerPaints, ?_⟩
    simpa [isUnlit, layerPaints] using isLit
  · rintro ⟨layer, isLayer, on, canvas, layerPaints, lit⟩
    exact ⟨layer, (enabled layer).mpr ⟨isLayer, on⟩, by simp [isUnlit, layerPaints, lit]⟩

/-- The warnings of a painting are those of the enabled layers that light nothing, in painting
order. -/
theorem exists_unlit_of_paintAll {intent : Intent} {roofline : Roofline}
    (laidOut : roofline.LaidOut) {work : Work} (paints : paintAll intent roofline = .ok work) :
    ∃ unlit : List (Layer × Nat), unlit.Pairwise PaintedBefore ∧
      (∀ placed, placed ∈ unlit ↔ placed ∈ intent.layers.zipIdx ∧ placed.1.enabled = true ∧
        ∃ canvas, placed.1.paint roofline = .ok canvas ∧ canvas.isEmpty = true) ∧
      work.warnings = unlit.map fun placed => unlitWarning placed.1 := by
  refine ⟨(byPriority (placedLayers intent)).filter (isUnlit roofline ∘ Prod.fst),
    (pairwise_byPriority intent).filter _, ?_, ?_⟩
  · intro placed
    rw [List.mem_filter, mem_byPriority_iff, and_assoc, Function.comp_apply, isUnlit_eq_true_iff]
  · obtain ⟨warnings, -⟩ := tally_foldlM_paintLayer laidOut paints
    rw [warnings, paintingOrder_enabledLayers, List.filter_map, List.map_map]
    rfl

/-- How a composition comes out.  It succeeds exactly where nothing is open and some enabled layer
lights something; then it has a payload and no error, and else it has an error, no groups and no
payload.  Where nothing is open it warns of the enabled layers that light nothing, of each once, in
the order of painting, whether it succeeds or not. -/
theorem compose_succeeds_iff {intent : Intent} {roofline : Roofline} {rgbw : Bool}
    {result : Composition} (laidOut : roofline.LaidOut)
    (composed : compose intent roofline rgbw = .ok result) :
    (result.success = true ↔ intent.ambiguities = [] ∧
      ∃ layer ∈ intent.layers, layer.enabled = true ∧
        ∃ canvas, layer.paint roofline = .ok canvas ∧ canvas.isEmpty = false) ∧
    (result.success = true → result.payload.isSome = true ∧ result.error = none) ∧
    (result.success = false →
      result.groups = [] ∧ result.payload = none ∧ result.error.isSome = true) ∧
    (intent.ambiguities = [] → ∃ unlit : List (Layer × Nat), unlit.Pairwise PaintedBefore ∧
      (∀ placed, placed ∈ unlit ↔ placed ∈ intent.layers.zipIdx ∧ placed.1.enabled = true ∧
        ∃ canvas, placed.1.paint roofline = .ok canvas ∧ canvas.isEmpty = true) ∧
      result.warnings = unlit.map fun placed => unlitWarning placed.1) := by
  rcases compose_outcomes composed with
    ⟨error, suggestions, byHand, unready, rfl⟩ | ⟨work, settled, -, paints, outcome⟩
  · refine ⟨?_, fun shown => Bool.noConfusion shown, fun _ => ⟨rfl, rfl, rfl⟩, ?_⟩
    · apply iff_of_false Bool.false_ne_true
      rintro ⟨settled, layer, mem, -⟩
      have noLayers := unready.resolve_left (not_not.mpr settled)
      simp [noLayers] at mem
    · intro settled
      have noLayers := unready.resolve_left (not_not.mpr settled)
      exact ⟨[], .nil, by simp [noLayers], rfl⟩
  · have lights := painted_ne_zero_iff laidOut paints
    have warnings := exists_unlit_of_paintAll laidOut paints
    rcases outcome with ⟨error, suggestions, byHand, nothing, rfl⟩ | ⟨painted, rfl⟩
    · refine ⟨?_, fun shown => Bool.noConfusion shown, fun _ => ⟨rfl, rfl, rfl⟩, fun _ => warnings⟩
      apply iff_of_false Bool.false_ne_true
      rintro ⟨-, lit⟩
      exact lights.mpr lit nothing
    · exact ⟨iff_of_true rfl ⟨settled, lights.mp painted⟩, fun _ => ⟨rfl, rfl⟩,
        fun refused => Bool.noConfusion refused, fun _ => warnings⟩

/-- Four layers in red: of every light, of no light, of a segment that is not there, and of that
one again, not in use. -/
def everyLightAndNone : Intent :=
  { layers := [
      { id := "a", name := "everywhere", coloring := { primary := ⟨255, 0, 0, 0⟩ } },
      { id := "b", name := "never", priority := 1,
        coloring := { primary := ⟨255, 0, 0, 0⟩, spacing := some (.everyNth 0) } },
      { id := "c", name := "nowhere", zone := .segments (.singleton "porch"),
        coloring := { primary := ⟨255, 0, 0, 0⟩ } },
      { id := "d", name := "unused", zone := .segments (.singleton "porch"), enabled := false,
        coloring := { primary := ⟨255, 0, 0, 0⟩ } }] }

/-- The composition warns of the layer of lower priority first, and not of the one that is not in
use. -/
theorem compose_succeeds_everyLightAndNone :
    eaveAndPeak.LaidOut ∧ ∃ result, compose everyLightAndNone eaveAndPeak false = .ok result ∧
      result.success = true ∧ result.payload.isSome = true ∧ result.error = none ∧
      result.warnings = ["Layer \"nowhere\" produced no LED assignments",
        "Layer \"never\" produced no LED assignments"] := by
  have laidOut : eaveAndPeak.LaidOut := by decide
  have painted : ((compose everyLightAndNone eaveAndPeak false).map
      fun result => (result.success, result.warnings)).toOption =
        some (true, ["Layer \"nowhere\" produced no LED assignments",
          "Layer \"never\" produced no LED assignments"]) := by
    simp only [compose, paintAll, paintingOrder_eq_insertionSort, Canvas.groups_eq_fuse_singles]
    decide +kernel
  rcases Outcome.exists_ok_of_toOption painted with ⟨result, composed, shape⟩
  rcases Prod.mk.injEq .. ▸ shape with ⟨shown, warnings⟩
  obtain ⟨-, whereShown, -, -⟩ := compose_succeeds_iff laidOut composed
  obtain ⟨hasPayload, noError⟩ := whereShown shown
  exact ⟨laidOut, result, composed, shown, hasPayload, noError, warnings⟩

end Composition

end Eaves
