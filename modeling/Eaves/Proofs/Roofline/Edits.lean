import Eaves.Proofs.Sorting
import Eaves.Roofline.Basic
import Mathlib.Algebra.GroupWithZero.Nat
import Mathlib.Data.List.Nodup

/-!
# Rooflines under edits

However a roofline is edited, its segments have ids of their own, are numbered from
zero and lie end to end from light zero on.  So every light of the strip belongs to
exactly one segment, and looking it up gives that one, also where some segments are
empty.

An edit says which segments are wanted and in which order.  Numbering them afresh
makes the sorting that follows keep this order, so the result is the wanted list,
placed; the only ground for refusing it is an id that occurs twice.

Reading a roofline, and every edit of one, lays its segments out.  What this comes
to is one equation: placing the segments from light zero on changes nothing.  From
it follows that every segment ends before the end of the strip.
-/

namespace Eaves.Roofline

/-- The segments are numbered from zero and lie end to end from light zero on. -/
def LaidOut (roofline : Roofline) : Prop :=
  placeFrom 0 0 roofline.segments = roofline.segments

instance (roofline : Roofline) : Decidable roofline.LaidOut :=
  inferInstanceAs (Decidable (_ = _))

/-- Placing segments forgets how they were placed before. -/
theorem placeFrom_placeFrom (position start : Nat) (segments : List Segment) :
    placeFrom position start (placeFrom position start segments) =
      placeFrom position start segments := by
  induction segments generalizing position start with
  | nil => rfl
  | cons segment rest ih => simp [placeFrom, ih]

/-- A roofline that is built from segments is laid out. -/
theorem ofSegments_laidOut {id name : String} {segments : List Segment} {roofline : Roofline}
    (built : ofSegments id name segments = .valid roofline) : roofline.LaidOut := by
  unfold ofSegments layOut at built
  split at built
  · simp only [Checked.under, Checked.map_valid] at built
    cases built
    exact placeFrom_placeFrom 0 0 _
  · cases built

/-- A placed segment starts at or after the start of the placing, and as many lights follow its
end as the segments behind it have. -/
theorem end_le_of_mem_placeFrom {position start : Nat} {segments : List Segment}
    {segment : Segment} (mem : segment ∈ placeFrom position start segments) :
    segment.startPixel + segment.pixelCount ≤
      start + (segments.map Segment.pixelCount).foldr (· + ·) 0 := by
  induction segments generalizing position start with
  | nil => simp [placeFrom] at mem
  | cons first rest ih =>
      simp only [placeFrom, List.mem_cons] at mem
      simp only [List.map_cons, List.foldr_cons]
      rcases mem with here | later
      · subst here
        simp only
        omega
      · have := ih later
        omega

/-- Every segment of a laid out roofline ends on the strip. -/
theorem LaidOut.end_le_total {roofline : Roofline} (laidOut : roofline.LaidOut)
    {segment : Segment} (mem : segment ∈ roofline.segments) :
    segment.startPixel + segment.pixelCount ≤ roofline.total := by
  have placed : segment ∈ placeFrom 0 0 roofline.segments := laidOut.symm ▸ mem
  have bound := end_le_of_mem_placeFrom placed
  rwa [Nat.zero_add] at bound


/-! ## End to end -/

/-- Segments with ids of their own, numbered from zero, that lie end to end from light zero on. -/
structure EndToEnd (segments : List Segment) : Prop where
  distinct : (segments.map Segment.id).Nodup
  order_eq : ∀ (position : Nat) (segment : Segment), segments[position]? = some segment →
    segment.sortOrder = position
  first_start : ∀ segment : Segment, segments[0]? = some segment → segment.startPixel = 0
  next_start : ∀ (position : Nat) (segment next : Segment), segments[position]? = some segment →
    segments[position + 1]? = some next →
      next.startPixel = segment.startPixel + segment.pixelCount

/-- The number of lights of segments. -/
def lights (segments : List Segment) : Nat :=
  (segments.map Segment.pixelCount).sum

theorem total_eq_lights (roofline : Roofline) : roofline.total = lights roofline.segments :=
  rfl

@[simp]
theorem lights_cons (segment : Segment) (rest : List Segment) :
    lights (segment :: rest) = segment.pixelCount + lights rest := by
  simp [lights]

/-- A segment at a position of a strip. -/
def placedAt (position start : Nat) (segment : Segment) : Segment :=
  { segment with startPixel := start, sortOrder := position }

/-- A segment as it is before it is placed. -/
def unplaced (segment : Segment) : Segment :=
  placedAt 0 0 segment

theorem placeFrom_cons (position start : Nat) (segment : Segment) (rest : List Segment) :
    placeFrom position start (segment :: rest) =
      placedAt position start segment ::
        placeFrom (position + 1) (start + segment.pixelCount) rest :=
  rfl

/-- Placing changes nothing but where segments start and how they are numbered. -/
theorem map_unplaced_placeFrom (position start : Nat) (segments : List Segment) :
    (placeFrom position start segments).map unplaced = segments.map unplaced := by
  induction segments generalizing position start with
  | nil => rfl
  | cons segment rest ih => simp [placeFrom_cons, unplaced, placedAt, ih]

@[simp]
theorem map_id_placeFrom (position start : Nat) (segments : List Segment) :
    (placeFrom position start segments).map Segment.id = segments.map Segment.id := by
  induction segments generalizing position start with
  | nil => rfl
  | cons segment rest ih => simp [placeFrom_cons, placedAt, ih]

/-- The segment that is placed at a position starts where the lights of those before it end. -/
theorem getElem?_placeFrom (position start : Nat) (segments : List Segment) (i : Nat) :
    (placeFrom position start segments)[i]? =
      segments[i]?.map (placedAt (position + i) (start + lights (segments.take i))) := by
  induction segments generalizing position start i with
  | nil => simp [placeFrom]
  | cons segment rest ih =>
      cases i with
      | zero => simp [placeFrom_cons, lights]
      | succ i => simp [placeFrom_cons, ih, Nat.add_assoc, Nat.add_comm 1 i]

theorem lights_take_succ {segments : List Segment} {i : Nat} {segment : Segment}
    (there : segments[i]? = some segment) :
    lights (segments.take (i + 1)) = lights (segments.take i) + segment.pixelCount := by
  simp [lights, List.take_add_one, there]

/-- Segments with ids of their own lie end to end once they are placed. -/
theorem endToEnd_placeFrom {segments : List Segment}
    (distinct : (segments.map Segment.id).Nodup) : EndToEnd (placeFrom 0 0 segments) := by
  constructor
  · simpa using distinct
  · intro position segment there
    rw [getElem?_placeFrom, Option.map_eq_some_iff] at there
    rcases there with ⟨own, -, rfl⟩
    simp [placedAt]
  · intro segment there
    rw [getElem?_placeFrom, Option.map_eq_some_iff] at there
    rcases there with ⟨own, -, rfl⟩
    simp [placedAt, lights]
  · intro position segment next there nextThere
    rw [getElem?_placeFrom, Option.map_eq_some_iff] at there nextThere
    rcases there with ⟨own, isOwn, rfl⟩
    rcases nextThere with ⟨other, -, rfl⟩
    simp [placedAt, lights_take_succ isOwn]

/-! ## The segment of a light -/

theorem contains_iff {segment : Segment} {pixel : Int} :
    segment.contains pixel = true ↔
      (segment.startPixel : Int) ≤ pixel ∧ pixel < segment.startPixel + segment.pixelCount := by
  rw [Segment.contains, decide_eq_true_iff, Segment.endPixel]
  omega

/-- No segment is placed before the start of the placing. -/
theorem start_le_of_mem_placeFrom {position start : Nat} {segments : List Segment}
    {segment : Segment} (mem : segment ∈ placeFrom position start segments) :
    start ≤ segment.startPixel := by
  rcases List.mem_iff_getElem?.mp mem with ⟨i, there⟩
  rw [getElem?_placeFrom, Option.map_eq_some_iff] at there
  rcases there with ⟨own, -, rfl⟩
  exact Nat.le_add_right _ _

/-- A light among those of placed segments lies in one of them, which is found. -/
theorem exists_find?_placeFrom (position start : Nat) (segments : List Segment) {pixel : Int}
    (fromStart : (start : Int) ≤ pixel) (inside : pixel < start + lights segments) :
    ∃ segment,
      (placeFrom position start segments).find? (fun placed => placed.contains pixel) =
          some segment ∧
        ∀ other, other ∈ placeFrom position start segments ∧ other.contains pixel = true ↔
          other = segment := by
  induction segments generalizing position start with
  | nil =>
      simp [lights] at inside
      omega
  | cons segment rest ih =>
      rw [lights_cons] at inside
      have here : (placedAt position start segment).contains pixel = true ↔
          pixel < start + segment.pixelCount := by
        rw [contains_iff]
        exact and_iff_right fromStart
      by_cases isHere : pixel < start + segment.pixelCount
      · refine ⟨placedAt position start segment, ?_, ?_⟩
        · rw [placeFrom_cons, List.find?_cons, here.mpr isHere]
        · intro other
          constructor
          · rintro ⟨mem, otherHolds⟩
            rcases List.mem_cons.mp mem with first | later
            · exact first
            · -- the segments behind the first start after the light
              have after := start_le_of_mem_placeFrom later
              have bounds := contains_iff.mp otherHolds
              omega
          · rintro rfl
            exact ⟨List.mem_cons_self, here.mpr isHere⟩
      · have misses : (placedAt position start segment).contains pixel = false := by
          rw [← Bool.not_eq_true, here]
          exact isHere
        obtain ⟨found, isFound, only⟩ :=
          ih (position + 1) (start + segment.pixelCount) (by omega) (by omega)
        refine ⟨found, ?_, ?_⟩
        · rw [placeFrom_cons, List.find?_cons, misses]
          exact isFound
        · intro other
          rw [← only, placeFrom_cons, List.mem_cons]
          constructor
          · rintro ⟨rfl | later, holds⟩
            · rw [misses] at holds
              cases holds
            · exact ⟨later, holds⟩
          · rintro ⟨later, holds⟩
            exact ⟨.inr later, holds⟩

/-- A light outside those of placed segments lies in none of them. -/
theorem find?_placeFrom_eq_none (position start : Nat) (segments : List Segment) {pixel : Int}
    (outside : ¬((start : Int) ≤ pixel ∧ pixel < start + lights segments)) :
    (placeFrom position start segments).find? (fun placed => placed.contains pixel) = none := by
  rw [List.find?_eq_none]
  intro segment mem holds
  have after := start_le_of_mem_placeFrom mem
  have before := end_le_of_mem_placeFrom mem
  have bounds := contains_iff.mp holds
  rw [← List.sum_eq_foldr, ← lights] at before
  omega

/-! ## One edit -/

/-- What can be done to a roofline. -/
inductive Edit where
  | add (segment : Segment)
  | update (id : String) (segment : Segment)
  | remove (id : String)
  | reorder (source target : Int)
  deriving DecidableEq, Repr

namespace Edit

/-- The roofline that an edit leads to. -/
def apply (edit : Edit) (roofline : Roofline) : Checked Roofline :=
  match edit with
  | add segment => roofline.add segment
  | update id segment => roofline.update id segment
  | remove id => roofline.remove id
  | reorder source target => roofline.reorder source target

/-- The segments that an edit asks for, in order: one more at the end, another one in place of
those with an id, those without an id, or the one at a position moved to another. -/
def edited (edit : Edit) (segments : List Segment) : List Segment :=
  match edit with
  | add segment => segments ++ [segment]
  | update id segment => segments.map fun present => if present.id = id then segment else present
  | remove id => segments.filter fun present => present.id ≠ id
  | reorder source target =>
      if 0 ≤ source ∧ source < segments.length ∧ 0 ≤ target ∧ target < segments.length ∧
          source ≠ target then
        moveMember segments source.toNat target.toNat
      else segments

end Edit

section Renumbering

variable (position start : Nat) (segments : List Segment)

@[simp]
theorem map_id_renumberFrom :
    (renumberFrom position segments).map Segment.id = segments.map Segment.id := by
  induction segments generalizing position with
  | nil => rfl
  | cons segment rest ih => simp [renumberFrom, ih]

theorem placeFrom_renumberFrom (number : Nat) :
    placeFrom position start (renumberFrom number segments) =
      placeFrom position start segments := by
  induction segments generalizing position start number with
  | nil => rfl
  | cons segment rest ih => simp [renumberFrom, placeFrom, ih]

theorem le_sortOrder_of_mem_renumberFrom {segment : Segment}
    (mem : segment ∈ renumberFrom position segments) : (position : Int) ≤ segment.sortOrder := by
  induction segments generalizing position with
  | nil => cases mem
  | cons first rest ih =>
      rcases List.mem_cons.mp mem with rfl | later
      · exact Int.le_refl _
      · have := ih (position + 1) later
        omega

/-- Each segment is put where it belongs among those after it. -/
theorem place_eq_insertionSort :
    place segments = placeFrom 0 0
      (segments.insertionSort fun s t => s.sortOrder ≤ t.sortOrder) :=
  congrArg (placeFrom 0 0) (Sorting.mergeSort_eq_insertionSort Segment.sortOrder segments)

/-- Numbered segments are in order already, so sorting them changes nothing. -/
theorem mergeSort_renumberFrom :
    (renumberFrom position segments).mergeSort (fun s t => decide (s.sortOrder ≤ t.sortOrder)) =
      renumberFrom position segments := by
  apply List.mergeSort_of_pairwise
  induction segments generalizing position with
  | nil => exact .nil
  | cons first rest ih =>
      refine .cons ?_ (ih (position + 1))
      intro other mem
      have := le_sortOrder_of_mem_renumberFrom (position + 1) rest mem
      rw [decide_eq_true_iff]
      dsimp only
      omega

end Renumbering

/-- The refusal of segments that share an id. -/
def repeats : Checked Roofline :=
  (Checked.fail repeatedId).under "segments"

/-- Segments that are wanted in an order are placed in it, unless two share an id. -/
theorem withSegments_eq (roofline : Roofline) (segments : List Segment) :
    roofline.withSegments segments =
      if (segments.map Segment.id).Nodup then
        .valid { roofline with segments := placeFrom 0 0 segments }
      else repeats := by
  simp only [withSegments, ofSegments, layOut, distinctIds, map_id_renumberFrom, place,
    mergeSort_renumberFrom, placeFrom_renumberFrom, decide_eq_true_iff]
  split
  · rfl
  · rfl

/-- An edit places the segments it asks for, and is refused exactly where two of them share an
id. -/
theorem Edit.apply_eq {roofline : Roofline} (laidOut : roofline.LaidOut)
    (distinct : (roofline.segments.map Segment.id).Nodup) (edit : Edit) :
    edit.apply roofline =
      if ((edit.edited roofline.segments).map Segment.id).Nodup then
        .valid { roofline with segments := placeFrom 0 0 (edit.edited roofline.segments) }
      else repeats := by
  have unchanged : (.valid roofline : Checked Roofline) =
      if (roofline.segments.map Segment.id).Nodup then
        .valid { roofline with segments := placeFrom 0 0 roofline.segments }
      else repeats := by
    rw [if_pos distinct, laidOut]
  cases edit with
  | add segment => exact withSegments_eq roofline _
  | update id segment => simp [apply, Roofline.update, withSegments_eq, edited]
  | remove id => simp [apply, Roofline.remove, withSegments_eq, edited, bne, Bool.beq_eq_decide_eq]
  | reorder source target =>
      by_cases moves : 0 ≤ source ∧ source < roofline.segments.length ∧ 0 ≤ target ∧
          target < roofline.segments.length ∧ source ≠ target
      · simp only [apply, Roofline.reorder, edited, if_pos moves]
        exact withSegments_eq roofline _
      · simp only [apply, Roofline.reorder, edited, if_neg moves]
        exact unchanged

/-! ## Any number of edits -/

/-- The rooflines that edits lead to, one after another; an edit that is refused leads nowhere. -/
inductive EditsTo (start : Roofline) : Roofline → Prop
  | start : EditsTo start start
  | edit {reached next : Roofline} (earlier : EditsTo start reached) (edit : Edit)
      (applied : edit.apply reached = .valid next) : EditsTo start next

/-- Segments with ids of their own make a roofline, in the order of their numbers. -/
theorem ofSegments_eq (id name : String) {segments : List Segment}
    (distinct : (segments.map Segment.id).Nodup) :
    ofSegments id name segments = .valid ⟨id, name, place segments⟩ := by
  simp [ofSegments, layOut, distinctIds, distinct]

/-- A roofline is laid out, from segments with ids of their own. -/
structure IsBuilt (roofline : Roofline) : Prop where
  laidOut : roofline.LaidOut
  distinct : (roofline.segments.map Segment.id).Nodup

theorem isBuilt_placeFrom (id name : String) {segments : List Segment}
    (distinct : (segments.map Segment.id).Nodup) :
    IsBuilt ⟨id, name, placeFrom 0 0 segments⟩ :=
  ⟨placeFrom_placeFrom 0 0 segments, by simpa using distinct⟩

theorem isBuilt_place (id name : String) {segments : List Segment}
    (distinct : (segments.map Segment.id).Nodup) : IsBuilt ⟨id, name, place segments⟩ := by
  apply isBuilt_placeFrom
  exact ((List.mergeSort_perm segments _).map Segment.id).nodup_iff.mpr distinct

/-- What an accepted edit leads to. -/
theorem IsBuilt.edited {roofline next : Roofline} (built : roofline.IsBuilt) {edit : Edit}
    (applied : edit.apply roofline = .valid next) :
    next.IsBuilt ∧
      next.segments.map unplaced = (edit.edited roofline.segments).map unplaced := by
  rw [edit.apply_eq built.laidOut built.distinct] at applied
  split at applied
  · rename_i distinct
    cases applied
    exact ⟨isBuilt_placeFrom _ _ distinct, map_unplaced_placeFrom 0 0 _⟩
  · cases applied

theorem IsBuilt.editsTo {start reached : Roofline} (built : start.IsBuilt)
    (isReached : EditsTo start reached) : reached.IsBuilt := by
  induction isReached with
  | start => exact built
  | edit earlier edit applied ih => exact (ih.edited applied).1

/-- A built roofline lies end to end. -/
theorem IsBuilt.endToEnd {roofline : Roofline} (built : roofline.IsBuilt) :
    EndToEnd roofline.segments :=
  built.laidOut ▸ endToEnd_placeFrom built.distinct

/-- Segments with ids of their own make a roofline, and in every roofline that edits of it lead
to: the segments have ids of their own, are numbered from zero and lie end to end from light
zero on; every light of the strip lies in exactly one segment, which is the one found for it, and
none is found for any other number; an edit is refused exactly where the segments it asks for
would repeat an id, and else gives those segments. -/
theorem edits_keep_end_to_end (id name : String) {segments : List Segment}
    (distinct : (segments.map Segment.id).Nodup) :
    ∃ start, ofSegments id name segments = .valid start ∧ ∀ reached, EditsTo start reached →
      EndToEnd reached.segments ∧
      (∀ pixel : Int, 0 ≤ pixel → pixel < reached.total →
        ∃ segment, reached.segmentAt? pixel = some segment ∧
          ∀ other, other ∈ reached.segments ∧ other.contains pixel = true ↔ other = segment) ∧
      (∀ pixel : Int, ¬(0 ≤ pixel ∧ pixel < reached.total) → reached.segmentAt? pixel = none) ∧
      ∀ edit : Edit,
        ((∃ problems, edit.apply reached = .invalid problems) ↔
          ¬((edit.edited reached.segments).map Segment.id).Nodup) ∧
        ∀ next, edit.apply reached = .valid next →
          next.segments.map unplaced = (edit.edited reached.segments).map unplaced := by
  refine ⟨_, ofSegments_eq id name distinct, ?_⟩
  intro reached isReached
  have built := (isBuilt_place id name distinct).editsTo isReached
  have placed : placeFrom 0 0 reached.segments = reached.segments := built.laidOut
  refine ⟨built.endToEnd, ?_, ?_, ?_⟩
  · intro pixel fromZero inside
    rw [total_eq_lights] at inside
    have found := exists_find?_placeFrom 0 0 reached.segments fromZero (by simpa using inside)
    rwa [placed] at found
  · intro pixel outside
    rw [total_eq_lights] at outside
    have missed := find?_placeFrom_eq_none 0 0 reached.segments (by simpa using outside)
    rwa [placed] at missed
  · intro edit
    refine ⟨?_, fun next applied => (built.edited applied).2⟩
    rw [edit.apply_eq built.laidOut built.distinct]
    split
    · rename_i accepted
      simp [accepted]
    · rename_i refused
      simp [refused, repeats, Checked.fail, Checked.under]

/-- A peak and an eave that share a number, and an empty gap with a negative one. -/
def peakGapEave : List Segment :=
  [{ id := "peak", name := "Peak", pixelCount := 3, sortOrder := 2 },
    { id := "gap", name := "Gap", pixelCount := 0, sortOrder := -1 },
    { id := "eave", name := "Eave", pixelCount := 4, sortOrder := 2 }]

/-- The gap is placed first.  With the peak moved to the end, light four is the first of the
peak; a second peak is refused. -/
theorem edits_keep_end_to_end_peakGapEave :
    (peakGapEave.map Segment.id).Nodup ∧
      ∃ start reached, ofSegments "house" "House" peakGapEave = .valid start ∧
        start.segments.map Segment.id = ["gap", "peak", "eave"] ∧
        (Edit.reorder 1 2).apply start = .valid reached ∧
        EndToEnd reached.segments ∧
        (∃ segment, reached.segmentAt? 4 = some segment ∧ segment.id = "peak") ∧
        reached.segmentAt? 7 = none ∧
        ∃ problems, (Edit.update "eave" { id := "peak", name := "", pixelCount := 1 }).apply
          reached = .invalid problems := by
  have distinct : (peakGapEave.map Segment.id).Nodup := by decide
  have placed : ofSegments "house" "House" peakGapEave = .valid ⟨"house", "House", [
      { id := "gap", name := "Gap", pixelCount := 0 },
      { id := "peak", name := "Peak", pixelCount := 3, sortOrder := 1 },
      { id := "eave", name := "Eave", pixelCount := 4, startPixel := 3, sortOrder := 2 }]⟩ := by
    rw [ofSegments_eq "house" "House" distinct, place_eq_insertionSort]
    decide +kernel
  obtain ⟨start, isStart, laws⟩ := edits_keep_end_to_end "house" "House" distinct
  obtain rfl := Checked.valid.inj (placed.symm.trans isStart)
  have moved : (Edit.reorder 1 2).apply _ = .valid ⟨"house", "House", [
      { id := "gap", name := "Gap", pixelCount := 0 },
      { id := "eave", name := "Eave", pixelCount := 4, sortOrder := 1 },
      { id := "peak", name := "Peak", pixelCount := 3, startPixel := 4, sortOrder := 2 }]⟩ :=
    (Edit.apply_eq (ofSegments_laidOut placed) (by decide) (.reorder 1 2)).trans (by decide +kernel)
  rcases laws _ (.edit .start (.reorder 1 2) moved) with ⟨endToEnd, inside, outside, edits⟩
  refine ⟨distinct, _, _, placed, rfl, moved, endToEnd, ?_, ?_, ?_⟩
  · obtain ⟨segment, found, -⟩ := inside 4 (by decide) (by decide)
    refine ⟨segment, found, ?_⟩
    cases found
    rfl
  · exact outside 7 (by decide)
  · exact (edits (.update "eave" { id := "peak", name := "", pixelCount := 1 })).1.mpr (by decide)

end Eaves.Roofline
