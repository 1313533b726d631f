import Eaves.Proofs.Roofline.Edits
import Mathlib.Data.List.InsertIdx

/-!
# Edits that are taken back

Moving a segment is taken back by moving it the other way, adding one by removing it, and
replacing one by putting the first in its place again.  What an edit asks for does not depend
on where the segments start or how they are numbered, and laying out computes both afresh.
So it is enough that the lists of segments come back: then the whole roofline does.
-/

namespace Eaves.Roofline

/-! ## Placing again -/

@[simp]
theorem id_unplaced (segment : Segment) : (unplaced segment).id = segment.id :=
  rfl

@[simp]
theorem unplaced_unplaced (segment : Segment) : unplaced (unplaced segment) = unplaced segment :=
  rfl

theorem placeFrom_map_unplaced (position start : Nat) (segments : List Segment) :
    placeFrom position start (segments.map unplaced) = placeFrom position start segments := by
  induction segments generalizing position start with
  | nil => rfl
  | cons segment rest ih =>
      rw [List.map_cons, placeFrom_cons, placeFrom_cons]
      exact congrArg (placedAt position start segment :: ·) (ih _ _)

/-- Segments that agree before they are placed are placed alike. -/
theorem placeFrom_congr {segments others : List Segment}
    (same : segments.map unplaced = others.map unplaced) (position start : Nat) :
    placeFrom position start segments = placeFrom position start others := by
  rw [← placeFrom_map_unplaced, same, placeFrom_map_unplaced]

/-! ## One member moved -/

section Moving

variable {segments : List Segment} {source target : Nat}

theorem moveMember_of_lt (isThere : source < segments.length) :
    moveMember segments source target =
      (segments.eraseIdx source).insertIdx target segments[source] := by
  rw [moveMember, List.getElem?_eq_getElem isThere]

theorem map_moveMember (change : Segment → Segment) :
    (moveMember segments source target).map change =
      moveMember (segments.map change) source target := by
  unfold moveMember
  rw [List.getElem?_map]
  cases segments[source]? with
  | none => rfl
  | some segment => rw [Option.map_some, List.eraseIdx_map, List.map_insertIdx]

theorem moveMember_perm (isThere : source < segments.length)
    (isPlace : target < segments.length) :
    (moveMember segments source target).Perm segments := by
  have shorter := List.length_eraseIdx_of_lt isThere
  rw [moveMember_of_lt isThere]
  exact (List.perm_insertIdx _ _ (by omega)).trans (List.getElem_cons_eraseIdx_perm isThere)

/-- A member that is moved is found at its new position. -/
theorem getElem?_moveMember (isThere : source < segments.length)
    (isPlace : target < segments.length) :
    (moveMember segments source target)[target]? = segments[source]? := by
  have shorter := List.length_eraseIdx_of_lt isThere
  rw [moveMember_of_lt isThere, List.getElem?_insertIdx_self, if_pos (by omega),
    List.getElem?_eq_getElem isThere]

/-- Without the member that is moved, the list is what it was without it. -/
theorem eraseIdx_moveMember (isThere : source < segments.length) :
    (moveMember segments source target).eraseIdx target = segments.eraseIdx source := by
  rw [moveMember_of_lt isThere, List.eraseIdx_insertIdx_self]

/-- A member that is moved and moved the other way is where it was. -/
theorem moveMember_moveMember (isThere : source < segments.length)
    (isPlace : target < segments.length) :
    moveMember (moveMember segments source target) target source = segments := by
  have isFound := getElem?_moveMember isThere isPlace
  rw [List.getElem?_eq_getElem isThere] at isFound
  rw [moveMember, isFound]
  dsimp only
  rw [eraseIdx_moveMember isThere, List.insertIdx_eraseIdx_getElem isThere]

end Moving

/-! ## One edit taken back by another -/

/-- What an edit asks for does not depend on how the segments are placed. -/
theorem Edit.map_unplaced_edited (edit : Edit) (segments : List Segment) :
    (edit.edited (segments.map unplaced)).map unplaced = (edit.edited segments).map unplaced := by
  cases edit with
  | add segment => simp [edited]
  | update id segment =>
      simp only [edited, List.map_map]
      refine List.map_congr_left fun present _ => ?_
      simp only [Function.comp_apply]
      by_cases here : present.id = id
      · have hereToo : (unplaced present).id = id := here
        rw [if_pos hereToo, if_pos here]
      · have apartToo : (unplaced present).id ≠ id := here
        rw [if_neg apartToo, if_neg here, unplaced_unplaced]
  | remove id =>
      simp only [edited, List.filter_map, List.map_map]
      rfl
  | reorder source target =>
      simp only [edited, List.length_map]
      split
      · rw [← map_moveMember, List.map_map]
        rfl
      · rw [List.map_map]
        rfl

/-- An edit of segments that another one takes back. -/
inductive TakesBack (segments : List Segment) : (edit back : Edit) → Prop
  | reorder (source target : Int) :
      TakesBack segments (.reorder source target) (.reorder target source)
  | add {segment : Segment} (isNew : segment.id ∉ segments.map Segment.id) :
      TakesBack segments (.add segment) (.remove segment.id)
  | update {original segment : Segment} (mem : original ∈ segments)
      (isFree : ∀ other ∈ segments, other.id = segment.id → other = original) :
      TakesBack segments (.update original.id segment) (.update segment.id original)

namespace TakesBack

variable {segments : List Segment} {edit back : Edit}

/-- The segments come back. -/
theorem edited_edited (takesBack : TakesBack segments edit back)
    (distinct : (segments.map Segment.id).Nodup) :
    back.edited (edit.edited segments) = segments := by
  cases takesBack with
  | reorder source target =>
      by_cases moves : 0 ≤ source ∧ source < segments.length ∧ 0 ≤ target ∧
          target < segments.length ∧ source ≠ target
      · have isThere : source.toNat < segments.length := by omega
        have isPlace : target.toNat < segments.length := by omega
        simp only [Edit.edited, if_pos moves]
        rw [(moveMember_perm isThere isPlace).length_eq, if_pos (by omega),
          moveMember_moveMember isThere isPlace]
      · simp only [Edit.edited, if_neg moves]
        rw [if_neg (by omega)]
  | @add segment isNew =>
      have stay : ∀ present ∈ segments, present.id ≠ segment.id := fun present mem same =>
        isNew (same ▸ List.mem_map_of_mem mem)
      simpa [Edit.edited] using stay
  | @update original segment mem isFree =>
      simp only [Edit.edited, List.map_map]
      refine (List.map_congr_left fun present presentMem => ?_).trans (List.map_id segments)
      rw [Function.comp_apply]
      by_cases isOriginal : present.id = original.id
      · rw [if_pos isOriginal, if_pos rfl]
        exact (List.inj_on_of_nodup_map distinct presentMem mem isOriginal).symm
      · have isOther : present.id ≠ segment.id := fun same =>
          isOriginal (congrArg Segment.id (isFree present presentMem same))
        rw [if_neg isOriginal, if_neg isOther]
        rfl

/-- The segments that the edit asks for have ids of their own. -/
theorem nodup_edited (takesBack : TakesBack segments edit back)
    (distinct : (segments.map Segment.id).Nodup) :
    ((edit.edited segments).map Segment.id).Nodup := by
  cases takesBack with
  | reorder source target =>
      simp only [Edit.edited]
      split
      · exact ((moveMember_perm (by omega) (by omega)).map Segment.id).nodup_iff.mpr distinct
      · exact distinct
  | @add segment isNew =>
      simp only [Edit.edited, List.map_append, List.map_cons, List.map_nil]
      rw [← List.concat_eq_append]
      exact distinct.concat isNew
  | @update original segment mem isFree =>
      simp only [Edit.edited, List.map_map]
      refine (List.Nodup.of_map _ distinct).map_on fun first firstMem second secondMem same => ?_
      simp only [Function.comp_apply] at same
      split at same
      · rename_i isOriginal
        split at same
        · rename_i isOriginalToo
          exact List.inj_on_of_nodup_map distinct firstMem secondMem
            (isOriginal.trans isOriginalToo.symm)
        · rename_i isOther
          have found := isFree second secondMem same.symm
          exact absurd (congrArg Segment.id found) isOther
      · rename_i isOther
        split at same
        · have found := isFree first firstMem same
          exact absurd (congrArg Segment.id found) isOther
        · exact List.inj_on_of_nodup_map distinct firstMem secondMem same

/-- An edit that another one takes back is accepted, and so is the other one, which gives back the
roofline. -/
theorem apply_apply {roofline : Roofline} (takesBack : TakesBack roofline.segments edit back)
    (built : roofline.IsBuilt) :
    ∃ next, edit.apply roofline = .valid next ∧
      next.segments.map unplaced = (edit.edited roofline.segments).map unplaced ∧
      back.apply next = .valid roofline := by
  have distinct := takesBack.nodup_edited built.distinct
  have applied := edit.apply_eq built.laidOut built.distinct
  rw [if_pos distinct] at applied
  rcases built.edited applied with ⟨nextBuilt, asked⟩
  refine ⟨_, applied, asked, ?_⟩
  have comesBack : (back.edited (placeFrom 0 0 (edit.edited roofline.segments))).map unplaced =
      roofline.segments.map unplaced := by
    rw [← back.map_unplaced_edited, map_unplaced_placeFrom, back.map_unplaced_edited,
      takesBack.edited_edited built.distinct]
  have isPlaced : placeFrom 0 0 (back.edited (placeFrom 0 0 (edit.edited roofline.segments))) =
      roofline.segments :=
    (placeFrom_congr comesBack 0 0).trans built.laidOut
  have distinctBack : ((back.edited (placeFrom 0 0 (edit.edited roofline.segments))).map
      Segment.id).Nodup := by
    rw [← map_id_placeFrom 0 0, isPlaced]
    exact built.distinct
  rw [back.apply_eq nextBuilt.laidOut nextBuilt.distinct, if_pos distinctBack, isPlaced]

end TakesBack

/-! ## Rooflines that come back -/

/-- A roofline that was built from segments is laid out, from segments with ids of their own. -/
theorem isBuilt_of_ofSegments {id name : String} {segments : List Segment} {roofline : Roofline}
    (built : ofSegments id name segments = .valid roofline) : roofline.IsBuilt := by
  have distinct : (segments.map Segment.id).Nodup := by
    unfold ofSegments layOut at built
    split at built
    · rename_i distinct
      exact of_decide_eq_true distinct
    · cases built
  rw [ofSegments_eq id name distinct] at built
  cases built
  exact isBuilt_place id name distinct

/-- A segment stands at a new position, and the others follow each other as they did. -/
structure IsMoved (segments moved : List Segment) (source target : Nat) : Prop where
  there : moved[target]?.map unplaced = segments[source]?.map unplaced
  others : (moved.eraseIdx target).map unplaced = (segments.eraseIdx source).map unplaced

theorem isMoved_reorder {roofline moved : Roofline} {source target : Nat}
    (isThere : source < roofline.segments.length) (isPlace : target < roofline.segments.length)
    (asked : moved.segments.map unplaced =
      ((Edit.reorder source target).edited roofline.segments).map unplaced) :
    IsMoved roofline.segments moved.segments source target := by
  have movedTo : (Edit.reorder source target).edited roofline.segments =
      moveMember roofline.segments source target := by
    simp only [Edit.edited, Int.toNat_natCast]
    split
    · rfl
    · have same : source = target := by omega
      subst same
      rw [moveMember_of_lt isThere, List.insertIdx_eraseIdx_getElem isThere]
  rw [movedTo] at asked
  constructor
  · rw [← List.getElem?_map, asked, List.getElem?_map, getElem?_moveMember isThere isPlace]
  · rw [← List.eraseIdx_map, asked, List.eraseIdx_map, eraseIdx_moveMember isThere]

/-- On every roofline that is built from segments, each edit is taken back by another one, which
gives back the roofline with all its starts and numbers: moving a segment by moving it the other
way, whatever the positions; adding a segment with a new id by removing it; and replacing a segment
by one whose id no other one has by replacing that one.  A move puts the segment at its new position
and leaves the order of the others; positions outside the roofline move nothing. -/
theorem edits_are_taken_back {id name : String} {segments : List Segment} {roofline : Roofline}
    (built : ofSegments id name segments = .valid roofline) :
    (∀ source target : Int, ∃ moved, roofline.reorder source target = .valid moved ∧
      moved.reorder target source = .valid roofline ∧
      (¬(0 ≤ source ∧ source < roofline.segments.length ∧ 0 ≤ target ∧
        target < roofline.segments.length) → moved = roofline)) ∧
    (∀ source target : Nat, source < roofline.segments.length →
      target < roofline.segments.length → ∃ moved,
        roofline.reorder source target = .valid moved ∧
          IsMoved roofline.segments moved.segments source target) ∧
    (∀ segment : Segment, segment.id ∉ roofline.segments.map Segment.id → ∃ added,
      roofline.add segment = .valid added ∧
        added.segments.map unplaced = (roofline.segments ++ [segment]).map unplaced ∧
        added.remove segment.id = .valid roofline) ∧
    ∀ original ∈ roofline.segments, ∀ segment : Segment,
      (∀ other ∈ roofline.segments, other.id = segment.id → other = original) → ∃ changed,
        roofline.update original.id segment = .valid changed ∧
          changed.segments.map unplaced = (roofline.segments.map fun present =>
            if present.id = original.id then segment else present).map unplaced ∧
          changed.update segment.id original = .valid roofline := by
  have isBuilt := isBuilt_of_ofSegments built
  refine ⟨fun source target => ?_, fun source target isThere isPlace => ?_,
    fun segment isNew => ?_, fun original mem segment isFree => ?_⟩
  · rcases (TakesBack.reorder source target).apply_apply isBuilt with ⟨moved, applied, -, back⟩
    refine ⟨moved, applied, back, fun outside => ?_⟩
    replace applied : roofline.reorder source target = .valid moved := applied
    rw [Roofline.reorder, if_neg (by omega)] at applied
    cases applied
    rfl
  · rcases (TakesBack.reorder source target).apply_apply isBuilt with ⟨moved, applied, asked, -⟩
    exact ⟨moved, applied, isMoved_reorder isThere isPlace asked⟩
  · exact (TakesBack.add isNew).apply_apply isBuilt
  · exact (TakesBack.update mem isFree).apply_apply isBuilt

/-- A porch with a start of its own, in front of a gable that comes first by its number. -/
def porchGable : List Segment :=
  [{ id := "porch", name := "Porch", pixelCount := 4, startPixel := 9, sortOrder := 7 },
    { id := "gable", name := "Gable", pixelCount := 3, sortOrder := -2 }]

/-- The gable once it is placed. -/
def placedGable : Segment :=
  { id := "gable", name := "Gable", pixelCount := 3 }

/-- A dormer, to be added or to stand for the gable. -/
def dormer : Segment :=
  { id := "dormer", name := "Dormer", pixelCount := 5, startPixel := 2, sortOrder := 1 }

/-- The gable is moved behind the porch and back, a dormer is added and removed, and takes the place
of the gable and gives it back. -/
theorem edits_are_taken_back_porchGable :
    ∃ house, ofSegments "house" "House" porchGable = .valid house ∧
      (∃ moved, house.reorder 0 1 = .valid moved ∧ moved.reorder 1 0 = .valid house) ∧
      (∃ moved, house.reorder 0 1 = .valid moved ∧
        IsMoved house.segments moved.segments 0 1) ∧
      (∃ added, house.add dormer = .valid added ∧ added.remove "dormer" = .valid house) ∧
      ∃ changed, house.update "gable" dormer = .valid changed ∧
        changed.update "dormer" placedGable = .valid house := by
  have placed : ofSegments "house" "House" porchGable = .valid ⟨"house", "House", [placedGable,
      { id := "porch", name := "Porch", pixelCount := 4, startPixel := 3, sortOrder := 1 }]⟩ := by
    rw [ofSegments_eq "house" "House" (by decide), place_eq_insertionSort]
    decide +kernel
  rcases edits_are_taken_back placed with ⟨moves, places, adds, updates⟩
  rcases moves 0 1 with ⟨moved, applied, back, -⟩
  rcases adds dormer (by decide) with ⟨added, isAdded, -, isRemoved⟩
  rcases updates placedGable (by decide) dormer (by decide) with ⟨changed, isChanged, -, isBack⟩
  exact ⟨_, placed, ⟨moved, applied, back⟩, places 0 1 (by decide) (by decide),
    ⟨added, isAdded, isRemoved⟩, changed, isChanged, isBack⟩

end Eaves.Roofline
