import Eaves.Proofs.Question.Offers
import Eaves.Proofs.Design.Conflicts

/-!
# What questions recommend

A flag marks one of its choices as recommended, or else its first choice is.  On the
way to a question options are added, one is moved behind the others, and what is more
than four is cut.  For this only the ids of choices and options count, and which of them
are marked, so both are followed here as lists of such marks.

Every kind of flag that a prompt or a check leaves has marks of a known form, and for
each form the recommended option is that of the recommended choice.
-/

namespace Eaves

open Outcome

/-- The id of a choice, and whether it is recommended. -/
def Choice.mark (choice : Choice) : String × Bool :=
  (choice.id, choice.recommended)

/-- The id of an option, and whether it is recommended. -/
def Offer.mark (offer : Offer) : String × Bool :=
  (offer.id, offer.recommended)

/-- The marks of a flag's choices. -/
def Ambiguity.marks (flag : Ambiguity) : List (String × Bool) :=
  flag.choices.map Choice.mark

namespace Mark

/-- The first id that is recommended, else the first one. -/
def recommended? (marks : List (String × Bool)) : Option String :=
  ((marks.find? Prod.snd).or marks.head?).map Prod.fst

/-- No id is there twice, and the first one, if there is any, is recommended. -/
structure Leads (marks : List (String × Bool)) : Prop where
  apart : (marks.map Prod.fst).Nodup
  first : ∀ mark ∈ marks.head?, mark.2 = true

/-- Marks with one that is always there behind at most three others: the first one with its id or
an alias, else itself. -/
def withLast (marks : List (String × Bool)) (last : String × Bool) (aliases : List String) :
    List (String × Bool) :=
  let isLast (mark : String × Bool) : Bool := mark.1 == last.1 || aliases.contains mark.1
  let others := marks.filter fun mark => !isLast mark
  others.take (maxOptions - 1) ++ [(marks.find? isLast).getD last]

end Mark

theorem Ambiguity.recommended?_map_id (flag : Ambiguity) :
    flag.recommended?.map Choice.id = Mark.recommended? flag.marks := by
  unfold Ambiguity.recommended? Mark.recommended? Ambiguity.marks
  rw [List.find?_map, List.head?_map, ← Option.map_or, Option.map_map]
  rfl

theorem Question.recommended?_map_id (question : Question) :
    question.recommended?.map Offer.id = Mark.recommended? (question.offers.map Offer.mark) := by
  unfold Question.recommended? Mark.recommended?
  rw [List.find?_map, List.head?_map, ← Option.map_or, Option.map_map]
  rfl

/-- What is recommended is offered. -/
theorem Question.mem_offers_of_recommended? {question : Question} {offer : Offer}
    (recommends : question.recommended? = some offer) : offer ∈ question.offers := by
  rcases Option.or_eq_some_iff.mp recommends with marked | ⟨-, isFirst⟩
  · exact List.mem_of_find?_eq_some marked
  · exact List.mem_of_head? isFirst

/-! ## Marks of options -/

theorem Offer.map_mark_withLast (offers : List Offer) (last : Offer) (aliases : List String) :
    (withLast offers last aliases).map Offer.mark =
      Mark.withLast (offers.map Offer.mark) last.mark aliases := by
  unfold withLast Mark.withLast
  simp only [List.map_append, List.map_take, List.map_cons, List.map_nil, List.filter_map,
    List.find?_map, Option.getD_map]
  rfl

theorem Offer.map_mark_ofChoice (icon : Choice → String) (flag : Ambiguity) :
    (flag.choices.map fun choice => Offer.ofChoice (icon choice) choice).map Offer.mark =
      flag.marks := by
  rw [List.map_map]
  rfl

theorem mark_colorOffer (pixelCount brightness : Int) (choice : Choice) :
    (colorOffer pixelCount brightness choice).mark = choice.mark := by
  unfold colorOffer
  dsimp only
  split <;> rfl

/-- An option that stands for a choice has its mark. -/
theorem Offer.StandsFor.mark_eq {offer : Offer} {choice : Choice}
    (stands : offer.StandsFor choice) : offer.mark = choice.mark :=
  Prod.ext stands.id_eq stands.recommended_eq

theorem map_mark_countedOffer (id name description icon : String) (feature : Feature)
    (count : Nat) : (countedOffer id name description icon feature count).map Offer.mark =
      if 0 < count then [(id, false)] else [] := by
  unfold countedOffer
  rcases Nat.eq_zero_or_pos count with rfl | some
  · rfl
  · rw [if_neg (Nat.ne_of_gt some), if_pos some]
    rfl

/-- The options for the shapes of segments, as far as a roofline has segments of the shapes. -/
theorem exists_map_mark_segmentOffers (roofline : Roofline) : ∃ peaks corners runs : Bool,
    (segmentOffers roofline).map Offer.mark =
      (if peaks then [("peaks", false)] else []) ++
        (if corners then [("corners", false)] else []) ++
        (if peaks && corners then [("peaks_and_corners", true)] else []) ++
        (if runs then [("runs", false)] else []) := by
  refine ⟨decide (0 < (roofline.ofShapes [.peak]).length),
    decide (0 < (roofline.ofShapes [.corner]).length),
    decide (0 < (roofline.ofShapes [.run]).length), ?_⟩
  unfold segmentOffers
  simp only [List.map_append, map_mark_countedOffer, Bool.and_eq_true, decide_eq_true_iff]
  congr 2
  split <;> rfl

namespace Mark

/-- At most four marks, no id twice, and an id that is recommended. -/
structure Recommend (marks : List (String × Bool)) (id : String) : Prop where
  few : marks.length ≤ maxOptions
  apart : (marks.map Prod.fst).Nodup
  recommended : recommended? marks = some id

theorem Leads.recommended?_eq {marks : List (String × Bool)} (leads : Leads marks) :
    recommended? marks = marks.head?.map Prod.fst := by
  cases marks with
  | nil => rfl
  | cons first rest =>
      have marked : first.2 = true := leads.first first rfl
      rw [recommended?, List.find?_cons_of_pos marked]
      rfl

/-- Cutting marks keeps the first one, which is recommended. -/
theorem Leads.take {marks : List (String × Bool)} (leads : Leads marks) (some : marks ≠ [])
    (fallback : String) :
    Recommend (marks.take maxOptions) ((recommended? marks).getD fallback) := by
  obtain ⟨first, rest, rfl⟩ := List.exists_cons_of_ne_nil some
  have cut : Leads ((first :: rest).take maxOptions) :=
    ⟨((List.take_sublist _ _).map _).nodup leads.apart, leads.first⟩
  refine ⟨List.length_take_le _ _, cut.apart, ?_⟩
  rw [cut.recommended?_eq, leads.recommended?_eq]
  rfl

/-- A mark that is always there is added behind the others, which keep theirs. -/
theorem Leads.withLast {marks : List (String × Bool)} (leads : Leads marks) {last : String}
    (noLast : last ∉ marks.map Prod.fst) :
    Recommend (withLast marks (last, false) []) ((recommended? marks).getD last) := by
  have others : ∀ mark ∈ marks, (mark.1 == last) = false := by
    intro mark mem
    rw [beq_eq_false_iff_ne]
    exact fun same => noLast (same ▸ List.mem_map_of_mem mem)
  have kept : marks.filter (fun mark => !(mark.1 == last || [].contains mark.1)) = marks := by
    rw [List.filter_eq_self]
    intro mark mem
    simp [others mark mem]
  have notFound : marks.find? (fun mark => mark.1 == last || [].contains mark.1) = none := by
    rw [List.find?_eq_none]
    intro mark mem
    simp [others mark mem]
  have shape : Mark.withLast marks (last, false) [] =
      marks.take (maxOptions - 1) ++ [(last, false)] := by
    change (marks.filter fun mark => !(mark.1 == last || [].contains mark.1)).take _ ++
      [(marks.find? fun mark => mark.1 == last || [].contains mark.1).getD _] = _
    rw [kept, notFound, Option.getD_none]
  rw [shape]
  have cut := List.take_sublist (maxOptions - 1) marks
  constructor
  · rw [List.length_append, List.length_singleton]
    have := List.length_take_le (maxOptions - 1) marks
    unfold maxOptions at *
    omega
  · rw [List.map_append, List.map_singleton, List.nodup_append]
    refine ⟨(cut.map _).nodup leads.apart, List.nodup_singleton _, ?_⟩
    intro id mem other otherMem same
    rw [List.mem_singleton] at otherMem
    subst same otherMem
    exact noLast ((cut.map _).subset mem)
  · cases marks with
    | nil => rfl
    | cons first rest =>
        have marked : first.2 = true := leads.first first rfl
        rw [leads.recommended?_eq]
        unfold recommended?
        rw [maxOptions, List.take_succ_cons, List.cons_append, List.find?_cons_of_pos marked]
        rfl

end Mark

/-! ## Marks of flags -/

/-- The ways in which a flag marks its choices, by its kind. -/
inductive Ambiguity.IsPosed (flag : Ambiguity) : Prop
  | zone (isZone : flag.kind = .zone)
      (marks : flag.marks = [("all", true), ("front_only", false), ("select", false)])
  | color (isColor : flag.kind = .color) (some : flag.choices ≠ []) (leads : Mark.Leads flag.marks)
  | spacing (isSpacing : flag.kind = .spacingImpossible) (leads : Mark.Leads flag.marks)
      (notByHand : setManually.id ∉ flag.marks.map Prod.fst)
  | direction (isDirection : flag.kind = .direction) (some : flag.choices ≠ [])
      (leads : Mark.Leads flag.marks)
  | effect (isEffect : flag.kind = .effect) (several : 2 ≤ flag.choices.length)
      (leads : Mark.Leads flag.marks)
  | conflict (isConflict : flag.kind = .conflict) (i j : Nat) (before : i < j)
      (marks : flag.marks = [(winnerId i, false), (winnerId j, true), ("blend", false)])

/-- The options for shapes of segments are marked only where nothing was before. -/
theorem map_mark_withSegmentOffers (own : List Offer) (roofline : Roofline) :
    (withSegmentOffers own roofline).map Offer.mark = own.map Offer.mark ++
      (((segmentOffers roofline).map Offer.mark).filter fun mark =>
        !(own.map Offer.mark).any fun there => there.1 == mark.1).map fun mark =>
          (mark.1, mark.2 && !(own.map Offer.mark).any Prod.snd) := by
  unfold withSegmentOffers Offer.anyWithId
  simp only [List.map_append, List.filter_map, List.map_map, List.any_map]
  rfl

/-- With the options for shapes of segments added, everything of the feature stays the last option
and the recommended one. -/
theorem recommend_zoneOffers {subject : Subject} {flag : Ambiguity}
    (marks : flag.marks = [("all", true), ("front_only", false), ("select", false)]) :
    Mark.Recommend ((zoneOffers subject flag).map Offer.mark) "all" := by
  unfold zoneOffers
  rw [Offer.map_mark_withLast]
  cases subject.roofline with
  | none =>
      dsimp only
      rw [Offer.map_mark_ofChoice, marks]
      exact ⟨by decide, by decide, by decide⟩
  | some roofline =>
      obtain ⟨peaks, corners, runs, segments⟩ := exists_map_mark_segmentOffers roofline
      dsimp only
      rw [map_mark_withSegmentOffers, Offer.map_mark_ofChoice, marks, segments]
      cases peaks <;> cases corners <;> cases runs <;>
        exact ⟨by decide, by decide, by decide⟩

/-- Of two layers in conflict, the one that is recommended to win stays recommended. -/
theorem recommend_conflictOffers {flag : Ambiguity} {i j : Nat} (before : i < j)
    (marks : flag.marks = [(winnerId i, false), (winnerId j, true), ("blend", false)]) :
    Mark.Recommend ((conflictOffers flag).map Offer.mark) (winnerId j) := by
  have shape : (conflictOffers flag).map Offer.mark = flag.marks := by
    rw [conflictOffers, Offer.map_mark_withLast, Offer.map_mark_ofChoice, marks]
    simp [Mark.withLast, Offer.mark, blendBoth, maxOptions, winnerId_ne_merge, winnerId_ne_blend]
  rw [shape, marks]
  refine ⟨Nat.le_succ 3, ?_, rfl⟩
  have winners : winnerId i ≠ winnerId j := fun same =>
    absurd (winnerId_inj.mp same) (Nat.ne_of_lt before)
  simp [winners, winnerId_ne_blend]

/-- What a question about a posed flag offers: the option that is recommended is that of the
recommended choice. -/
theorem recommend_of_askOne {subject : Subject} {position : Nat} {flag : Ambiguity}
    {question : Question} (posed : flag.IsPosed)
    (asked : askOne subject position flag = .ok question) :
    Mark.Recommend (question.offers.map Offer.mark)
      ((flag.recommended?.map Choice.id).getD setManually.id) := by
  rcases askOne_eq_ok_iff.mp asked with ⟨wording, offers, n, worded, -, rfl⟩
  dsimp only
  rw [flag.recommended?_map_id, List.map_take]
  -- nothing is left to be cut where the last option was added
  have uncut : ∀ {id : String}, Mark.Recommend (offers.map Offer.mark) id →
      Mark.Recommend ((offers.map Offer.mark).take maxOptions) id := by
    intro id recommend
    rw [List.take_of_length_le recommend.few]
    exact recommend
  unfold wordingAndOffers at worded
  cases posed with
  | zone isZone marks =>
      simp only [isZone] at worded
      cases worded
      rw [marks]
      exact uncut (recommend_zoneOffers marks)
  | color isColor some leads =>
      simp only [isColor] at worded
      rcases map_eq_ok_iff.mp worded with ⟨own, isOwn, shape⟩
      cases shape
      rcases bind_eq_ok_iff.mp isOwn with ⟨lights, -, rest⟩
      rw [pure_eq_ok_iff] at rest
      subst rest
      have sameMarks : (flag.choices.map (colorOffer lights subject.brightness)).map Offer.mark =
          flag.marks := by
        rw [List.map_map]
        exact List.map_congr_left fun choice _ => mark_colorOffer _ _ choice
      rw [sameMarks]
      exact leads.take (by simpa [Ambiguity.marks] using some) _
  | spacing isSpacing leads notByHand =>
      simp only [isSpacing] at worded
      rcases map_eq_ok_iff.mp worded with ⟨offered, isOffered, shape⟩
      cases shape
      rcases bind_eq_ok_iff.mp isOffered with ⟨lights, -, rest⟩
      rcases bind_eq_ok_iff.mp rest with ⟨own, isOwn, last⟩
      rw [pure_eq_ok_iff] at last
      subst last
      have sameMarks : own.map Offer.mark = flag.marks := by
        have related := mapM_eq_ok_iff.mp isOwn
        rw [Ambiguity.marks, ← List.forall₂_eq_eq_eq, List.forall₂_map_left_iff,
          List.forall₂_map_right_iff]
        exact related.flip.imp fun _ _ shown => (standsFor_of_spacingOffer shown).mark_eq
      apply uncut
      rw [Offer.map_mark_withLast, sameMarks]
      exact leads.withLast notByHand
  | direction isDirection some leads =>
      simp only [isDirection] at worded
      cases worded
      have own : directionOffers flag =
          flag.choices.map fun choice => Offer.ofChoice (Icon.forDirection choice.id) choice := by
        rw [directionOffers, if_neg (by simpa using some)]
      rw [own, Offer.map_mark_ofChoice]
      exact leads.take (by simpa [Ambiguity.marks] using some) _
  | effect isEffect several leads =>
      simp only [isEffect] at worded
      cases worded
      have own : effectOffers flag =
          flag.choices.map fun choice => Offer.ofChoice (Icon.forEffect choice.id) choice := by
        unfold effectOffers
        dsimp only
        rw [if_neg (by rw [List.length_map]; omega)]
      rw [own, Offer.map_mark_ofChoice]
      refine leads.take ?_ _
      intro noMarks
      rw [Ambiguity.marks, List.map_eq_nil_iff] at noMarks
      rw [noMarks] at several
      exact absurd several (by decide)
  | conflict isConflict i j before marks =>
      simp only [isConflict] at worded
      cases worded
      rw [marks]
      exact uncut (recommend_conflictOffers before marks)

end Eaves
