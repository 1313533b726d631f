import Eaves.Answer.Settle
import Eaves.Proofs.Outcome
import Eaves.Proofs.Question.Asking
import Eaves.Proofs.Text.Numeral
import Mathlib.Data.List.Forall2

/-!
# Which flags answers settle

The questions asked about a design stand for its flags, and each question settles
the flag it stands for: the position in its id is tried first, and at that position
there is an open flag of its layer and kind.  So the search for another flag of the
same layer and kind is never made, and the flags that stay are those whose own
question was given no option.

The id of a question ends in the position of its flag, behind an underscore.  Since
a numeral has no underscore, cutting the id at its last one gives the position back,
so that no two positions share an id, whatever the kinds of their flags.
-/

namespace Eaves

open Outcome

namespace Offer

/-- Cutting behind the last underscore gives what stands behind it. -/
theorem cutAtLast_snd {front back : List Char} (plain : '_' ∉ back) :
    (cutAtLast (front ++ '_' :: back)).2 = back := by
  have kept : ∀ c ∈ back.reverse, decide (c ≠ '_') = true := by
    intro c mem
    rw [decide_eq_true_iff]
    rintro rfl
    exact plain (List.mem_reverse.mp mem)
  have behind : ((front ++ '_' :: back).reverse.takeWhile fun c => decide (c ≠ '_')) =
      back.reverse := by
    rw [List.reverse_append, List.reverse_cons, List.append_assoc,
      List.takeWhile_append_of_pos kept]
    simp
  simp only [cutAtLast, behind, List.reverse_reverse]

/-- A text of Latin digits counts as one of digits. -/
theorem isAllDigits_toString (n : Nat) : isAllDigits (toString n).toList = true := by
  rw [isAllDigits, Bool.and_eq_true, Bool.not_eq_true', List.isEmpty_eq_false_iff, List.all_eq_true]
  constructor
  · exact Text.toString_ne_nil n
  · intro c mem
    exact Text.isDigitLike_of_isDigit (Text.isDigit_of_mem_toString mem)

end Offer

/-- The numeral at the end of a question's id. -/
theorem cutAtLast_questionId (kind : AmbiguityKind) (position : Nat) :
    (Offer.cutAtLast (questionId kind position).toList).2 = (toString position).toList := by
  rw [questionId, String.toList_append, String.toList_append, List.append_assoc]
  exact Offer.cutAtLast_snd (Text.underscore_notMem_toString position)

/-- Questions about different positions have different ids. -/
theorem questionId_injective {kind other : AmbiguityKind} {position elsewhere : Nat}
    (same : questionId kind position = questionId other elsewhere) : position = elsewhere := by
  have numerals := cutAtLast_questionId kind position
  rw [same, cutAtLast_questionId] at numerals
  exact (Text.toString_injective numerals).symm

/-- Kinds of flags that share an id at one position share it at all. -/
theorem questionId_congr {kind other : AmbiguityKind} {position : Nat}
    (same : questionId kind position = questionId other position) (elsewhere : Nat) :
    questionId kind elsewhere = questionId other elsewhere := by
  have cut : ∀ kind position, (questionId kind position).toList =
      (Vocabulary.word kind.question ++ "_").toList ++ (toString position).toList :=
    fun _ _ => String.toList_append
  have characters := congrArg String.toList same
  rw [cut, cut, List.append_cancel_right_eq, String.toList_inj] at characters
  rw [questionId, questionId, characters]

namespace Settle

/-- The position that a question's id is read to end in is the position it was numbered with. -/
theorem eq_of_position? {kind : AmbiguityKind} {position : Nat} {found : Option Nat}
    (read : position? (questionId kind position) = .ok found) : found = some position := by
  rw [position?, cutAtLast_questionId] at read
  rw [if_pos (Offer.isAllDigits_toString position)] at read
  rcases map_eq_ok_iff.mp read with ⟨number, numeral, rfl⟩
  rw [liftNumeral_eq_ok_iff] at numeral
  rw [Text.eq_of_decimalNumeral_toString numeral]

/-- The position in a question's id is read unless it has more digits than are read. -/
theorem position?_questionId (kind : AmbiguityKind) {position : Nat}
    (short : position < 10 ^ Text.digitLimit) :
    position? (questionId kind position) = .ok (some position) := by
  rw [position?, cutAtLast_questionId]
  rw [if_pos (Offer.isAllDigits_toString position), Text.decimalNumeral_toString short]
  rfl

end Settle

/-! ## Which flags answers settle -/

/-- Whether answers give a question an option: one of the user's own, or one that it offers. -/
def Answers.giveOption (answers : Answers) (question : Question) : Bool :=
  match answers.lookup question.id with
  | some (.own _) => true
  | some (.chosen id) => question.offers.any fun offer => offer.id == id
  | none => false

/-- Whether answers give an option to the question with an id. -/
def Answers.settle (answers : Answers) (questions : List Question) (id : String) : Bool :=
  questions.any fun question => question.id == id && answers.giveOption question

namespace Settle

variable {flags : List Ambiguity} {answers : Answers}

/-- A question gets an option exactly where answers give it one. -/
theorem isSome_chosen? (answers : Answers) (question : Question) :
    (chosen? answers question).isSome = answers.giveOption question := by
  rw [chosen?, Answers.giveOption]
  cases answers.lookup question.id with
  | none => rfl
  | some answer =>
      cases answer with
      | own offer => rfl
      | chosen id =>
          rw [Option.bind_some, offerFor?, Question.offer?, List.isSome_find?]

/-- What questions ask about settles flags. -/
theorem settlesFlags_question (kind : AmbiguityKind) : kind.question.settlesFlags = true := by
  cases kind <;> rfl

/-! ## One question -/

theorem isOpenFor_iff {settled : List Nat} {question : Question} {position : Nat} :
    isOpenFor flags settled question position = true ↔
      ∃ flag, flags[position]? = some flag ∧ position ∉ settled ∧
        flag.layerId = question.layerId ∧ flag.kind.question = question.kind := by
  unfold isOpenFor
  cases flags[position]? with
  | none => simp
  | some flag => simp [asksAbout]

/-- The flag that is found for a question is open, and one that it asks about. -/
theorem isOpenFor_of_flagFor? {settled : List Nat} {question : Question} {position : Nat}
    (matched : flagFor? flags settled question = .ok (some position)) :
    isOpenFor flags settled question position = true := by
  rcases bind_eq_ok_iff.mp matched with ⟨own, -, shape⟩
  rw [pure_eq_ok_iff] at shape
  rcases Option.or_eq_some_iff.mp shape with ownFound | ⟨-, searched⟩
  · exact (Option.filter_eq_some_iff.mp ownFound).2
  · exact List.find?_some searched

/-- Where some open flag is one that a question asks about, one is found. -/
theorem flagFor?_ne_none {settled : List Nat} {question : Question} {position : Nat}
    (isOpen : isOpenFor flags settled question position = true) :
    flagFor? flags settled question ≠ .ok none := by
  intro matched
  rcases bind_eq_ok_iff.mp matched with ⟨own, -, shape⟩
  rw [pure_eq_ok_iff, Option.or_eq_none_iff] at shape
  rcases isOpenFor_iff.mp isOpen with ⟨flag, placed, -, -, -⟩
  have inside : position ∈ List.range flags.length :=
    List.mem_range.mpr (List.getElem?_eq_some_iff.mp placed).1
  exact List.find?_eq_none.mp shape.2 position inside isOpen

/-- An answer to a question settles no flag, or an open one that the question asks about; it
settles one where there is one. -/
theorem settled_of_applyOne {progress next : Progress} {question : Question} {offer : Offer}
    (settles : question.kind.settlesFlags = true)
    (isChosen : chosen? answers question = some offer)
    (applied : applyOne flags answers progress question = .ok next) :
    (next.settled = progress.settled ∧
        ∀ position, isOpenFor flags progress.settled question position = false) ∨
      ∃ position, isOpenFor flags progress.settled question position = true ∧
        next.settled = position :: progress.settled := by
  rw [applyOne, isChosen] at applied
  dsimp only at applied
  rw [applyOffer, if_pos settles] at applied
  rcases bind_eq_ok_iff.mp applied with ⟨found, matched, rest⟩
  cases found with
  | none =>
      rw [pure_eq_ok_iff] at rest
      refine .inl ⟨congrArg Progress.settled rest.symm, ?_⟩
      intro position
      rw [Bool.eq_false_iff]
      intro isOpen
      exact flagFor?_ne_none isOpen matched
  | some position =>
      rcases bind_eq_ok_iff.mp rest with ⟨layers, -, shape⟩
      rw [pure_eq_ok_iff] at shape
      exact .inr ⟨position, isOpenFor_of_flagFor? matched, congrArg Progress.settled shape.symm⟩

/-- What is settled stays settled. -/
theorem settled_subset_applyOne {progress next : Progress} {question : Question}
    (applied : applyOne flags answers progress question = .ok next) :
    progress.settled ⊆ next.settled := by
  cases isChosen : chosen? answers question with
  | none =>
      rw [applyOne, isChosen] at applied
      rw [Except.ok.inj applied]
      exact List.Subset.refl _
  | some offer =>
      by_cases settles : question.kind.settlesFlags = true
      · rcases settled_of_applyOne settles isChosen applied with ⟨same, -⟩ | ⟨position, -, more⟩
        · rw [same]
          exact List.Subset.refl _
        · rw [more]
          exact List.subset_cons_self _ _
      · rw [applyOne, isChosen] at applied
        dsimp only at applied
        rw [applyOffer, if_neg settles] at applied
        split at applied
        · rw [← Except.ok.inj applied]
          exact List.Subset.refl _
        · rcases bind_eq_ok_iff.mp applied with ⟨layers, -, shape⟩
          rw [pure_eq_ok_iff] at shape
          rw [← shape]
          exact List.Subset.refl _

/-- A question that is about an open flag is matched with that flag. -/
theorem flagFor?_of_isAbout {settled : List Nat} {question : Question} {flag : Ambiguity}
    {position : Nat} {found : Option Nat} (about : question.IsAbout (flag, position))
    (placed : flags[position]? = some flag) (isOpen : position ∉ settled)
    (matched : flagFor? flags settled question = .ok found) : found = some position := by
  rcases bind_eq_ok_iff.mp matched with ⟨numbered, read, shape⟩
  rw [about.id_eq] at read
  have own := eq_of_position? read
  have fits : isOpenFor flags settled question position = true := by
    simp [isOpenFor, placed, asksAbout, about.layerId_eq, about.kind_eq, isOpen]
  rw [pure_eq_ok_iff, own, Option.filter_some, if_pos fits, Option.some_or] at shape
  exact shape.symm

/-- An answered question settles the flag it is about, and no other, and changes the layers for
that flag. -/
theorem change_of_applyOffer {progress next : Progress} {question : Question} {offer : Offer}
    {flag : Ambiguity} {position : Nat} (about : question.IsAbout (flag, position))
    (placed : flags[position]? = some flag) (isOpen : position ∉ progress.settled)
    (applied : applyOffer flags progress question offer = .ok next) :
    ∃ layers, change progress.layers question offer (some flag) = .ok layers ∧
      next = { progress with layers := layers, settled := position :: progress.settled } := by
  have settles : question.kind.settlesFlags = true := by
    rw [about.kind_eq]
    exact settlesFlags_question flag.kind
  rw [applyOffer, if_pos settles] at applied
  rcases bind_eq_ok_iff.mp applied with ⟨found, matched, rest⟩
  rw [flagFor?_of_isAbout about placed isOpen matched] at rest
  rcases bind_eq_ok_iff.mp rest with ⟨layers, changed, shape⟩
  rw [pure_eq_ok_iff] at shape
  exact ⟨layers, placed ▸ changed, shape.symm⟩

/-- A question settles the flag it is about where it gets an option, and else nothing. -/
theorem settled_applyOne {progress next : Progress} {question : Question} {flag : Ambiguity}
    {position : Nat} (about : question.IsAbout (flag, position))
    (placed : flags[position]? = some flag) (isOpen : position ∉ progress.settled)
    (applied : applyOne flags answers progress question = .ok next) :
    next.settled =
      if answers.giveOption question then position :: progress.settled else progress.settled := by
  rw [applyOne] at applied
  rw [← isSome_chosen?]
  cases given : chosen? answers question with
  | none =>
      rw [given] at applied
      rw [← Except.ok.inj applied]
      rfl
  | some offer =>
      rw [given] at applied
      rcases change_of_applyOffer about placed isOpen applied with ⟨layers, -, rfl⟩
      rfl

/-- A question about one flag leaves the flags at other positions open. -/
theorem stillOpen_of_applyOne {progress next : Progress} {question : Question}
    {flag : Ambiguity × Nat} (about : question.IsAbout flag)
    (placed : flags[flag.2]? = some flag.1) (isOpen : flag.2 ∉ progress.settled)
    (applied : applyOne flags answers progress question = .ok next)
    {others : List (Ambiguity × Nat)} (apart : flag.2 ∉ others.map Prod.snd)
    (othersOpen : ∀ other ∈ others, other.2 ∉ progress.settled) :
    ∀ other ∈ others, other.2 ∉ next.settled := by
  intro other mem inside
  rw [settled_applyOne about placed isOpen applied] at inside
  split at inside
  · rcases List.mem_cons.mp inside with here | earlier
    · exact apart (here ▸ List.mem_map_of_mem mem)
    · exact othersOpen other mem earlier
  · exact othersOpen other mem inside

/-! ## All questions -/

/-- Questions about flags that stand at different places and are open. -/
structure AboutOpen (flags : List Ambiguity) (settled : List Nat) (questions : List Question)
    (placed : List (Ambiguity × Nat)) : Prop where
  about : List.Forall₂ Question.IsAbout questions placed
  inPlace : ∀ flag ∈ placed, flags[flag.2]? = some flag.1
  apart : (placed.map Prod.snd).Nodup
  isOpen : ∀ flag ∈ placed, flag.2 ∉ settled

/-- After the first of questions about open flags, the others are still about open flags. -/
theorem AboutOpen.tail {progress next : Progress} {question : Question}
    {flag : Ambiguity × Nat} {questions : List Question} {placed : List (Ambiguity × Nat)}
    (aboutOpen : AboutOpen flags progress.settled (question :: questions) (flag :: placed))
    (applied : applyOne flags answers progress question = .ok next) :
    AboutOpen flags next.settled questions placed := by
  rcases aboutOpen with ⟨about, inPlace, apart, isOpen⟩
  rw [List.forall₂_cons] at about
  rw [List.map_cons, List.nodup_cons] at apart
  refine ⟨about.2, fun other mem => inPlace other (List.mem_cons_of_mem _ mem), apart.2, ?_⟩
  exact stillOpen_of_applyOne about.1 (inPlace flag List.mem_cons_self)
    (isOpen flag List.mem_cons_self) applied apart.1
    fun other mem => isOpen other (List.mem_cons_of_mem _ mem)

/-- Questions about different open flags settle, one after another, the flags of those among
them that get an option. -/
theorem mem_settled_iff {questions : List Question} {placed : List (Ambiguity × Nat)}
    {start done : Progress} (aboutOpen : AboutOpen flags start.settled questions placed)
    (ran : questions.foldlM (applyOne flags answers) start = .ok done) (position : Nat) :
    position ∈ done.settled ↔
      position ∈ start.settled ∨
        ∃ pair ∈ questions.zip placed, answers.giveOption pair.1 ∧ pair.2.2 = position := by
  have about := aboutOpen.about
  induction about generalizing start with
  | nil =>
      rw [List.foldlM_nil, pure_eq_ok_iff] at ran
      simp [ran]
  | @cons question flag questions placed first _ ih =>
      rw [List.foldlM_cons] at ran
      rcases bind_eq_ok_iff.mp ran with ⟨next, applied, restRan⟩
      apply (ih (aboutOpen.tail applied) restRan).trans
      rw [settled_applyOne first (aboutOpen.inPlace flag List.mem_cons_self)
        (aboutOpen.isOpen flag List.mem_cons_self) applied]
      by_cases given : answers.giveOption question = true
      · simp only [given, if_true, List.mem_cons, List.zip_cons_cons, exists_eq_or_imp, true_and]
        rw [or_assoc, or_left_comm, eq_comm (a := position)]
      · simp [given]

/-- The flags that stay are those at positions that were not settled, as they were placed. -/
theorem remaining_eq_filter {settled : List Nat} {gone : Ambiguity × Nat → Bool}
    (settledIff : ∀ flag ∈ flags.zipIdx, flag.2 ∈ settled ↔ gone flag) :
    remaining flags settled =
      (flags.zipIdx.filter fun flag => !gone flag).map Prod.fst := by
  rw [remaining]
  congr 1
  apply List.filter_congr
  intro flag mem
  rw [Bool.eq_iff_iff, Bool.not_eq_true', Bool.not_eq_true', ← Bool.not_eq_true,
    ← Bool.not_eq_true, List.contains_iff_mem, settledIff flag mem]

end Settle

/-! ## The questions of a design -/

namespace Intent

open Settle

variable {intent settled : Intent} {subject : Subject} {questions : List Question}
  {answers : Answers}

/-- A design that is settled has the layers and the settings that the questions lead to, and the
flags that are left. -/
theorem settle_eq_ok_iff :
    intent.settle answers questions = .ok settled ↔
      ∃ done, questions.foldlM (applyOne intent.ambiguities answers)
          { layers := intent.layers, settings := intent.settings } = .ok done ∧
        settled = { intent with
          layers := done.layers
          ambiguities := remaining intent.ambiguities done.settled
          confidence := raised intent.confidence done.settled.length
          settings := done.settings } := by
  rw [settle, bind_eq_ok_iff]
  simp only [pure_eq_ok_iff, eq_comm (b := settled)]

/-- Questions have the ids of the flags they are asked about, each once. -/
theorem ids_of_ask {flags : List Ambiguity} (asked : ask flags subject = .ok questions) :
    (questions.map Question.id).Perm
        (flags.zipIdx.map fun flag => questionId flag.1.kind flag.2) ∧
      (questions.map Question.id).Nodup := by
  rcases exists_perm_of_ask asked with ⟨placed, perm, related⟩
  have sameIds : questions.map Question.id =
      placed.map fun flag => questionId flag.1.kind flag.2 := by
    rw [← List.forall₂_eq_eq_eq, List.forall₂_map_left_iff, List.forall₂_map_right_iff]
    exact related.imp fun _ _ askedOne => (isAbout_of_askOne askedOne).id_eq
  have idsPerm : (questions.map Question.id).Perm
      (flags.zipIdx.map fun flag => questionId flag.1.kind flag.2) := by
    rw [sameIds]
    exact perm.map _
  constructor
  · exact idsPerm
  · rw [idsPerm.nodup_iff, List.nodup_iff_pairwise_ne, List.pairwise_map]
    have positions : (flags.zipIdx.map Prod.snd).Nodup := by
      rw [List.zipIdx_map_snd]
      exact List.nodup_range'
    exact (List.pairwise_map.mp positions).imp fun different same =>
      different (questionId_injective same)

/-- Questions about the flags, one each, are about different ones, all of them open. -/
theorem aboutOpen_of_perm {flags : List Ambiguity} {placed : List (Ambiguity × Nat)}
    (perm : placed.Perm flags.zipIdx) (about : List.Forall₂ Question.IsAbout questions placed) :
    AboutOpen flags [] questions placed := by
  refine ⟨about, ?_, ?_, ?_⟩
  · exact fun flag mem => List.mem_zipIdx_iff_getElem?.mp (perm.mem_iff.mp mem)
  · rw [(perm.map Prod.snd).nodup_iff, List.zipIdx_map_snd]
    exact List.nodup_range'
  · simp

/-- The questions that are asked about flags are about different ones, all of them open, and in
order where they are of one kind. -/
theorem exists_aboutOpen_of_ask {flags : List Ambiguity}
    (asked : ask flags subject = .ok questions) :
    ∃ placed : List (Ambiguity × Nat), placed.Perm flags.zipIdx ∧
      AboutOpen flags [] questions placed ∧
      placed.Pairwise fun a b => a.1.kind = b.1.kind → a.2 < b.2 := by
  rcases exists_order_of_ask asked with ⟨placed, perm, related, ordered⟩
  exact ⟨placed, perm,
    aboutOpen_of_perm perm (related.imp fun _ _ askedOne => isAbout_of_askOne askedOne),
    ordered.imp IsAheadOf.lt_of_kind_eq⟩

/-- The flags that stay when answers are applied to the questions about a design. -/
theorem ambiguities_of_settle (asked : ask intent.ambiguities subject = .ok questions)
    (settles : intent.settle answers questions = .ok settled) :
    settled.ambiguities =
      (intent.ambiguities.zipIdx.filter fun flag =>
        !answers.settle questions (questionId flag.1.kind flag.2)).map Prod.fst := by
  rcases settle_eq_ok_iff.mp settles with ⟨done, ran, rfl⟩
  rcases exists_aboutOpen_of_ask asked with ⟨placed, perm, aboutOpen, -⟩
  apply remaining_eq_filter
  intro flag mem
  rw [mem_settled_iff aboutOpen ran]
  simp only [List.not_mem_nil, false_or, Answers.settle, List.any_eq_true, Bool.and_eq_true,
    beq_iff_eq]
  constructor
  · rintro ⟨⟨question, other⟩, together, given, samePosition⟩
    have otherAbout := List.forall₂_zip aboutOpen.about together
    -- both flags stand at the same position, so they are one
    have otherPlaced := aboutOpen.inPlace other (List.of_mem_zip together).2
    rw [samePosition, List.mem_zipIdx_iff_getElem?.mp mem] at otherPlaced
    refine ⟨question, (List.of_mem_zip together).1, ?_, given⟩
    rw [otherAbout.id_eq, samePosition, Option.some.inj otherPlaced]
  · rintro ⟨question, questionMem, sameId, given⟩
    rcases exists_partner aboutOpen.about questionMem with ⟨other, together, otherAbout⟩
    refine ⟨(question, other), together, given, ?_⟩
    exact questionId_injective (otherAbout.id_eq.symm.trans sameId)

/-- Answers to the questions that are asked about a design settle the flags whose own question
they give an option.  All other flags stay, in their order. -/
theorem ambiguities_settle (asked : ask intent.ambiguities subject = .ok questions)
    (settles : intent.settle answers questions = .ok settled) :
    (questions.map Question.id).Perm
        (intent.ambiguities.zipIdx.map fun flag => questionId flag.1.kind flag.2) ∧
      (questions.map Question.id).Nodup ∧
      settled.ambiguities =
        (intent.ambiguities.zipIdx.filter fun flag =>
          !answers.settle questions (questionId flag.1.kind flag.2)).map Prod.fst := by
  rcases ids_of_ask asked with ⟨idsPerm, idsApart⟩
  exact ⟨idsPerm, idsApart, ambiguities_of_settle asked settles⟩

/-- A layer whose direction is open twice, whose zone is open and whose effect is open. -/
def fourFlags : Intent :=
  let flag (kind : AmbiguityKind) (source : String) : Ambiguity :=
    { kind := kind, description := "", sourceClause := source, layerId := some "layer_0" }
  { layers := [{ id := "layer_0", name := "red" }],
    ambiguities := [flag .direction "first", flag .zone "where", flag .direction "second",
      flag .effect "moving"] }

/-- An offered option, an unknown one, an option of the user's own, and an unknown question. -/
def mixedAnswers : Answers :=
  [("direction_2", .chosen "inward"), ("zone_1", .chosen "garden"),
    ("effect_3", .own { id := "sparkle", label := "Sparkle" }), ("speed_0", .chosen "fast")]

/-- Settings in whole numbers. -/
def wholeSettings : CheckSettings :=
  { contrastThreshold := .finite 0, spacingTolerance := .finite 0, recommendBelow := .finite 0,
    keepRemainder := .finite 0, featureShare := .finite 1, sideShare := .finite 1 }

/-- The second direction flag is settled and the first stays, though layer and kind agree. -/
theorem ambiguities_settle_fourFlags :
    ∃ questions settled,
      ask fourFlags.ambiguities ⟨fourFlags, none, wholeSettings⟩ = .ok questions ∧
        fourFlags.settle mixedAnswers questions = .ok settled ∧
        settled.ambiguities.map Ambiguity.sourceClause = ["first", "where"] := by
  have evaluated : ((do
      let questions ← ask fourFlags.ambiguities ⟨fourFlags, none, wholeSettings⟩
      let done ← questions.foldlM (applyOne fourFlags.ambiguities mixedAnswers)
        { layers := fourFlags.layers, settings := fourFlags.settings }
      return (questions, done)).map fun (result : List Question × Progress) =>
          ((fourFlags.ambiguities.zipIdx.filter fun (flag : Ambiguity × Nat) =>
            !mixedAnswers.settle result.1 (questionId flag.1.kind flag.2)).map Prod.fst).map
              Ambiguity.sourceClause).toOption = some ["first", "where"] := by
    rw [ask_eq_insertionSort]
    decide +kernel
  rcases exists_ok_of_toOption evaluated with ⟨⟨questions, done⟩, result, left⟩
  rcases bind_eq_ok_iff.mp result with ⟨_, asked, rest⟩
  rcases bind_eq_ok_iff.mp rest with ⟨_, ran, shape⟩
  rw [pure_eq_ok_iff, Prod.mk.injEq] at shape
  rcases shape with ⟨rfl, rfl⟩
  have settles := settle_eq_ok_iff.mpr ⟨_, ran, rfl⟩
  refine ⟨_, _, asked, settles, ?_⟩
  rw [(ambiguities_settle asked settles).2.2]
  exact left

end Intent

end Eaves
