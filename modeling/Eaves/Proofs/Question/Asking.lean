import Eaves.Proofs.Outcome
import Eaves.Proofs.Sorting
import Eaves.Question.Ask
import Mathlib.Data.List.Perm.Basic

/-!
# What is asked

One question is asked about each flag, and carries the flag's position in its id.
Asking sorts the questions but neither drops nor repeats one, so the questions
stand for the flags at all positions, each once.
-/

namespace Eaves

open Outcome

/-- A question about a flag at a position. -/
structure Question.IsAbout (question : Question) (placed : Ambiguity × Nat) : Prop where
  id_eq : question.id = questionId placed.1.kind placed.2
  kind_eq : question.kind = placed.1.kind.question
  layerId_eq : question.layerId = placed.1.layerId

/-- The question about a flag is about it, and offers what is worked out for it. -/
theorem askOne_eq_ok_iff {subject : Subject} {position : Nat} {flag : Ambiguity}
    {question : Question} :
    askOne subject position flag = .ok question ↔
      ∃ wording offers pixelCount,
        wordingAndOffers subject flag = .ok (wording, offers) ∧
          subject.pixelCount flag.layerId = .ok pixelCount ∧
          question =
            { id := questionId flag.kind position
              kind := flag.kind.question
              wording := wording
              offers := offers.take maxOptions
              source := flag.sourceClause
              layerId := flag.layerId
              context :=
                [("description", .text flag.description), ("pixel_count", .int pixelCount)] } := by
  unfold askOne
  constructor
  · intro asked
    rcases bind_eq_ok_iff.mp asked with ⟨⟨wording, offers⟩, worded, rest⟩
    rcases bind_eq_ok_iff.mp rest with ⟨pixelCount, counted, shape⟩
    rw [pure_eq_ok_iff] at shape
    exact ⟨wording, offers, pixelCount, worded, counted, shape.symm⟩
  · rintro ⟨wording, offers, pixelCount, worded, counted, rfl⟩
    rw [worded, ok_bind, counted]
    rfl

theorem isAbout_of_askOne {subject : Subject} {position : Nat} {flag : Ambiguity}
    {question : Question} (asked : askOne subject position flag = .ok question) :
    question.IsAbout (flag, position) := by
  rcases askOne_eq_ok_iff.mp asked with ⟨_, _, _, _, _, rfl⟩
  exact ⟨rfl, rfl, rfl⟩

/-- Flags are asked about one by one, numbered from the start. -/
theorem askFrom_eq_ok_iff {subject : Subject} {start : Nat} {flags : List Ambiguity}
    {questions : List Question} :
    askFrom subject start flags = .ok questions ↔
      List.Forall₂ (fun placed question => askOne subject placed.2 placed.1 = .ok question)
        (flags.zipIdx start) questions := by
  induction flags generalizing start questions with
  | nil => cases questions <;> simp [askFrom]
  | cons flag rest ih =>
      rw [askFrom, bind_eq_ok_iff, List.zipIdx_cons]
      constructor
      · rintro ⟨first, firstOk, others⟩
        rcases bind_eq_ok_iff.mp others with ⟨restQuestions, restOk, shape⟩
        rw [pure_eq_ok_iff] at shape
        subst shape
        exact List.Forall₂.cons firstOk (ih.mp restOk)
      · intro related
        cases related with
        | cons firstOk restRelated =>
            exact ⟨_, firstOk, bind_eq_ok_iff.mpr ⟨_, ih.mpr restRelated, rfl⟩⟩

/-- A flag that can be asked about: it has a wording and options, and its lights are counted. -/
def Ambiguity.IsAskable (flag : Ambiguity) (subject : Subject) : Prop :=
  ∃ worded pixelCount, wordingAndOffers subject flag = .ok worded ∧
    subject.pixelCount flag.layerId = .ok pixelCount

theorem isAskable_iff {flag : Ambiguity} {subject : Subject} (position : Nat) :
    flag.IsAskable subject ↔ ∃ question, askOne subject position flag = .ok question := by
  constructor
  · rintro ⟨⟨wording, offers⟩, pixelCount, worded, counted⟩
    exact ⟨_, askOne_eq_ok_iff.mpr ⟨wording, offers, pixelCount, worded, counted, rfl⟩⟩
  · rintro ⟨question, asked⟩
    rcases askOne_eq_ok_iff.mp asked with ⟨wording, offers, pixelCount, worded, counted, -⟩
    exact ⟨(wording, offers), pixelCount, worded, counted⟩

/-- Questions are asked exactly where every flag can be asked about. -/
theorem exists_ask_iff {flags : List Ambiguity} {subject : Subject} :
    (∃ questions, ask flags subject = .ok questions) ↔
      ∀ flag ∈ flags, flag.IsAskable subject := by
  constructor
  · rintro ⟨questions, asked⟩ flag mem
    rcases map_eq_ok_iff.mp asked with ⟨unsorted, askedFrom, -⟩
    rcases List.mem_iff_getElem?.mp mem with ⟨position, there⟩
    rcases exists_partner (askFrom_eq_ok_iff.mp askedFrom)
      (List.mk_mem_zipIdx_iff_getElem?.mpr there) with ⟨question, -, askedOne⟩
    exact (isAskable_iff position).mpr ⟨question, askedOne⟩
  · intro askable
    suffices ∀ start, ∃ questions, askFrom subject start flags = .ok questions by
      rcases this 0 with ⟨questions, asked⟩
      exact ⟨_, map_eq_ok_iff.mpr ⟨questions, asked, rfl⟩⟩
    induction flags with
    | nil => exact fun _ => ⟨[], rfl⟩
    | cons flag rest ih =>
        intro start
        rcases (isAskable_iff start).mp (askable flag List.mem_cons_self) with ⟨first, isFirst⟩
        rcases ih (fun other mem => askable other (List.mem_cons_of_mem _ mem)) (start + 1) with
          ⟨others, othersAsked⟩
        rw [askFrom, isFirst, ok_bind, othersAsked, ok_bind]
        exact ⟨_, rfl⟩

/-- Questions whose kinds are in the order of asking are asked as they come. -/
theorem ask_of_askFrom {flags : List Ambiguity} {subject : Subject} {questions : List Question}
    (asked : askFrom subject 0 flags = .ok questions)
    (inOrder : (questions.map fun question => question.kind.priority).Pairwise (· ≤ ·)) :
    ask flags subject = .ok questions := by
  have unchanged : inAskingOrder questions = questions := by
    apply List.mergeSort_of_pairwise
    exact (List.pairwise_map.mp inOrder).imp decide_eq_true
  rw [ask, asked, Except.map, unchanged]

/-- Each question is put where it belongs among those about later flags. -/
theorem ask_eq_insertionSort (flags : List Ambiguity) (subject : Subject) :
    ask flags subject = (askFrom subject 0 flags).map fun questions =>
      questions.insertionSort fun a b => a.kind.priority ≤ b.kind.priority := by
  have sorts : inAskingOrder = fun questions =>
      questions.insertionSort fun a b => a.kind.priority ≤ b.kind.priority :=
    funext (Sorting.mergeSort_eq_insertionSort fun question : Question => question.kind.priority)
  rw [ask, sorts]

/-- Where the questions cannot be put together they cannot be asked, for the same reason. -/
theorem ask_eq_error {flags : List Ambiguity} {subject : Subject} {failure : Failure}
    (refused : failure? (askFrom subject 0 flags) = some failure) :
    ask flags subject = .error failure := by
  rw [ask, failure?_eq_some_iff.mp refused]
  rfl

/-- One flag at its position is asked about ahead of another: its kind is asked about ahead, or
the kinds are asked about together and it stands ahead of the other. -/
def IsAheadOf (a b : Ambiguity × Nat) : Prop :=
  a.1.kind.question.priority < b.1.kind.question.priority ∨
    a.1.kind.question.priority = b.1.kind.question.priority ∧ a.2 < b.2

theorem IsAheadOf.lt_of_kind_eq {a b : Ambiguity × Nat} (before : IsAheadOf a b)
    (sameKind : a.1.kind = b.1.kind) : a.2 < b.2 := by
  rcases before with lower | ⟨-, earlier⟩
  · rw [sameKind] at lower
    exact absurd lower (lt_irrefl _)
  · exact earlier

/-- The questions that are asked are those about the flags, one each, in the order of asking. -/
theorem exists_order_of_ask {flags : List Ambiguity} {subject : Subject}
    {questions : List Question} (asked : ask flags subject = .ok questions) :
    ∃ placed : List (Ambiguity × Nat), placed.Perm flags.zipIdx ∧
      List.Forall₂ (fun question placed => askOne subject placed.2 placed.1 = .ok question)
        questions placed ∧
      placed.Pairwise IsAheadOf := by
  rcases map_eq_ok_iff.mp asked with ⟨unsorted, askedFrom, rfl⟩
  have related := askFrom_eq_ok_iff.mp askedFrom
  -- every question is sorted together with its flag
  let pairs := unsorted.zip flags.zipIdx
  let sorted := pairs.mergeSort (Sorting.before fun pair => pair.1.kind.priority)
  have sameLength : unsorted.length = flags.zipIdx.length := related.length_eq.symm
  have questions_eq : inAskingOrder unsorted = sorted.map Prod.fst := by
    have unzipped : unsorted = pairs.map Prod.fst :=
      (List.map_fst_zip (Nat.le_of_eq sameLength)).symm
    have sortedByKind : sorted.map Prod.fst = inAskingOrder (pairs.map Prod.fst) :=
      List.map_mergeSort fun _ _ _ _ => rfl
    rw [sortedByKind, ← unzipped]
  have each : ∀ pair ∈ sorted, askOne subject pair.2.2 pair.2.1 = .ok pair.1 := by
    intro pair mem
    exact List.forall₂_zip related.flip (List.mem_mergeSort.mp mem)
  refine ⟨sorted.map Prod.snd, ?_, ?_, ?_⟩
  · have unzipped : pairs.map Prod.snd = flags.zipIdx :=
      List.map_snd_zip (Nat.le_of_eq sameLength.symm)
    exact unzipped ▸ (List.mergeSort_perm pairs _).map Prod.snd
  · rw [questions_eq, List.forall₂_map_left_iff, List.forall₂_map_right_iff]
    exact List.forall₂_same.mpr each
  · have increasing : pairs.Pairwise fun a b => a.2.2 < b.2.2 := by
      have positions : (pairs.map fun pair => pair.2.2) = List.range' 0 flags.length := by
        rw [← List.zipIdx_map_snd 0 flags, ← List.map_snd_zip (Nat.le_of_eq sameLength.symm),
          List.map_map]
        rfl
      exact List.pairwise_map.mp (positions ▸ List.pairwise_lt_range')
    rw [List.pairwise_map]
    have ordered : sorted.Pairwise fun a b => a.1.kind.priority < b.1.kind.priority ∨
        a.1.kind.priority = b.1.kind.priority ∧ a.2.2 < b.2.2 :=
      Sorting.pairwise_mergeSort (fun pair => pair.1.kind.priority) increasing
    apply ordered.imp_of_mem
    intro a b aMem bMem before
    rwa [(isAbout_of_askOne (each a aMem)).kind_eq,
      (isAbout_of_askOne (each b bMem)).kind_eq] at before

/-- The questions that are asked are those about the flags, one each, in another order. -/
theorem exists_perm_of_ask {flags : List Ambiguity} {subject : Subject}
    {questions : List Question} (asked : ask flags subject = .ok questions) :
    ∃ placed : List (Ambiguity × Nat), placed.Perm flags.zipIdx ∧
      List.Forall₂ (fun question placed => askOne subject placed.2 placed.1 = .ok question)
        questions placed := by
  rcases exists_order_of_ask asked with ⟨placed, perm, related, -⟩
  exact ⟨placed, perm, related⟩

/-- Every question that is asked is about some flag. -/
theorem exists_flag_of_mem_ask {flags : List Ambiguity} {subject : Subject}
    {questions : List Question} (asked : ask flags subject = .ok questions)
    {question : Question} (mem : question ∈ questions) :
    ∃ flag position, flags[position]? = some flag ∧
      askOne subject position flag = .ok question := by
  rcases exists_perm_of_ask asked with ⟨placed, perm, related⟩
  rcases exists_partner related mem with ⟨⟨flag, position⟩, together, askedOne⟩
  have placedMem := perm.mem_iff.mp (List.of_mem_zip together).2
  exact ⟨flag, position, List.mem_zipIdx_iff_getElem?.mp placedMem, askedOne⟩

/-- Every flag is asked about, where it stands. -/
theorem exists_askOne {flags : List Ambiguity} {subject : Subject} {questions : List Question}
    (asked : ask flags subject = .ok questions) {flag : Ambiguity} {position : Nat}
    (there : flags[position]? = some flag) :
    ∃ question ∈ questions, askOne subject position flag = .ok question := by
  rcases exists_perm_of_ask asked with ⟨placed, perm, related⟩
  have placedMem := perm.mem_iff.mpr (List.mk_mem_zipIdx_iff_getElem?.mpr there)
  rcases exists_partner related.flip placedMem with ⟨question, together, askedOne⟩
  exact ⟨question, (List.of_mem_zip together).2, askedOne⟩

theorem exists_question_of_mem {flags : List Ambiguity} {subject : Subject}
    {questions : List Question} (asked : ask flags subject = .ok questions) {flag : Ambiguity}
    (mem : flag ∈ flags) : ∃ question ∈ questions, question.layerId = flag.layerId := by
  rcases List.mem_iff_getElem?.mp mem with ⟨position, there⟩
  rcases exists_askOne asked there with ⟨question, questionMem, askedOne⟩
  exact ⟨question, questionMem, (isAbout_of_askOne askedOne).layerId_eq⟩

/-- Nothing is asked exactly where there are no flags. -/
theorem ask_eq_nil_iff {flags : List Ambiguity} {subject : Subject} {questions : List Question}
    (asked : ask flags subject = .ok questions) : questions = [] ↔ flags = [] := by
  rcases exists_perm_of_ask asked with ⟨placed, perm, related⟩
  have sameLength : questions.length = flags.length := by
    rw [related.length_eq, perm.length_eq, List.length_zipIdx]
  rw [← List.length_eq_zero_iff, ← List.length_eq_zero_iff, sameLength]

end Eaves
