import Eaves.Proofs.Store.Interrupted
import Eaves.Proofs.Store.Mirror
import Mathlib.Data.List.Forall2

/-!
# Stores that agree

A store in memory and one in an empty directory are asked the same, under keys that the
directory accepts.  Both answer as one map does, and what they give for a design has the
same form.  Only the order of a listing differs: in memory it is that of the ids, in a
directory that of the names of the files, and the ending of a name sorts behind a hyphen
and before a letter.  The orders agree for ids without a dot, a hyphen or a line feed.
-/

namespace Eaves.DirectoryStore

open FileTree (Site)

variable {site : Site} {tree : FileTree} {shelf after : Shelf} {call : StoreCall}
  {reply : StoreReply}

/-! ## The order of file names -/

/-- An id whose characters all sort behind the dot of an ending. -/
def IsAboveEnding (id : String) : Prop :=
  ∀ c ∈ id.toList, '.' < c

theorem append_lt_append {first second : List Char} (above : ∀ c ∈ second, '.' < c)
    (before : first < second) (rest : List Char) :
    first ++ '.' :: rest < second ++ '.' :: rest := by
  induction first generalizing second with
  | nil =>
      cases second with
      | nil => exact absurd before (List.not_lt_nil _)
      | cons c others => exact List.cons_lt_cons_iff.mpr (.inl (above c List.mem_cons_self))
  | cons a others ih =>
      cases second with
      | nil => exact absurd before (List.not_lt_nil _)
      | cons c more =>
          rcases List.cons_lt_cons_iff.mp before with earlier | ⟨rfl, earlier⟩
          · exact List.cons_lt_cons_iff.mpr (.inl earlier)
          · exact List.cons_lt_cons_iff.mpr (.inr ⟨rfl,
              ih (fun other mem => above other (List.mem_cons_of_mem _ mem)) earlier⟩)

/-- An id that sorts before one without such characters gives a name that sorts before its name. -/
theorem append_recordEnding_lt {first second : String} (above : IsAboveEnding second)
    (before : first < second) : first ++ recordEnding < second ++ recordEnding := by
  rw [String.lt_iff_toList_lt] at before ⊢
  rw [String.toList_append, String.toList_append]
  exact append_lt_append above before _

theorem byFileName_eq_self {designs : List SavedDesign}
    (ordered : designs.Pairwise fun first second => first.id < second.id)
    (above : ∀ design ∈ designs, IsAboveEnding design.id) : byFileName designs = designs := by
  apply List.mergeSort_of_pairwise
  refine ordered.imp_of_mem fun _ secondMem before => decide_eq_true ?_
  exact le_of_lt (append_recordEnding_lt (above _ secondMem) before)

/-! ## One call -/

/-- What a store in a directory answers where one in memory answers: the same in form, with
listings in the order of the names of the files. -/
inductive SameInForm : StoreReply → StoreReply → Prop
  | saved : SameInForm .saved .saved
  | loaded {first second : Option SavedDesign} :
      second.map SavedDesign.document = first.map SavedDesign.document →
        SameInForm (.loaded first) (.loaded second)
  | deleted {found : Bool} : SameInForm (.deleted found) (.deleted found)
  | listed {first second : List SavedDesign} :
      second.map SavedDesign.document = (byFileName first).map SavedDesign.document →
      ((∀ design ∈ first, IsAboveEnding design.id) →
        second.map SavedDesign.document = first.map SavedDesign.document) →
        SameInForm (.listed first) (.listed second)

/-- A design of a map has the same form after it is kept in a document. -/
theorem Mirrors.document_kept (mirrors : Mirrors site tree shelf) {userId designId : String}
    {design : SavedDesign} (found : shelf userId designId = some design) :
    design.kept.document = design.document :=
  SavedDesign.document_kept (mirrors.taken userId designId design found).2.2.lasting.intent

/-- A store in a directory answers a call as the map does that it mirrors. -/
theorem Mirrors.answer (mirrors : Mirrors site tree shelf) (accepted : Accepts site.root call)
    (answers : shelf.Answers call reply after) :
    ∃ left given, (Repository.directory tree site.root).answer call =
        (.directory left site.root, .ok given) ∧
      SameInForm reply given ∧ Mirrors site left after := by
  cases answers with
  | @save design =>
      rcases mirrors.save accepted with ⟨left, saves, stillMirrors⟩
      refine ⟨left, .saved, ?_, .saved, stillMirrors⟩
      simp only [Repository.answer, Repository.save, saves]
      rfl
  | @load userId id =>
      refine ⟨tree, .loaded ((shelf userId id).map SavedDesign.kept), ?_, .loaded ?_, mirrors⟩
      · simp only [Repository.answer, Repository.load, mirrors.load_eq accepted]
        rfl
      · cases found : shelf userId id with
        | none => rfl
        | some design => exact congrArg some (mirrors.document_kept found)
  | @delete userId id =>
      rcases mirrors.delete accepted with ⟨left, deletes, stillMirrors⟩
      refine ⟨left, .deleted (shelf userId id).isSome, ?_, .deleted, stillMirrors⟩
      simp only [Repository.answer, Repository.delete, deletes]
      rfl
  | @list userId designs ordered complete =>
      have sameForm : ((byFileName designs).map SavedDesign.kept).map SavedDesign.document =
          (byFileName designs).map SavedDesign.document := by
        rw [List.map_map]
        refine List.map_congr_left fun design mem => ?_
        exact mirrors.document_kept ((complete design).mp (List.mem_mergeSort.mp mem))
      refine ⟨tree, .listed ((byFileName designs).map SavedDesign.kept), ?_,
        .listed sameForm fun above => ?_, mirrors⟩
      · simp only [Repository.answer, Repository.list,
          mirrors.list accepted.1 accepted.2 ordered complete]
        rfl
      · rw [sameForm, byFileName_eq_self ordered above]

/-! ## Every list of calls -/

/-- Stores that keep and mirror one map answer alike, whatever they are asked. -/
theorem Mirrors.answers {store : MemoryStore} (mirrors : Mirrors site tree shelf)
    (keeps : store.Keeps shelf) {calls : List StoreCall}
    (accepted : ∀ call ∈ calls, Accepts site.root call) :
    ∃ memoryReplies fileReplies,
      (Repository.memory store).answers calls = memoryReplies.map .ok ∧
      (Repository.directory tree site.root).answers calls = fileReplies.map .ok ∧
      shelf.AnswersAll calls memoryReplies ∧
      List.Forall₂ SameInForm memoryReplies fileReplies := by
  induction calls generalizing store tree shelf with
  | nil => exact ⟨[], [], rfl, rfl, .nil, .nil⟩
  | cons call rest ih =>
      rcases keeps.answer call with ⟨next, reply, after, memoryAnswer, isAnswer, nextKeeps⟩
      rcases mirrors.answer (accepted call List.mem_cons_self) isAnswer with
        ⟨left, given, fileAnswer, sameForm, leftMirrors⟩
      rcases ih leftMirrors nextKeeps fun other mem => accepted other (List.mem_cons_of_mem _ mem)
        with ⟨memoryReplies, fileReplies, memoryRest, fileRest, isRest, sameRest⟩
      refine ⟨reply :: memoryReplies, given :: fileReplies, ?_, ?_, .cons isAnswer isRest,
        .cons sameForm sameRest⟩
      · rw [Repository.answers, memoryAnswer, memoryRest]
        rfl
      · rw [Repository.answers, fileAnswer, fileRest]
        rfl

/-- A directory for designs, with nothing in it. -/
def bareTree : FileTree :=
  ⟨[(["designs"], .directory)]⟩

theorem isVacant_bareTree : IsVacant designsSite bareTree where
  stands n positive bound := by
    obtain rfl : n = 1 := Nat.le_antisymm bound positive
    rfl
  proper := ⟨by decide, by decide⟩
  noFile n content := by
    have around : designsSite.base ++ designsSite.back.take n = ["designs"] :=
      congrArg (["designs"] ++ ·) List.take_nil
    rw [around]
    nofun
  nothing userId _ := by
    change bareTree.node? ["designs", userId] = none
    simp [FileTree.node?, bareTree, Path.outwards]

/-- The porch under an id. -/
def porchNamed (id : String) : SavedDesign :=
  { porch with id := id }

theorem isLasting_porchNamed (id : String) : (porchNamed id).IsLasting :=
  ⟨isLasting_porch.intent, isLasting_porch.held, isLasting_porch.wholes⟩

end Eaves.DirectoryStore
