import Eaves.Proofs.Store.Listing

/-!
# What a store touches

An operation on a file looks at the way to it and at what stands there, and at nothing
else: in two trees in which the same stands at these places it does the same.  What it
changes is the file, and for making a directory the way to it.

A store is asked under ids.  An id that is no key is refused before any file is looked at.
Under keys, a record is loaded, saved and deleted in its place and that of its draft, both
in the directory of the user, and a listing looks at what is in that directory.  Keys name
no directory by themselves and have no slash, so these places are one name below the
directory of the user, and different records have no place in common.
-/

namespace Eaves.FileTree

open Outcome

variable {tree other next left : FileTree} {places files ways : Path → Prop}
  {whole reached path located : Path} {names : List String} {content : String}

/-! ## What is looked at -/

/-- Trees in which the same stands at places. -/
def AgreeOn (places : Path → Prop) (tree other : FileTree) : Prop :=
  ∀ place, places place → other.node? place = tree.node? place

/-- Outcomes of a change that are trees which agree on places, or the same refusal. -/
inductive Alike (places : Path → Prop) : FileOutcome FileTree → FileOutcome FileTree → Prop
  | done {left right : FileTree} : AgreeOn places left right → Alike places (.ok left) (.ok right)
  | refused (fault : FileFault) : Alike places (.error fault) (.error fault)

namespace AgreeOn

theorem put (agree : AgreeOn places tree other) (notTop : ¬ IsTop path) (node : Node) :
    AgreeOn places (tree.put path node) (other.put path node) := by
  intro place isPlace
  rw [node?_put other node notTop, node?_put tree node notTop, agree place isPlace]

theorem erase (agree : AgreeOn places tree other) (notTop : ¬ IsTop path) :
    AgreeOn places (tree.erase path) (other.erase path) := by
  intro place isPlace
  rw [node?_erase other notTop, node?_erase tree notTop, agree place isPlace]

theorem follow_eq (agree : AgreeOn places tree other)
    (onWay : ∀ n ≤ names.length, places (walk reached (names.take n))) :
    other.follow whole reached names = tree.follow whole reached names := by
  induction names generalizing reached with
  | nil => rfl
  | cons name rest ih =>
      cases rest with
      | nil => rfl
      | cons next more =>
          have first : other.node? (enter reached name) = tree.node? (enter reached name) :=
            agree _ (onWay 1 (Nat.succ_le_succ (Nat.zero_le _)))
          have further : other.follow whole (enter reached name) (next :: more) = _ :=
            ih fun n bound => onWay (n + 1) (Nat.succ_le_succ bound)
          rw [follow, follow, first, further]

/-- A path leads to the same where the trees agree on the way. -/
theorem locate_eq (agree : AgreeOn places tree other)
    (onWay : ∀ place, OnWay path place → places place) : other.locate path = tree.locate path := by
  rw [locate, locate, agree.follow_eq fun n bound => onWay _ ⟨n, bound, rfl⟩]

theorem node?_of_locate (agree : AgreeOn places tree other)
    (onWay : ∀ place, OnWay path place → places place)
    (isLocated : tree.locate path = .ok located) :
    other.node? located = tree.node? located := by
  apply agree
  rw [walk_of_locate isLocated]
  exact onWay _ (onWay_walk path)

theorem read_eq (agree : AgreeOn places tree other)
    (onWay : ∀ place, OnWay path place → places place) : other.read path = tree.read path := by
  rw [read, read, agree.locate_eq onWay]
  cases isLocated : tree.locate path with
  | error fault => rfl
  | ok located => rw [ok_bind, ok_bind, agree.node?_of_locate onWay isLocated]

theorem isDirectory_eq (agree : AgreeOn places tree other)
    (onWay : ∀ place, OnWay path place → places place) :
    other.isDirectory path = tree.isDirectory path := by
  rw [isDirectory, isDirectory, look, look, agree.locate_eq onWay]
  cases isLocated : tree.locate path with
  | error fault => cases fault <;> rfl
  | ok located =>
      dsimp only
      rw [agree.node?_of_locate onWay isLocated]

theorem write_alike (agree : AgreeOn places tree other)
    (onWay : ∀ place, OnWay path place → places place) (content : String) :
    Alike places (tree.write path content) (other.write path content) := by
  rw [write, write, agree.locate_eq onWay]
  cases isLocated : tree.locate path with
  | error fault => exact .refused fault
  | ok located =>
      rw [ok_bind, ok_bind, agree.node?_of_locate onWay isLocated]
      split
      · exact .refused _
      · rename_i closed
        exact .done (agree.put (not_isTop_of_closed closed) _)

theorem remove_alike (agree : AgreeOn places tree other)
    (onWay : ∀ place, OnWay path place → places place) :
    Alike places (tree.remove path) (other.remove path) := by
  rw [remove, remove, agree.locate_eq onWay]
  cases isLocated : tree.locate path with
  | error fault => exact .refused fault
  | ok located =>
      rw [ok_bind, ok_bind, agree.node?_of_locate onWay isLocated]
      split
      · rename_i content isFile
        exact .done (agree.erase (not_isTop_of_closed (closed_of_file isFile)))
      · exact .refused _
      · exact .refused _

theorem move_alike (agree : AgreeOn places tree other) {source target : Path}
    (onSource : ∀ place, OnWay source place → places place)
    (onTarget : ∀ place, OnWay target place → places place) :
    Alike places (tree.move source target) (other.move source target) := by
  rw [move, move, agree.read_eq onSource, agree.locate_eq onSource, agree.locate_eq onTarget]
  cases isRead : tree.read source with
  | error fault => exact .refused fault
  | ok content =>
      obtain ⟨start, isStart, isFile⟩ := read_eq_ok_iff.mp isRead
      rw [ok_bind, ok_bind, isStart, ok_bind, ok_bind]
      cases isStop : tree.locate target with
      | error fault => exact .refused fault
      | ok stop =>
          rw [ok_bind, ok_bind, agree.node?_of_locate onTarget isStop]
          split
          · exact .refused _
          · rename_i closed
            have cleared := agree.erase (not_isTop_of_closed (closed_of_file isFile))
            exact .done (cleared.put (not_isTop_of_closed closed) _)

theorem makeFrom_alike (agree : AgreeOn places tree other)
    (onWay : ∀ n ≤ names.length, places (walk reached (names.take n))) :
    Alike places (tree.makeFrom whole reached names) (other.makeFrom whole reached names) := by
  -- a directory that is made is looked at by the next step: the trees have to go along
  induction names generalizing tree other reached with
  | nil => exact .done agree
  | cons name rest ih =>
      have first : other.node? (enter reached name) = tree.node? (enter reached name) :=
        agree _ (onWay 1 (Nat.succ_le_succ (Nat.zero_le _)))
      have onRest : ∀ n ≤ rest.length, places (walk (enter reached name) (rest.take n)) :=
        fun n bound => onWay (n + 1) (Nat.succ_le_succ bound)
      rw [makeFrom, makeFrom]
      cases checkName whole name with
      | error fault => exact .refused fault
      | ok _ =>
          rw [ok_bind, ok_bind]
          dsimp only
          rw [first]
          split
          · exact ih agree onRest
          · exact .refused _
          · rename_i absent
            exact ih (agree.put (not_isTop_of_closed (closed_of_absent absent)) _) onRest

theorem makeDirectory_alike (agree : AgreeOn places tree other)
    (onWay : ∀ place, OnWay path place → places place) :
    Alike places (tree.makeDirectory path) (other.makeDirectory path) := by
  rw [makeDirectory, makeDirectory]
  cases checkPath path with
  | error fault => exact .refused fault
  | ok _ => exact agree.makeFrom_alike fun n bound => onWay _ ⟨n, bound, rfl⟩

end AgreeOn

/-! ## What is changed -/

/-- Trees that differ only in what stands at the places of files, and in directories that are put on
ways where nothing was. -/
def ChangesWithin (files ways : Path → Prop) (tree left : FileTree) : Prop :=
  ∀ place, ¬ files place → left.node? place = tree.node? place ∨
    tree.node? place = none ∧ left.node? place = some .directory ∧ ways place

theorem ChangesWithin.refl (files ways : Path → Prop) (tree : FileTree) :
    ChangesWithin files ways tree tree :=
  fun _ _ => .inl rfl

theorem ChangesWithin.trans (first : ChangesWithin files ways tree next)
    (second : ChangesWithin files ways next left) : ChangesWithin files ways tree left := by
  intro place noFile
  rcases first place noFile with same | ⟨absent, isDirectory, onWay⟩
  · rw [← same]
    exact second place noFile
  · rcases second place noFile with same | ⟨isAbsent, -, -⟩
    · exact .inr ⟨absent, same.trans isDirectory, onWay⟩
    · rw [isDirectory] at isAbsent
      cases isAbsent

theorem node?_of_write (writes : tree.write path content = .ok left) {place : Path}
    (elsewhere : place ≠ walk [] path) : left.node? place = tree.node? place := by
  obtain ⟨located, isLocated, closed, rfl⟩ := write_eq_ok_iff.mp writes
  rw [node?_put tree _ (not_isTop_of_closed closed), if_neg]
  rw [walk_of_locate isLocated]
  exact elsewhere

theorem node?_of_move {source target : Path} (moves : tree.move source target = .ok left)
    {place : Path} (notSource : place ≠ walk [] source) (notTarget : place ≠ walk [] target) :
    left.node? place = tree.node? place := by
  obtain ⟨start, stop, content, isStart, isFile, isStop, closed, rfl⟩ := move_eq_ok_iff.mp moves
  rw [node?_put _ _ (not_isTop_of_closed closed), if_neg,
    node?_erase _ (not_isTop_of_closed (closed_of_file isFile)), if_neg]
  · rw [walk_of_locate isStart]
    exact notSource
  · rw [walk_of_locate isStop]
    exact notTarget

theorem node?_of_remove (removes : tree.remove path = .ok left) {place : Path}
    (elsewhere : place ≠ walk [] path) : left.node? place = tree.node? place := by
  obtain ⟨located, isLocated, rest⟩ := bind_eq_ok_iff.mp removes
  split at rest
  · rename_i content isFile
    rw [pure_eq_ok_iff] at rest
    rw [← rest, node?_erase _ (not_isTop_of_closed (closed_of_file isFile)), if_neg]
    rw [walk_of_locate isLocated]
    exact elsewhere
  · cases rest
  · cases rest

end Eaves.FileTree

namespace Eaves.DirectoryStore

open Outcome
open FileTree (AgreeOn Alike ChangesWithin OnWay walk)

variable {tree other left : FileTree} {places files ways : Path → Prop} {root : Path}
  {userId designId key : String} {step : SaveStep} {steps : List SaveStep}

/-! ## Steps -/

/-- The places that a step looks at. -/
def SaveStep.Uses : SaveStep → Path → Prop
  | .makeDirectory path | .write path _ => OnWay path
  | .move source target => fun place => OnWay source place ∨ OnWay target place

/-- The places of the files that a step changes. -/
def SaveStep.Files : SaveStep → Path → Prop
  | .makeDirectory _ => fun _ => False
  | .write path _ => fun place => place = walk [] path
  | .move source target => fun place => place = walk [] source ∨ place = walk [] target

/-- The way along which a step makes directories. -/
def SaveStep.Ways : SaveStep → Path → Prop
  | .makeDirectory path => OnWay path
  | .write .. | .move .. => fun _ => False

theorem SaveStep.run_alike (agree : AgreeOn places tree other)
    (uses : ∀ place, step.Uses place → places place) :
    Alike places (step.run tree) (step.run other) := by
  cases step with
  | makeDirectory path => exact agree.makeDirectory_alike uses
  | write path content => exact agree.write_alike uses content
  | move source target =>
      exact agree.move_alike (fun place onSource => uses place (.inl onSource))
        (fun place onTarget => uses place (.inr onTarget))

theorem SaveStep.run_changes (ran : step.run tree = .ok left)
    (isFile : ∀ place, step.Files place → files place)
    (onWay : ∀ place, step.Ways place → ways place) : ChangesWithin files ways tree left := by
  intro place noFile
  cases step with
  | makeDirectory path =>
      rcases FileTree.addsDirectories_makeDirectory ran place with same | ⟨absent, isDirectory, way⟩
      · exact .inl same
      · exact .inr ⟨absent, isDirectory, onWay place way⟩
  | write path content =>
      exact .inl (FileTree.node?_of_write ran fun here => noFile (isFile place here))
  | move source target =>
      exact .inl (FileTree.node?_of_move ran (fun here => noFile (isFile place (.inl here)))
        (fun here => noFile (isFile place (.inr here))))

/-- Steps do the same in trees that agree on what each of them looks at. -/
theorem runSteps_alike (agree : AgreeOn places tree other)
    (uses : ∀ step ∈ steps, ∀ place, step.Uses place → places place) :
    (runSteps other steps).2 = (runSteps tree steps).2 ∧
      AgreeOn places (runSteps tree steps).1 (runSteps other steps).1 := by
  -- a step is refused in both trees or in neither, so both runs end at the same step
  induction steps generalizing tree other with
  | nil => exact ⟨rfl, agree⟩
  | cons step rest ih =>
      have alike := SaveStep.run_alike agree (uses step List.mem_cons_self)
      rw [runSteps, runSteps]
      generalize step.run tree = outcome at alike
      generalize step.run other = otherOutcome at alike
      cases alike with
      | done stillAgree =>
          exact ih stillAgree fun later mem => uses later (List.mem_cons_of_mem _ mem)
      | refused fault => exact ⟨rfl, agree⟩

/-- Steps change no files but theirs, and make directories on their ways. -/
theorem runSteps_changes (isFile : ∀ step ∈ steps, ∀ place, step.Files place → files place)
    (onWay : ∀ step ∈ steps, ∀ place, step.Ways place → ways place) :
    ChangesWithin files ways tree (runSteps tree steps).1 := by
  induction steps generalizing tree with
  | nil => exact .refl files ways tree
  | cons step rest ih =>
      rw [runSteps]
      cases ran : step.run tree with
      | error fault => exact .refl files ways tree
      | ok next =>
          have first := SaveStep.run_changes ran (isFile step List.mem_cons_self)
            (onWay step List.mem_cons_self)
          exact first.trans (ih (fun later mem => isFile later (List.mem_cons_of_mem _ mem))
            (fun later mem => onWay later (List.mem_cons_of_mem _ mem)))

/-! ## Keys that are names -/

theorem mem_dropLineFeed {c : Char} {cs : List Char} (mem : c ∈ cs) (other : c ≠ '\n') :
    c ∈ dropLineFeed cs := by
  rw [dropLineFeed]
  split
  · rename_i last
    rw [← List.dropLast_append_getLast? _ last] at mem
    rcases List.mem_append.mp mem with inside | isLast
    · exact inside
    · exact absurd (List.mem_singleton.mp isLast) other
  · exact mem

/-- A key is the name of something in a directory, and not of the directory or the one around it. -/
theorem isName_of_isKey (accepted : isKey key = true) :
    key ≠ "" ∧ key ≠ "." ∧ key ≠ ".." ∧ '/' ∉ key.toList := by
  have notNil := toList_ne_nil_of_isKey accepted
  simp only [isKey, Bool.and_eq_true, bne_iff_ne] at accepted
  obtain ⟨⟨⟨-, chars⟩, notHere⟩, notOutwards⟩ := accepted
  refine ⟨?_, notHere, notOutwards, fun slash => ?_⟩
  · rintro rfl
    exact notNil rfl
  · have isChar := List.all_eq_true.mp chars _ (mem_dropLineFeed slash (by decide))
    exact absurd isChar (by decide)

/-- An id that is no key is refused, in whatever tree. -/
theorem recordPath_eq_error (root : Path)
    (refused : ¬ (isKey userId = true ∧ isKey designId = true)) :
    ∃ failure, (failure = .unsafeKey "user id" userId ∨ failure = .unsafeKey "design id" designId) ∧
      recordPath root userId designId = .error failure := by
  by_cases userKey : isKey userId = true
  · have noKey : isKey designId = false := by
      rw [← Bool.not_eq_true]
      exact fun designKey => refused ⟨userKey, designKey⟩
    exact ⟨_, .inr rfl, recordPath_of_not_isKey userKey noKey⟩
  · rw [Bool.not_eq_true] at userKey
    refine ⟨_, .inl rfl, ?_⟩
    rw [recordPath, userDirectory, checkKey, userKey]
    rfl

/-! ## The places of a record -/

/-- The path of a record. -/
def recordOf (root : Path) (userId designId : String) : Path :=
  root ++ [userId] ++ [designId ++ recordEnding]

/-- The path that a record is first written to. -/
def draftOf (root : Path) (userId designId : String) : Path :=
  root ++ [userId] ++ [designId ++ draftEnding]

/-- The places that a record has to do with: the directory of the user with the way to it, and in it
the record and its draft. -/
def Touched (root : Path) (userId designId : String) (place : Path) : Prop :=
  OnWay (root ++ [userId]) place ∨ place = walk [] (recordOf root userId designId) ∨
    place = walk [] (draftOf root userId designId)

/-- The places that a listing has to do with: the directory of the user with the way to it, and what
is in it. -/
def Listed (root : Path) (userId : String) (place : Path) : Prop :=
  OnWay (root ++ [userId]) place ∨ ∃ name, place = walk [] (root ++ [userId]) ++ [name]

theorem onWay_append {directory place : Path} {name : String}
    (onWay : OnWay (directory ++ [name]) place) :
    OnWay directory place ∨ place = walk [] (directory ++ [name]) := by
  obtain ⟨n, bound, rfl⟩ := onWay
  by_cases inside : n ≤ directory.length
  · exact .inl ⟨n, inside, by rw [List.take_append_of_le_length inside]⟩
  · rw [List.length_append, List.length_singleton] at bound
    refine .inr ?_
    rw [List.take_of_length_le]
    rw [List.length_append, List.length_singleton]
    omega

theorem touched_of_onWay_record {place : Path}
    (onWay : OnWay (recordOf root userId designId) place) :
    Touched root userId designId place :=
  (onWay_append onWay).imp_right .inl

theorem touched_of_onWay_draft {place : Path} (onWay : OnWay (draftOf root userId designId) place) :
    Touched root userId designId place :=
  (onWay_append onWay).imp_right .inr

theorem walk_below (userKey : isKey userId = true) {name : String}
    (inwards : name ≠ Path.outwards) :
    walk [] (root ++ [userId] ++ [name]) = walk [] root ++ [userId] ++ [name] := by
  rw [FileTree.walk_append, FileTree.walk_append]
  show FileTree.enter (FileTree.enter (walk [] root) userId) name = _
  rw [FileTree.enter_of_ne inwards, FileTree.enter_of_ne (ne_outwards_of_isKey userKey)]

/-! ## What is done under keys -/

theorem load_of_agree (userKey : isKey userId = true) (designKey : isKey designId = true)
    (agree : AgreeOn (Touched root userId designId) tree other) :
    load other root userId designId = load tree root userId designId := by
  have sameRead : other.read (recordOf root userId designId) =
      tree.read (recordOf root userId designId) :=
    agree.read_eq fun _ => touched_of_onWay_record
  rw [load_eq userKey designKey, load_eq userKey designKey]
  exact congrArg loaded sameRead

/-- What is deleted where a file is taken away: nothing where there is none. -/
def deleted (tree : FileTree) : FileOutcome FileTree → Outcome (FileTree × Bool)
  | .ok left => .ok (left, true)
  | .error (.absent _) => .ok (tree, false)
  | .error fault => .error (.file fault)

theorem delete_eq (userKey : isKey userId = true) (designKey : isKey designId = true) :
    delete tree root userId designId =
      deleted tree (tree.remove (recordOf root userId designId)) := by
  unfold delete
  rw [recordPath_eq_ok_iff.mpr ⟨userKey, designKey, rfl⟩, ok_bind, recordOf]
  cases tree.remove (root ++ [userId] ++ [designId ++ recordEnding]) with
  | ok left => rfl
  | error fault => cases fault <;> rfl

theorem delete_of_agree (userKey : isKey userId = true) (designKey : isKey designId = true)
    (agree : AgreeOn (Touched root userId designId) tree other) :
    (∀ failure, delete tree root userId designId = .error failure →
      delete other root userId designId = .error failure) ∧
    ∀ left found, delete tree root userId designId = .ok (left, found) →
      ∃ right, delete other root userId designId = .ok (right, found) ∧
        AgreeOn (Touched root userId designId) left right := by
  have alike : Alike (Touched root userId designId)
      (tree.remove (recordOf root userId designId)) _ :=
    agree.remove_alike fun _ => touched_of_onWay_record
  rw [delete_eq userKey designKey, delete_eq userKey designKey]
  generalize tree.remove (recordOf root userId designId) = outcome at alike
  generalize other.remove (recordOf root userId designId) = otherOutcome at alike
  cases alike with
  | done stillAgree =>
      refine ⟨nofun, ?_⟩
      rintro left found ⟨⟩
      exact ⟨_, rfl, stillAgree⟩
  | refused fault =>
      cases fault with
      | absent text =>
          refine ⟨nofun, ?_⟩
          rintro left found ⟨⟩
          exact ⟨_, rfl, agree⟩
      | _ => exact ⟨fun failure failed => failed, nofun⟩

theorem node?_of_delete (userKey : isKey userId = true) (designKey : isKey designId = true)
    {found : Bool} (deletes : delete tree root userId designId = .ok (left, found)) {place : Path}
    (elsewhere : place ≠ walk [] (recordOf root userId designId)) :
    left.node? place = tree.node? place := by
  rw [delete_eq userKey designKey] at deletes
  cases removes : tree.remove (recordOf root userId designId) with
  | ok cleared =>
      rw [removes] at deletes
      cases deletes
      exact FileTree.node?_of_remove removes elsewhere
  | error fault =>
      rw [removes] at deletes
      cases fault with
      | absent text =>
          cases deletes
          rfl
      | _ => cases deletes

/-- The steps of saving under keys. -/
theorem saveSteps_eq (designKey : isKey designId = true) (design : SavedDesign) :
    saveSteps (recordOf root userId designId) design =
      [.makeDirectory (root ++ [userId]), .write (draftOf root userId designId) design.document,
        .move (draftOf root userId designId) (recordOf root userId designId)] := by
  rw [saveSteps, recordOf, draftPath_eq designKey, Path.parent, List.dropLast_concat]
  rfl

variable {design : SavedDesign}

/-- What holds of making the directory, of writing the draft and of moving it holds of every step of
saving. -/
theorem forall_mem_saveSteps {Holds : SaveStep → Prop} (designKey : isKey designId = true)
    (making : Holds (.makeDirectory (root ++ [userId])))
    (writing : Holds (.write (draftOf root userId designId) design.document))
    (moving : Holds (.move (draftOf root userId designId) (recordOf root userId designId))) :
    ∀ step ∈ saveSteps (recordOf root userId designId) design, Holds step := by
  intro step mem
  rw [saveSteps_eq designKey, List.mem_cons, List.mem_cons, List.mem_singleton] at mem
  rcases mem with rfl | rfl | rfl
  · exact making
  · exact writing
  · exact moving

theorem save_eq_runSteps (userKey : isKey design.userId = true)
    (designKey : isKey design.id = true) :
    save tree root design =
      ((runSteps tree (saveSteps (recordOf root design.userId design.id) design)).1,
        liftFile (runSteps tree (saveSteps (recordOf root design.userId design.id) design)).2) :=
  save_eq (recordPath_eq_ok_iff.mpr ⟨userKey, designKey, rfl⟩)

theorem save_of_agree (userKey : isKey design.userId = true) (designKey : isKey design.id = true)
    (agree : AgreeOn (Touched root design.userId design.id) tree other) :
    (save other root design).2 = (save tree root design).2 ∧
      AgreeOn (Touched root design.userId design.id) (save tree root design).1
        (save other root design).1 := by
  have uses : ∀ step ∈ saveSteps (recordOf root design.userId design.id) design,
      ∀ place, step.Uses place → Touched root design.userId design.id place :=
    forall_mem_saveSteps designKey (fun _ => .inl) (fun _ => touched_of_onWay_draft)
      fun _ uses => uses.elim touched_of_onWay_draft touched_of_onWay_record
  have alike := runSteps_alike agree uses
  rw [save_eq_runSteps userKey designKey, save_eq_runSteps userKey designKey]
  exact ⟨congrArg liftFile alike.1, alike.2⟩

theorem save_changes (userKey : isKey design.userId = true) (designKey : isKey design.id = true)
    (tree : FileTree) :
    ChangesWithin
      (fun place => place = walk [] (recordOf root design.userId design.id) ∨
        place = walk [] (draftOf root design.userId design.id))
      (OnWay (root ++ [design.userId])) tree (save tree root design).1 := by
  rw [save_eq_runSteps userKey designKey]
  apply runSteps_changes
  · exact forall_mem_saveSteps designKey (fun _ isFile => isFile.elim) (fun _ => .inr)
      fun _ isFile => isFile.symm
  · exact forall_mem_saveSteps designKey (fun _ onWay => onWay) (fun _ onWay => onWay.elim)
      fun _ onWay => onWay.elim

/-- A listing looks at what is in the directory of the user, and on the way to it. -/
theorem list_of_agree (userKey : isKey userId = true) (proper : tree.IsProper)
    (otherProper : other.IsProper) (agree : AgreeOn (Listed root userId) tree other) :
    list other root userId = list tree root userId := by
  have sameDirectory : other.isDirectory (root ++ [userId]) = tree.isDirectory (root ++ [userId]) :=
    agree.isDirectory_eq fun _ => .inl
  by_cases isDirectory : tree.isDirectory (root ++ [userId]) = .ok true
  · obtain ⟨place, isLocated, stands⟩ := isDirectory_eq_ok_true_iff.mp isDirectory
    have otherLocated : other.locate (root ++ [userId]) = .ok place := by
      rw [agree.locate_eq fun _ => .inl, isLocated]
    have otherStands : other.node? place = some .directory := by
      rw [agree.node?_of_locate (fun _ => .inl) isLocated, stands]
    have inwards := ne_outwards_of_isKey userKey
    have below (name : String) : Listed root userId (walk [] (root ++ [userId]) ++ [name]) :=
      .inr ⟨name, rfl⟩
    have shape : walk [] (root ++ [userId]) = walk [] root ++ [userId] := by
      rw [FileTree.walk_append]
      exact FileTree.enter_of_ne inwards
    have sameNames : recordsAt other place = recordsAt tree place := by
      rw [FileTree.walk_of_locate isLocated, shape]
      apply recordsAt_congr proper otherProper inwards
      intro name _
      exact agree _ (shape ▸ below name)
    rw [list_of_place userKey otherLocated otherStands, list_of_place userKey isLocated stands,
      sameNames]
    apply loadEach_congr
    intro name _
    apply load_congr
    intro _ designKey
    apply agree.read_eq
    intro place onWay
    rcases onWay_append onWay with onDirectory | rfl
    · exact .inl onDirectory
    · rw [FileTree.walk_append]
      show Listed root userId (FileTree.enter _ _)
      rw [FileTree.enter_of_ne (append_ending_ne_outwards _).1]
      exact below _
  · rw [list, list, userDirectory_eq_ok_iff.mpr ⟨userKey, rfl⟩, ok_bind, ok_bind, sameDirectory]
    cases found : tree.isDirectory (root ++ [userId]) with
    | error fault => rfl
    | ok isThere =>
        cases isThere with
        | false => rfl
        | true => exact absurd found isDirectory

/-! ## Records that are apart -/

/-- The paths of a record and of its draft. -/
def filesOf (root : Path) (userId designId : String) : List Path :=
  [recordOf root userId designId, draftOf root userId designId]

theorem walk_of_mem_filesOf (userKey : isKey userId = true) {path : Path}
    (mem : path ∈ filesOf root userId designId) :
    ∃ ending ∈ [recordEnding, draftEnding],
      walk [] path = walk [] root ++ [userId] ++ [designId ++ ending] := by
  have inwards := append_ending_ne_outwards designId
  rw [filesOf, List.mem_cons, List.mem_singleton] at mem
  rcases mem with rfl | rfl
  · exact ⟨recordEnding, List.mem_cons_self, walk_below userKey inwards.1⟩
  · exact ⟨draftEnding, List.mem_cons_of_mem _ List.mem_cons_self, walk_below userKey inwards.2⟩

/-- The name of a record or of a draft fixes the id. -/
theorem eq_of_same_name {first second ending otherEnding : String}
    (mem : ending ∈ [recordEnding, draftEnding])
    (otherMem : otherEnding ∈ [recordEnding, draftEnding])
    (same : first ++ ending = second ++ otherEnding) : first = second := by
  rw [List.mem_cons, List.mem_singleton] at mem otherMem
  rcases mem with rfl | rfl
  · rcases otherMem with rfl | rfl
    · exact append_left_injective same
    · exact absurd same (record_ne_draft first second)
  · rcases otherMem with rfl | rfl
    · exact absurd same.symm (record_ne_draft second first)
    · exact append_left_injective same

/-- The place of a record or of a draft fixes the user and the id. -/
theorem eq_of_same_place {otherUser otherDesign : String} (userKey : isKey userId = true)
    (otherKey : isKey otherUser = true) {path otherPath : Path}
    (mem : path ∈ filesOf root userId designId)
    (otherMem : otherPath ∈ filesOf root otherUser otherDesign)
    (same : walk [] path = walk [] otherPath) : userId = otherUser ∧ designId = otherDesign := by
  obtain ⟨ending, isEnding, stands⟩ := walk_of_mem_filesOf userKey mem
  obtain ⟨otherEnding, isOther, otherStands⟩ := walk_of_mem_filesOf otherKey otherMem
  rw [stands, otherStands] at same
  obtain ⟨directories, names⟩ := List.append_singleton_inj.mp same
  exact ⟨(List.append_singleton_inj.mp directories).2, eq_of_same_name isEnding isOther names⟩

/-! ## Confinement -/

/-- What a store does under the ids of a record is confined to the places of the record. -/
structure IsConfined (root : Path) (userId designId : String) : Prop where
  /-- The paths that are used. -/
  paths : recordPath root userId designId = .ok (recordOf root userId designId) ∧
    draftPath (recordOf root userId designId) = draftOf root userId designId
  /-- What is loaded depends on these places, in their directory and on the way to it. -/
  loads : ∀ tree other, AgreeOn (Touched root userId designId) tree other →
    load other root userId designId = load tree root userId designId
  /-- So does what deleting does, -/
  deletes : ∀ tree other, AgreeOn (Touched root userId designId) tree other →
    (∀ failure, delete tree root userId designId = .error failure →
      delete other root userId designId = .error failure) ∧
    ∀ left found, delete tree root userId designId = .ok (left, found) →
      ∃ right, delete other root userId designId = .ok (right, found) ∧
        AgreeOn (Touched root userId designId) left right
  /-- and what saving does. -/
  saves : ∀ design : SavedDesign, design.userId = userId → design.id = designId →
    ∀ tree other, AgreeOn (Touched root userId designId) tree other →
      (save other root design).2 = (save tree root design).2 ∧
        AgreeOn (Touched root userId designId) (save tree root design).1 (save other root design).1
  /-- Deleting changes the record and nothing else. -/
  deletesOnly : ∀ tree left found, delete tree root userId designId = .ok (left, found) →
    ∀ place, place ≠ walk [] (recordOf root userId designId) →
      left.node? place = tree.node? place
  /-- Saving changes the record and its draft, and makes the directory and those on the way to it
  where they are not there. -/
  savesOnly : ∀ design : SavedDesign, design.userId = userId → design.id = designId →
    ∀ tree, ChangesWithin
      (fun place => place = walk [] (recordOf root userId designId) ∨
        place = walk [] (draftOf root userId designId))
      (OnWay (root ++ [userId])) tree (save tree root design).1

theorem isConfined_of_isKey (root : Path) (userKey : isKey userId = true)
    (designKey : isKey designId = true) : IsConfined root userId designId where
  paths := ⟨recordPath_eq_ok_iff.mpr ⟨userKey, designKey, rfl⟩, draftPath_eq designKey⟩
  loads _ _ := load_of_agree userKey designKey
  deletes _ _ := delete_of_agree userKey designKey
  saves design isUser isDesign tree other agree := by
    subst isUser isDesign
    exact save_of_agree userKey designKey agree
  deletesOnly _ _ _ deletes _ := node?_of_delete userKey designKey deletes
  savesOnly design isUser isDesign tree := by
    subst isUser isDesign
    exact save_changes userKey designKey tree

/-- Ids of which one is no key are refused before any file is looked at.  Under keys, what is done
for a record is confined to the directory of the user and, in it, to the record and its draft, and a
listing to what is in the directory; keys are neither empty nor the names of a directory itself or
of the one around it, and have no slash.  The records and drafts of different pairs of keys never
stand in the same place. -/
theorem records_are_confined (root : Path) :
    (∀ userId designId, ¬ (isKey userId = true ∧ isKey designId = true) →
      ∃ failure, (failure = .unsafeKey "user id" userId ∨
          failure = .unsafeKey "design id" designId) ∧
        ∀ tree, load tree root userId designId = .error failure ∧
          delete tree root userId designId = .error failure ∧
          ∀ design : SavedDesign, design.userId = userId → design.id = designId →
            save tree root design = (tree, .error failure)) ∧
    (∀ userId, isKey userId = false → ∀ tree,
      list tree root userId = .error (.unsafeKey "user id" userId)) ∧
    (∀ key, isKey key = true → key ≠ "" ∧ key ≠ "." ∧ key ≠ ".." ∧ '/' ∉ key.toList) ∧
    (∀ userId designId, isKey userId = true → isKey designId = true →
      IsConfined root userId designId) ∧
    (∀ userId, isKey userId = true → ∀ tree other : FileTree, tree.IsProper → other.IsProper →
      AgreeOn (Listed root userId) tree other →
        list other root userId = list tree root userId) ∧
    ∀ userId designId otherUser otherDesign, isKey userId = true → isKey designId = true →
      isKey otherUser = true → isKey otherDesign = true →
      (userId, designId) ≠ (otherUser, otherDesign) →
        ∀ path ∈ filesOf root userId designId, ∀ otherPath ∈ filesOf root otherUser otherDesign,
          path ≠ otherPath ∧ walk [] path ≠ walk [] otherPath := by
  refine ⟨fun userId designId refused => ?_, fun userId noKey tree => ?_,
    fun key => isName_of_isKey, fun userId designId => isConfined_of_isKey root, ?_, ?_⟩
  · obtain ⟨failure, isRefusal, isRefused⟩ := recordPath_eq_error root refused
    refine ⟨failure, isRefusal, fun tree => ⟨?_, ?_, ?_⟩⟩
    · rw [load, isRefused]
      rfl
    · rw [delete, isRefused]
      rfl
    · rintro design rfl rfl
      unfold save
      rw [isRefused]
  · rw [list, userDirectory, checkKey, noKey]
    rfl
  · intro userId userKey tree other proper otherProper
    exact list_of_agree userKey proper otherProper
  · intro userId designId otherUser otherDesign userKey _ otherKey _ different path mem otherPath
      otherMem
    have apart : walk [] path ≠ walk [] otherPath := by
      intro same
      obtain ⟨rfl, rfl⟩ := eq_of_same_place userKey otherKey mem otherMem same
      exact different rfl
    exact ⟨fun same => apart (congrArg _ same), apart⟩

/-- Ids that end as records and drafts do keep their own places. -/
theorem records_are_confined_nested :
    IsConfined ["designs"] "alice" "porch.json" ∧
      ∀ path ∈ filesOf ["designs"] "alice" "porch",
        ∀ otherPath ∈ filesOf ["designs"] "alice" "porch.json",
          path ≠ otherPath ∧ walk [] path ≠ walk [] otherPath := by
  obtain ⟨-, -, -, confined, -, apart⟩ := records_are_confined ["designs"]
  exact ⟨confined "alice" "porch.json" (by decide) (by decide),
    apart "alice" "porch" "alice" "porch.json" (by decide) (by decide) (by decide) (by decide)
      (by decide)⟩

end Eaves.DirectoryStore
