import Eaves.Proofs.Files.Ways
import Eaves.Store.Directory

/-!
# Steps in a file tree

No operation takes a directory away, so a path that leads somewhere keeps leading there.
Making directories and writing files leave every file a file.  Moving one takes it from
its place, but puts no directory there: where a file could be written before, one can be
written still.

What is done to files is done in steps, one after another, and a step that is refused
ends it.  So the steps that are done are a beginning of those that were to be, and what
each step leaves in place, all of them do.
-/

namespace Eaves.FileTree

open Outcome

variable {tree made left : FileTree} {whole reached located : Path} {names : List String}
  {path : Path} {content : String}

/-! ## Directories -/

/-- Every directory of a tree is one in another. -/
def KeepsDirectories (tree left : FileTree) : Prop :=
  ∀ path, tree.node? path = some .directory → left.node? path = some .directory

theorem KeepsDirectories.put (closed : tree.node? path ≠ some .directory) (node : Node) :
    tree.KeepsDirectories (tree.put path node) := by
  intro other isDirectory
  rw [node?_put tree node (not_isTop_of_closed closed), if_neg, isDirectory]
  rintro rfl
  exact closed isDirectory

theorem KeepsDirectories.follow (keeps : tree.KeepsDirectories left)
    (follows : tree.follow whole reached names = .ok located) :
    left.follow whole reached names = .ok located := by
  induction names generalizing reached with
  | nil => exact follows
  | cons name rest ih =>
      cases rest with
      | nil => exact follows
      | cons next more =>
          rcases bind_eq_ok_iff.mp follows with ⟨_, checked, followsRest⟩
          rw [FileTree.follow, checked, ok_bind]
          split at followsRest
          · rename_i stands
            rw [keeps _ stands]
            exact ih followsRest
          · cases followsRest
          · cases followsRest

/-- Where the directories are kept, a path leads where it led. -/
theorem KeepsDirectories.locate (keeps : tree.KeepsDirectories left)
    (isLocated : tree.locate path = .ok located) : left.locate path = .ok located := by
  rcases bind_eq_ok_iff.mp isLocated with ⟨_, checked, follows⟩
  rw [FileTree.locate, checked, ok_bind]
  exact keeps.follow follows

theorem AddsDirectories.keepsDirectories {isNew : Path → Prop}
    (adds : tree.AddsDirectories made isNew) : tree.KeepsDirectories made := by
  intro path isDirectory
  rcases adds path with same | ⟨absent, -, -⟩
  · rw [same, isDirectory]
  · rw [absent] at isDirectory
    cases isDirectory

/-- Making directories puts them where nothing was, on the way that the names lead. -/
theorem addsDirectories_makeFrom (makes : tree.makeFrom whole reached names = .ok made) :
    tree.AddsDirectories made fun path =>
      ∃ n ≤ names.length, path = walk reached (names.take n) := by
  induction names generalizing tree reached with
  | nil =>
      cases makes
      exact fun _ => .inl rfl
  | cons name rest ih =>
      rcases bind_eq_ok_iff.mp makes with ⟨_, -, makesRest⟩
      have further : ∀ path, (∃ n ≤ rest.length, path = walk (enter reached name) (rest.take n)) →
          ∃ n ≤ (name :: rest).length, path = walk reached ((name :: rest).take n) := by
        rintro path ⟨n, bound, rfl⟩
        exact ⟨n + 1, Nat.succ_le_succ bound, rfl⟩
      dsimp only at makesRest
      split at makesRest
      · intro path
        rcases ih makesRest path with same | ⟨isAbsent, isDirectory, onWay⟩
        · exact .inl same
        · exact .inr ⟨isAbsent, isDirectory, further path onWay⟩
      · cases makesRest
      · rename_i absent
        have closed := closed_of_absent absent
        have putAt := node?_put tree .directory (not_isTop_of_closed closed)
        intro path
        rcases ih makesRest path with same | ⟨isAbsent, isDirectory, onWay⟩
        · rw [putAt] at same
          split at same
          · rename_i here
            exact .inr ⟨here ▸ absent, same, 1, Nat.succ_le_succ (Nat.zero_le _), here⟩
          · exact .inl same
        · rw [putAt] at isAbsent
          split at isAbsent
          · cases isAbsent
          · exact .inr ⟨isAbsent, isDirectory, further path onWay⟩

theorem addsDirectories_makeDirectory (makes : tree.makeDirectory path = .ok made) :
    tree.AddsDirectories made (OnWay path) := by
  rcases bind_eq_ok_iff.mp makes with ⟨_, -, makesAll⟩
  exact addsDirectories_makeFrom makesAll

theorem keepsDirectories_write (writes : tree.write path content = .ok left) :
    tree.KeepsDirectories left := by
  rcases write_eq_ok_iff.mp writes with ⟨located, -, closed, rfl⟩
  exact .put closed _

/-! ## Where a file can be written -/

/-- A file can be written at a path: the way there is open, and no directory stands there. -/
def Takes (tree : FileTree) (path : Path) : Prop :=
  ∃ located, tree.locate path = .ok located ∧ tree.node? located ≠ some .directory

theorem Takes.exists_write (takes : tree.Takes path) (content : String) :
    ∃ left, tree.write path content = .ok left := by
  rcases takes with ⟨located, isLocated, closed⟩
  exact ⟨_, write_eq_ok_iff.mpr ⟨located, isLocated, closed, rfl⟩⟩

theorem Takes.write (takes : tree.Takes path) {other : Path}
    (writes : tree.write other content = .ok left) : left.Takes path := by
  rcases takes with ⟨located, isLocated, closed⟩
  refine ⟨located, (keepsDirectories_write writes).locate isLocated, ?_⟩
  rcases write_eq_ok_iff.mp writes with ⟨place, -, placeClosed, rfl⟩
  rw [node?_put tree _ (not_isTop_of_closed placeClosed)]
  split
  · nofun
  · exact closed

theorem Takes.move (takes : tree.Takes path) {source target : Path}
    (moves : tree.move source target = .ok left) : left.Takes path := by
  rcases takes with ⟨located, isLocated, closed⟩
  rcases move_eq_ok_iff.mp moves with ⟨start, stop, content, -, isFile, -, stopClosed, rfl⟩
  have startClosed := closed_of_file isFile
  have putAt := node?_put (tree.erase start) (.file content) (not_isTop_of_closed stopClosed)
  have eraseAt := node?_erase tree (not_isTop_of_closed startClosed)
  have keeps : tree.KeepsDirectories ((tree.erase start).put stop (.file content)) := by
    intro other isDirectory
    rw [putAt, if_neg, eraseAt, if_neg, isDirectory]
    · rintro rfl
      exact startClosed isDirectory
    · rintro rfl
      exact stopClosed isDirectory
  refine ⟨located, keeps.locate isLocated, ?_⟩
  rw [putAt, eraseAt]
  split
  · nofun
  · split
    · nofun
    · exact closed

/-! ## Where a file stands -/

/-- A file stands at a path. -/
def HasFile (tree : FileTree) (path : Path) : Prop :=
  ∃ content, tree.read path = .ok content

theorem HasFile.takes (hasFile : tree.HasFile path) : tree.Takes path := by
  rcases hasFile with ⟨content, isRead⟩
  rcases read_eq_ok_iff.mp isRead with ⟨located, isLocated, isFile⟩
  exact ⟨located, isLocated, closed_of_file isFile⟩

theorem hasFile_of_write (writes : tree.write path content = .ok left) : left.HasFile path := by
  have keeps := keepsDirectories_write writes
  rcases write_eq_ok_iff.mp writes with ⟨located, isLocated, closed, rfl⟩
  refine ⟨content, read_eq_ok_iff.mpr ⟨located, keeps.locate isLocated, ?_⟩⟩
  rw [node?_put tree _ (not_isTop_of_closed closed), if_pos rfl]

theorem HasFile.write (hasFile : tree.HasFile path) {other : Path}
    (writes : tree.write other content = .ok left) : left.HasFile path := by
  rcases hasFile with ⟨before, isRead⟩
  rcases read_eq_ok_iff.mp isRead with ⟨located, isLocated, isFile⟩
  have stillLocated := (keepsDirectories_write writes).locate isLocated
  rcases write_eq_ok_iff.mp writes with ⟨place, -, closed, rfl⟩
  have putAt := node?_put tree (.file content) (not_isTop_of_closed closed) located
  by_cases here : located = place
  · rw [if_pos here] at putAt
    exact ⟨content, read_eq_ok_iff.mpr ⟨located, stillLocated, putAt⟩⟩
  · rw [if_neg here, isFile] at putAt
    exact ⟨before, read_eq_ok_iff.mpr ⟨located, stillLocated, putAt⟩⟩

theorem HasFile.makeDirectory (hasFile : tree.HasFile path) {other : Path}
    (makes : tree.makeDirectory other = .ok made) : made.HasFile path := by
  rcases hasFile with ⟨content, isRead⟩
  rcases read_eq_ok_iff.mp isRead with ⟨located, isLocated, isFile⟩
  have adds := addsDirectories_makeDirectory makes
  refine ⟨content, read_eq_ok_iff.mpr ⟨located, adds.keepsDirectories.locate isLocated, ?_⟩⟩
  rcases adds located with same | ⟨absent, -, -⟩
  · rw [same, isFile]
  · rw [absent] at isFile
    cases isFile

end Eaves.FileTree

namespace Eaves.DirectoryStore

variable {tree next left : FileTree} {steps more : List SaveStep} {step : SaveStep}
  {outcome : FileOutcome Unit} {path : Path} {design : SavedDesign}

/-! ## One after another -/

theorem runSteps_cons_eq_ok {rest : List SaveStep}
    (runs : runSteps tree (step :: rest) = (left, .ok ())) :
    ∃ next, step.run tree = .ok next ∧ runSteps next rest = (left, .ok ()) := by
  rw [runSteps] at runs
  cases ran : step.run tree with
  | ok next =>
      rw [ran] at runs
      exact ⟨next, rfl, runs⟩
  | error fault =>
      rw [ran] at runs
      cases runs

theorem runSteps_append (runs : runSteps tree steps = (next, .ok ()))
    (runsMore : runSteps next more = (left, outcome)) :
    runSteps tree (steps ++ more) = (left, outcome) := by
  induction steps generalizing tree with
  | nil =>
      cases runs
      exact runsMore
  | cons step rest ih =>
      rcases runSteps_cons_eq_ok runs with ⟨between, ran, runsRest⟩
      rw [List.cons_append, runSteps, ran]
      exact ih runsRest

theorem runSteps_singleton (ran : step.run tree = .ok left) :
    runSteps tree [step] = (left, .ok ()) := by
  rw [runSteps, ran]
  rfl

/-- The steps that are done are the first of those that were to be. -/
theorem exists_done_of_runSteps (runs : runSteps tree steps = (left, outcome)) :
    ∃ done, done <+: steps ∧ runSteps tree done = (left, .ok ()) := by
  induction steps generalizing tree with
  | nil =>
      cases runs
      exact ⟨[], List.prefix_rfl, rfl⟩
  | cons step rest ih =>
      rw [runSteps] at runs
      cases ran : step.run tree with
      | error fault =>
          rw [ran] at runs
          cases runs
          exact ⟨[], List.nil_prefix, rfl⟩
      | ok between =>
          rw [ran] at runs
          rcases ih runs with ⟨done, isPrefix, runsDone⟩
          refine ⟨step :: done, List.cons_prefix_cons.mpr ⟨rfl, isPrefix⟩, ?_⟩
          rw [runSteps, ran]
          exact runsDone

/-! ## What stays in place -/

/-- A step that takes no file from its place. -/
def SaveStep.Adds : SaveStep → Prop
  | .makeDirectory _ | .write .. => True
  | .move .. => False

theorem SaveStep.Adds.hasFile (adds : step.Adds) (hasFile : tree.HasFile path)
    (ran : step.run tree = .ok left) : left.HasFile path := by
  cases step with
  | makeDirectory other => exact hasFile.makeDirectory ran
  | write other content => exact hasFile.write ran
  | move source target => exact adds.elim

/-- A file stays a file as long as none is moved. -/
theorem hasFile_of_runSteps (adds : ∀ step ∈ steps, step.Adds) (hasFile : tree.HasFile path)
    (runs : runSteps tree steps = (left, .ok ())) : left.HasFile path := by
  induction steps generalizing tree with
  | nil =>
      cases runs
      exact hasFile
  | cons step rest ih =>
      rcases runSteps_cons_eq_ok runs with ⟨between, ran, runsRest⟩
      have hasFileNext := (adds step List.mem_cons_self).hasFile hasFile ran
      exact ih (fun other mem => adds other (List.mem_cons_of_mem _ mem)) hasFileNext runsRest

/-- Where a file stood before a design was saved, one can still be written. -/
theorem takes_of_saveSteps {place : Path} (hasFile : tree.HasFile path)
    (runs : runSteps tree (saveSteps place design) = (left, .ok ())) : left.Takes path := by
  rcases runSteps_cons_eq_ok runs with ⟨made, makes, runsWrite⟩
  rcases runSteps_cons_eq_ok runsWrite with ⟨written, writes, runsMove⟩
  rcases runSteps_cons_eq_ok runsMove with ⟨moved, moves, nothing⟩
  cases nothing
  have stillThere : written.HasFile path := (hasFile.makeDirectory makes).write writes
  exact stillThere.takes.move moves

/-- Writing one file again and again changes what stands at its place, and nothing else. -/
theorem node?_of_writes (writes : ∀ step ∈ steps, ∃ content, step = .write path content)
    (runs : runSteps tree steps = (left, .ok ())) (other : Path) :
    left.node? other = tree.node? other ∨ tree.locate path = .ok other := by
  induction steps generalizing tree with
  | nil =>
      cases runs
      exact .inl rfl
  | cons step rest ih =>
      rcases writes step List.mem_cons_self with ⟨content, rfl⟩
      rcases runSteps_cons_eq_ok runs with ⟨between, ran, runsRest⟩
      replace ran : tree.write path content = .ok between := ran
      rcases FileTree.write_eq_ok_iff.mp ran with ⟨located, isLocated, closed, isPut⟩
      by_cases here : other = located
      · exact .inr (here ▸ isLocated)
      · have same : between.node? other = tree.node? other := by
          rw [isPut, FileTree.node?_put tree _ (FileTree.not_isTop_of_closed closed), if_neg here]
        rcases ih (fun own mem => writes own (List.mem_cons_of_mem _ mem)) runsRest with
          sameAfter | elsewhere
        · exact .inl (sameAfter.trans same)
        · rw [(FileTree.keepsDirectories_write ran).locate isLocated] at elsewhere
          exact .inr (elsewhere ▸ isLocated)

end Eaves.DirectoryStore
