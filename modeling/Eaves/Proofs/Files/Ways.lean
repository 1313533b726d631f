import Eaves.Proofs.Files.Proper
import Eaves.Proofs.Outcome

/-!
# Ways through a file tree

Names lead from directory to directory.  Where the way is open, what stands at its end
decides every operation; where it is not, the first thing in the way does, and no
operation finds or changes anything.

Making a directory opens a way.  It puts empty directories where nothing was, so it
brings nothing into view, as long as the names it goes through lead inwards from a
directory that was there.
-/

namespace Eaves.FileTree

open Outcome

variable {tree made : FileTree} {whole reached : Path} {names : List String} {name : String}

/-! ## Where names lead -/

/-- The path that names lead to. -/
def walk (reached : Path) (names : List String) : Path :=
  names.foldl enter reached

/-- Names of which none leads outwards. -/
def LeadInwards (names : List String) : Prop :=
  ∀ name ∈ names, name ≠ Path.outwards

/-- Names that are no longer than names can be. -/
def AreShort (names : List String) : Prop :=
  ∀ name ∈ names, name.utf8ByteSize ≤ longestName

theorem walk_append (reached : Path) (names more : List String) :
    walk reached (names ++ more) = walk (walk reached names) more :=
  List.foldl_append

theorem enter_of_ne (inwards : name ≠ Path.outwards) : enter reached name = reached ++ [name] := by
  have notOutwards : (name != Path.outwards) = true := by simpa using inwards
  rw [enter, if_pos notOutwards]

theorem walk_of_leadInwards (inwards : LeadInwards names) :
    walk reached names = reached ++ names := by
  induction names generalizing reached with
  | nil => exact (List.append_nil reached).symm
  | cons name rest ih =>
      rw [walk, List.foldl_cons, enter_of_ne (inwards name List.mem_cons_self)]
      have restInwards : LeadInwards rest := fun other mem =>
        inwards other (List.mem_cons_of_mem _ mem)
      have further : walk (reached ++ [name]) rest = reached ++ [name] ++ rest := ih restInwards
      rw [walk] at further
      rw [further, List.append_assoc, List.singleton_append]

/-- A place that the names of a path lead through, the last one among them. -/
def OnWay (path place : Path) : Prop :=
  ∃ n ≤ path.length, place = walk [] (path.take n)

theorem onWay_walk (path : Path) : OnWay path (walk [] path) :=
  ⟨path.length, Nat.le_refl _, by rw [List.take_length]⟩

theorem checkName_of_short (short : name.utf8ByteSize ≤ longestName) :
    checkName whole name = .ok () :=
  if_neg (Nat.not_lt.mpr short)

/-! ## What is in the way -/

/-- The refusal of the first thing on a way that is no directory, if there is one. -/
def obstacle? (tree : FileTree) (whole : Path) : (reached : Path) → List String → Option FileFault
  | _, [] => none
  | reached, name :: rest =>
      match tree.node? (enter reached name) with
      | some .directory => obstacle? tree whole (enter reached name) rest
      | some (.file _) => some (.notDirectory whole.text)
      | none => some (.absent whole.text)

theorem obstacle?_append (tree : FileTree) (whole reached : Path) (names more : List String) :
    tree.obstacle? whole reached (names ++ more) =
      (tree.obstacle? whole reached names).or (tree.obstacle? whole (walk reached names) more) := by
  induction names generalizing reached with
  | nil => rfl
  | cons name rest ih =>
      rw [List.cons_append, obstacle?, obstacle?, walk, List.foldl_cons]
      split
      · exact ih _
      · rfl
      · rfl

/-- An obstacle on a way from a directory is a file, or nothing. -/
theorem obstacle?_cases (tree : FileTree) (whole reached : Path) (names : List String) :
    tree.obstacle? whole reached names = none ∨
      tree.obstacle? whole reached names = some (.notDirectory whole.text) ∨
        tree.obstacle? whole reached names = some (.absent whole.text) := by
  induction names generalizing reached with
  | nil => exact .inl rfl
  | cons name rest ih =>
      rw [obstacle?]
      split
      · exact ih _
      · exact .inr (.inl rfl)
      · exact .inr (.inr rfl)

/-- Following short names either meets the first obstacle or enters the last name. -/
theorem follow_append (short : AreShort names) (last : String) :
    tree.follow whole reached (names ++ [last]) =
      match tree.obstacle? whole reached names with
      | some fault => .error fault
      | none => (checkName whole last).map fun _ => enter (walk reached names) last := by
  induction names generalizing reached with
  | nil => rfl
  | cons name rest ih =>
      have restShort : AreShort rest := fun other mem => short other (List.mem_cons_of_mem _ mem)
      have isShort : checkName whole name = .ok () :=
        checkName_of_short (short name List.mem_cons_self)
      obtain ⟨next, others, shape⟩ : ∃ next others, rest ++ [last] = next :: others := by
        cases rest with
        | nil => exact ⟨_, _, rfl⟩
        | cons first more => exact ⟨_, _, rfl⟩
      rw [List.cons_append, shape, follow, isShort, ok_bind, ← shape, obstacle?, walk,
        List.foldl_cons]
      cases stands : tree.node? (enter reached name) with
      | none => rfl
      | some node =>
          cases node with
          | file content => rfl
          | directory => exact ih restShort

theorem short_of_checkName (checked : checkName whole name = .ok ()) :
    name.utf8ByteSize ≤ longestName := by
  unfold checkName at checked
  split at checked
  · cases checked
  · omega

/-- Only names that are short are followed to the end. -/
theorem areShort_of_follow {located : Path}
    (follows : tree.follow whole reached names = .ok located) :
    AreShort names := by
  induction names generalizing reached with
  | nil => exact fun _ mem => absurd mem List.not_mem_nil
  | cons name rest ih =>
      have parts : name.utf8ByteSize ≤ longestName ∧ AreShort rest := by
        cases rest with
        | nil =>
            rcases map_eq_ok_iff.mp follows with ⟨_, checked, -⟩
            exact ⟨short_of_checkName checked, fun _ mem => absurd mem List.not_mem_nil⟩
        | cons next more =>
            rcases bind_eq_ok_iff.mp follows with ⟨_, checked, followsRest⟩
            refine ⟨short_of_checkName checked, ?_⟩
            split at followsRest
            · exact ih followsRest
            · cases followsRest
            · cases followsRest
      intro other mem
      rcases List.mem_cons.mp mem with rfl | later
      · exact parts.1
      · exact parts.2 other later

theorem areShort_of_locate {path located : Path} (isLocated : tree.locate path = .ok located) :
    AreShort path := by
  rcases bind_eq_ok_iff.mp isLocated with ⟨-, -, follows⟩
  exact areShort_of_follow follows

theorem walk_of_follow {located : Path} (follows : tree.follow whole reached names = .ok located) :
    located = walk reached names := by
  induction names generalizing reached with
  | nil => exact (Except.ok.inj follows).symm
  | cons name rest ih =>
      cases rest with
      | nil =>
          rcases map_eq_ok_iff.mp follows with ⟨_, -, rfl⟩
          rfl
      | cons next more =>
          rcases bind_eq_ok_iff.mp follows with ⟨_, -, followsRest⟩
          split at followsRest
          · exact ih followsRest
          · cases followsRest
          · cases followsRest

/-- A path that leads anywhere leads where its names do. -/
theorem walk_of_locate {path located : Path} (isLocated : tree.locate path = .ok located) :
    located = walk [] path := by
  rcases bind_eq_ok_iff.mp isLocated with ⟨-, -, follows⟩
  exact walk_of_follow follows

/-- A way on which the same stands in two trees has the same obstacle. -/
theorem obstacle?_congr
    (same : ∀ n, 0 < n → n ≤ names.length →
      made.node? (walk reached (names.take n)) = tree.node? (walk reached (names.take n))) :
    made.obstacle? whole reached names = tree.obstacle? whole reached names := by
  induction names generalizing reached with
  | nil => rfl
  | cons name rest ih =>
      have first : made.node? (enter reached name) = tree.node? (enter reached name) :=
        same 1 Nat.one_pos (Nat.succ_le_succ (Nat.zero_le _))
      rw [obstacle?, obstacle?, first]
      have further : made.obstacle? whole (enter reached name) rest =
          tree.obstacle? whole (enter reached name) rest :=
        ih fun n positive bound => same (n + 1) n.succ_pos (Nat.succ_le_succ bound)
      rw [further]

/-- A way is open exactly if everything on it is a directory. -/
theorem obstacle?_eq_none_iff :
    tree.obstacle? whole reached names = none ↔
      ∀ n, 0 < n → n ≤ names.length →
        tree.node? (walk reached (names.take n)) = some .directory := by
  constructor
  · intro isOpen n positive bound
    induction names generalizing reached n with
    | nil => exact absurd (Nat.lt_of_lt_of_le positive bound) (Nat.lt_irrefl 0)
    | cons name rest ih =>
        rw [obstacle?] at isOpen
        split at isOpen
        · rename_i stands
          obtain ⟨m, rfl⟩ : ∃ m, n = m + 1 := ⟨n - 1, by omega⟩
          rw [List.take_succ_cons, walk, List.foldl_cons]
          cases m with
          | zero => exact stands
          | succ m => exact ih isOpen (m + 1) m.succ_pos (Nat.le_of_succ_le_succ bound)
        · cases isOpen
        · cases isOpen
  · intro stands
    induction names generalizing reached with
    | nil => rfl
    | cons name rest ih =>
        have first : tree.node? (enter reached name) = some .directory :=
          stands 1 Nat.one_pos (Nat.succ_le_succ (Nat.zero_le _))
        rw [obstacle?, first]
        exact ih fun n positive bound => stands (n + 1) n.succ_pos (Nat.succ_le_succ bound)

/-- From a directory inwards, a way is open exactly if it ends in a directory. -/
theorem IsProper.open_iff (proper : tree.IsProper) (whole : Path) (inwards : LeadInwards names)
    (stands : tree.node? reached = some .directory) :
    tree.obstacle? whole reached names = none ↔
      tree.node? (reached ++ names) = some .directory := by
  constructor
  · intro isOpen
    cases names with
    | nil => rwa [List.append_nil]
    | cons name rest =>
        have atEnd := obstacle?_eq_none_iff.mp isOpen (name :: rest).length
          (Nat.succ_pos rest.length) (Nat.le_refl _)
        rwa [List.take_length, walk_of_leadInwards inwards] at atEnd
  · intro atEnd
    induction names generalizing reached with
    | nil => rfl
    | cons name rest ih =>
        have restInwards : LeadInwards rest := fun other mem =>
          inwards other (List.mem_cons_of_mem _ mem)
        rw [← List.singleton_append, ← List.append_assoc] at atEnd
        have next : tree.node? (reached ++ [name]) = some .directory := by
          cases rest with
          | nil => rwa [List.append_nil] at atEnd
          | cons other more =>
              exact proper.directory_of_node?_append atEnd (List.cons_ne_nil _ _)
        rw [obstacle?, enter_of_ne (inwards name List.mem_cons_self), next]
        exact ih restInwards next atEnd

/-- A file is in the way where something that is no directory is. -/
theorem exists_file_of_obstacle?
    (isObstacle : tree.obstacle? whole reached names = some (.notDirectory whole.text)) :
    ∃ n content, 0 < n ∧ n ≤ names.length ∧
      tree.node? (walk reached (names.take n)) = some (.file content) := by
  induction names generalizing reached with
  | nil => cases isObstacle
  | cons name rest ih =>
      rw [obstacle?] at isObstacle
      split at isObstacle
      · rcases ih isObstacle with ⟨n, content, -, bound, stands⟩
        exact ⟨n + 1, content, n.succ_pos, Nat.succ_le_succ bound, stands⟩
      · rename_i content stands
        exact ⟨1, content, Nat.one_pos, Nat.succ_le_succ (Nat.zero_le _), stands⟩
      · cases isObstacle

/-! ## What is read -/

/-- The content of what stands at a path, if it is a file. -/
def contentOf (whole : Path) : Option Node → FileOutcome String
  | some (.file content) => .ok content
  | some .directory => .error (.isDirectory whole.text)
  | none => .error (.absent whole.text)

/-- Where names lead, or the refusal of what is in the way. -/
theorem locate_append (short : AreShort names) (last : String) :
    tree.locate (names ++ [last]) =
      (checkPath (names ++ [last]) >>= fun _ =>
        match tree.obstacle? (names ++ [last]) [] names with
        | some fault => .error fault
        | none =>
            (checkName (names ++ [last]) last).map fun _ => enter (walk [] names) last) := by
  rw [locate]
  exact congrArg (checkPath (names ++ [last]) >>= ·) (funext fun _ => follow_append short last)

/-- A file is read where its way is open. -/
theorem read_append (short : AreShort names) (last : String) :
    tree.read (names ++ [last]) =
      (checkPath (names ++ [last]) >>= fun _ =>
        match tree.obstacle? (names ++ [last]) [] names with
        | some fault => .error fault
        | none =>
            checkName (names ++ [last]) last >>= fun _ =>
              contentOf (names ++ [last]) (tree.node? (enter (walk [] names) last))) := by
  rw [read, locate_append short]
  cases checkPath (names ++ [last]) with
  | error fault => rfl
  | ok _ =>
      rw [ok_bind, ok_bind]
      cases tree.obstacle? (names ++ [last]) [] names with
      | some fault => rfl
      | none =>
          dsimp only
          cases checkName (names ++ [last]) last with
          | error fault => rfl
          | ok _ =>
              rw [ok_bind]
              change (match tree.node? (enter (walk [] names) last) with
                | some (.file content) => pure content
                | some .directory => throw (FileFault.isDirectory _)
                | none => throw (FileFault.absent _)) = _
              cases tree.node? (enter (walk [] names) last) with
              | none => rfl
              | some node => cases node <;> rfl

/-- The way to a directory that is there is open. -/
theorem obstacle?_of_locate {directory place : Path} (isLocated : tree.locate directory = .ok place)
    (stands : tree.node? place = some .directory) (whole : Path) :
    tree.obstacle? whole [] directory = none := by
  have short := areShort_of_locate isLocated
  have atEnd := walk_of_locate isLocated
  induction directory using List.reverseRecOn with
  | nil => rfl
  | append_singleton names last _ =>
      have frontShort : AreShort names := fun other mem => short other (List.mem_append_left _ mem)
      have isOpen : tree.obstacle? whole [] names = none := by
        rw [locate_append frontShort] at isLocated
        rcases bind_eq_ok_iff.mp isLocated with ⟨_, -, passes⟩
        split at passes
        · cases passes
        · rename_i isOpen
          exact obstacle?_eq_none_iff.mpr (obstacle?_eq_none_iff.mp isOpen)
      rw [walk_append] at atEnd
      have lastStands : tree.node? (enter (walk [] names) last) = some .directory := by
        rw [← stands, atEnd]
        rfl
      rw [obstacle?_append, isOpen, obstacle?, lastStands]
      rfl

/-- What is read in a directory that is there. -/
theorem read_of_locate {directory place : Path} (isLocated : tree.locate directory = .ok place)
    (stands : tree.node? place = some .directory) (inwards : name ≠ Path.outwards) :
    tree.read (directory ++ [name]) =
      (checkPath (directory ++ [name]) >>= fun _ =>
        checkName (directory ++ [name]) name >>= fun _ =>
          contentOf (directory ++ [name]) (tree.node? (place ++ [name]))) := by
  have isOpen := obstacle?_of_locate isLocated stands (directory ++ [name])
  have passes : tree.read (directory ++ [name]) = _ :=
    read_append (areShort_of_locate isLocated) name
  rw [isOpen, enter_of_ne inwards, ← walk_of_locate isLocated] at passes
  exact passes

theorem read_eq_ok_iff {path : Path} {content : String} :
    tree.read path = .ok content ↔
      ∃ located, tree.locate path = .ok located ∧
        tree.node? located = some (.file content) := by
  rw [read, bind_eq_ok_iff]
  refine exists_congr fun located => and_congr_right fun _ => ?_
  split <;> simp_all [pure, Except.pure, throw, throwThe, MonadExceptOf.throw]

/-! ## Operations that are not refused -/

theorem write_eq_ok_iff {path : Path} {content : String} {left : FileTree} :
    tree.write path content = .ok left ↔
      ∃ located, tree.locate path = .ok located ∧ tree.node? located ≠ some .directory ∧
        left = tree.put located (.file content) := by
  rw [write, bind_eq_ok_iff]
  refine exists_congr fun located => and_congr_right fun _ => ?_
  split
  · rename_i isDirectory
    simp [isDirectory, throw, throwThe, MonadExceptOf.throw]
  · rename_i closed
    simp only [pure_eq_ok_iff, eq_comm (a := left), ne_eq]
    exact (and_iff_right closed).symm

theorem move_eq_ok_iff {source target : Path} {left : FileTree} :
    tree.move source target = .ok left ↔
      ∃ start stop content, tree.locate source = .ok start ∧
        tree.node? start = some (.file content) ∧ tree.locate target = .ok stop ∧
        tree.node? stop ≠ some .directory ∧
        left = (tree.erase start).put stop (.file content) := by
  rw [move, bind_eq_ok_iff]
  constructor
  · rintro ⟨content, isRead, rest⟩
    rcases read_eq_ok_iff.mp isRead with ⟨start, located, isFile⟩
    rcases bind_eq_ok_iff.mp rest with ⟨again, locatedAgain, rest⟩
    rcases bind_eq_ok_iff.mp rest with ⟨stop, locatedTarget, rest⟩
    rw [located] at locatedAgain
    cases locatedAgain
    refine ⟨start, stop, content, located, isFile, locatedTarget, ?_⟩
    split at rest
    · cases rest
    · rename_i closed
      rw [pure_eq_ok_iff] at rest
      exact ⟨closed, rest.symm⟩
  · rintro ⟨start, stop, content, located, isFile, locatedTarget, closed, rfl⟩
    refine ⟨content, read_eq_ok_iff.mpr ⟨start, located, isFile⟩, ?_⟩
    rw [located, ok_bind, locatedTarget, ok_bind]
    split
    · rename_i isDirectory
      exact absurd isDirectory closed
    · rfl

/-! ## Opening a way -/

/-- A tree into which empty directories were put, where nothing was. -/
def AddsDirectories (tree made : FileTree) (isNew : Path → Prop) : Prop :=
  ∀ path, made.node? path = tree.node? path ∨
    tree.node? path = none ∧ made.node? path = some .directory ∧ isNew path

/-- What making directories does on a way that leads inwards. -/
theorem makeFrom_spec (proper : tree.IsProper) (inwards : LeadInwards names)
    (stands : tree.node? reached = some .directory)
    (makes : tree.makeFrom whole reached names = .ok made) :
    made.IsProper ∧ made.node? (reached ++ names) = some .directory ∧
      tree.AddsDirectories made fun path =>
        ∃ n, 0 < n ∧ n ≤ names.length ∧ path = reached ++ names.take n := by
  induction names generalizing tree reached with
  | nil =>
      cases makes
      exact ⟨proper, by rwa [List.append_nil], fun path => .inl rfl⟩
  | cons name rest ih =>
      have restInwards : LeadInwards rest := fun other mem =>
        inwards other (List.mem_cons_of_mem _ mem)
      rcases bind_eq_ok_iff.mp makes with ⟨-, -, makesRest⟩
      dsimp only at makesRest
      rw [enter_of_ne (inwards name List.mem_cons_self)] at makesRest
      have further (n : Nat) : reached ++ [name] ++ rest.take n =
          reached ++ (name :: rest).take (n + 1) := by simp
      cases next : tree.node? (reached ++ [name]) with
      | some node =>
          rw [next] at makesRest
          cases node with
          | file content => cases makesRest
          | directory =>
              rcases ih proper restInwards next makesRest with ⟨stillProper, atEnd, adds⟩
              refine ⟨stillProper, by simpa using atEnd, fun path => ?_⟩
              rcases adds path with same | ⟨absent, isDirectory, n, -, bound, rfl⟩
              · exact .inl same
              · exact .inr ⟨absent, isDirectory, n + 1, n.succ_pos, Nat.succ_le_succ bound,
                  further n⟩
      | none =>
          rw [next] at makesRest
          have closed := closed_of_absent next
          have putAt := node?_put tree .directory (not_isTop_of_closed closed)
          have nextProper : (tree.put (reached ++ [name]) .directory).IsProper := by
            apply proper.put .directory closed
            rwa [List.dropLast_concat]
          have isThere : (tree.put (reached ++ [name]) .directory).node? (reached ++ [name]) =
              some .directory := by
            rw [putAt, if_pos rfl]
          rcases ih nextProper restInwards isThere makesRest with ⟨stillProper, atEnd, adds⟩
          refine ⟨stillProper, by simpa using atEnd, fun path => ?_⟩
          rcases adds path with same | ⟨isAbsent, isDirectory, n, -, bound, rfl⟩
          · rw [putAt] at same
            split at same
            · rename_i here
              subst here
              exact .inr ⟨next, same, 1, Nat.one_pos, Nat.succ_le_succ (Nat.zero_le _), by simp⟩
            · exact .inl same
          · rw [putAt] at isAbsent
            split at isAbsent
            · cases isAbsent
            · exact .inr ⟨isAbsent, isDirectory, n + 1, n.succ_pos, Nat.succ_le_succ bound,
                further n⟩

/-- Directories that are there are passed through. -/
theorem makeFrom_append (short : AreShort names)
    (isOpen : tree.obstacle? whole reached names = none) (more : List String) :
    tree.makeFrom whole reached (names ++ more) =
      tree.makeFrom whole (walk reached names) more := by
  induction names generalizing reached with
  | nil => rfl
  | cons name rest ih =>
      have restShort : AreShort rest := fun other mem => short other (List.mem_cons_of_mem _ mem)
      rw [obstacle?] at isOpen
      split at isOpen
      · rename_i stands
        rw [List.cons_append, makeFrom, checkName_of_short (short name List.mem_cons_self), ok_bind]
        dsimp only
        rw [stands]
        exact ih restShort isOpen
      · cases isOpen
      · cases isOpen

/-- Only names that are short are made directories of. -/
theorem areShort_of_makeFrom (makes : tree.makeFrom whole reached names = .ok made) :
    AreShort names := by
  induction names generalizing tree reached with
  | nil => exact fun _ mem => absurd mem List.not_mem_nil
  | cons name rest ih =>
      rcases bind_eq_ok_iff.mp makes with ⟨_, checked, makesRest⟩
      have restShort : AreShort rest := by
        dsimp only at makesRest
        split at makesRest
        · exact ih makesRest
        · cases makesRest
        · exact ih makesRest
      intro other mem
      rcases List.mem_cons.mp mem with rfl | later
      · exact short_of_checkName checked
      · exact restShort other later

/-- Directories can be made on a way without files. -/
theorem exists_makeFrom (proper : tree.IsProper) (short : AreShort names)
    (inwards : LeadInwards names) (stands : tree.node? reached = some .directory)
    (noFile : tree.obstacle? whole reached names ≠ some (.notDirectory whole.text)) :
    ∃ made, tree.makeFrom whole reached names = .ok made := by
  induction names generalizing tree reached with
  | nil => exact ⟨tree, rfl⟩
  | cons name rest ih =>
      have restShort : AreShort rest := fun other mem => short other (List.mem_cons_of_mem _ mem)
      have restInwards : LeadInwards rest := fun other mem =>
        inwards other (List.mem_cons_of_mem _ mem)
      rw [makeFrom, checkName_of_short (short name List.mem_cons_self), ok_bind]
      rw [obstacle?] at noFile
      rw [enter_of_ne (inwards name List.mem_cons_self)] at noFile ⊢
      dsimp only
      cases next : tree.node? (reached ++ [name]) with
      | none =>
          have closed := closed_of_absent next
          have putAt := node?_put tree .directory (not_isTop_of_closed closed)
          have nextProper : (tree.put (reached ++ [name]) .directory).IsProper := by
            apply proper.put .directory closed
            rwa [List.dropLast_concat]
          apply ih nextProper restShort restInwards
          · rw [putAt, if_pos rfl]
          · intro isFile
            rcases exists_file_of_obstacle? isFile with ⟨n, content, positive, bound, atFile⟩
            rw [walk_of_leadInwards fun other mem => restInwards other (List.mem_of_mem_take mem),
              putAt] at atFile
            split at atFile
            · cases atFile
            · have around := proper.directory_of_node?_append atFile (by
                intro nothing
                rw [List.take_eq_nil_iff] at nothing
                rcases nothing with rfl | rfl
                · exact absurd positive (Nat.lt_irrefl 0)
                · exact absurd (Nat.lt_of_lt_of_le positive bound) (Nat.lt_irrefl 0))
              exact closed around
      | some node =>
          rw [next] at noFile
          cases node with
          | file content => exact absurd rfl noFile
          | directory => exact ih proper restShort restInwards next noFile

/-- Opening a way leaves what is in another way, or opens it where it leads to nothing. -/
theorem IsProper.obstacle?_of_addsDirectories {isNew : Path → Prop} (proper : tree.IsProper)
    (whole : Path) (adds : tree.AddsDirectories made isNew) (inwards : LeadInwards names)
    (stands : tree.node? reached = some .directory) :
    made.obstacle? whole reached names = tree.obstacle? whole reached names ∨
      tree.obstacle? whole reached names = some (.absent whole.text) ∧
        made.obstacle? whole reached names = none ∧ tree.node? (reached ++ names) = none := by
  induction names generalizing reached with
  | nil => exact .inl rfl
  | cons name rest ih =>
      have restInwards : LeadInwards rest := fun other mem =>
        inwards other (List.mem_cons_of_mem _ mem)
      rw [obstacle?, obstacle?, enter_of_ne (inwards name List.mem_cons_self)]
      rcases adds (reached ++ [name]) with same | ⟨absent, isDirectory, -⟩
      · rw [same]
        split
        · rename_i next
          have further := ih restInwards next
          rwa [List.append_assoc, List.singleton_append] at further
        · exact .inl rfl
        · exact .inl rfl
      · have nothing : ∀ more, tree.node? (reached ++ [name] ++ more) = none := by
          intro more
          by_contra something
          rcases Option.ne_none_iff_exists'.mp something with ⟨node, isNode⟩
          cases more with
          | nil =>
              rw [List.append_nil, absent] at isNode
              cases isNode
          | cons other others =>
              have around := proper.directory_of_node?_append isNode (List.cons_ne_nil _ _)
              rw [absent] at around
              cases around
        rw [absent, isDirectory]
        dsimp only
        rcases made.obstacle?_cases whole (reached ++ [name]) rest with isOpen | isFile | isAbsent
        · refine .inr ⟨rfl, isOpen, ?_⟩
          rw [← List.singleton_append, ← List.append_assoc]
          exact nothing rest
        · rcases exists_file_of_obstacle? isFile with ⟨n, content, -, -, atFile⟩
          rw [walk_of_leadInwards fun other mem => restInwards other (List.mem_of_mem_take mem)]
            at atFile
          rcases adds (reached ++ [name] ++ rest.take n) with same | ⟨-, isDirectory, -⟩
          · rw [same, nothing] at atFile
            cases atFile
          · rw [isDirectory] at atFile
            cases atFile
        · exact .inl isAbsent

end Eaves.FileTree
