import Eaves.Proofs.Files.Site
import Eaves.Proofs.Record.Document
import Eaves.Proofs.Sorting
import Eaves.Store.Directory
import Mathlib.Data.List.Sort
import Mathlib.Data.String.Basic

/-!
# Records in a directory

The file of a record is named by the id and an ending, and the id is found again by
cutting the ending off.  The file that a record is first written to has another ending,
so no id gives it the name of a record, and no listing looks at it.

What is loaded of a record depends on what is read at its path, and what is listed for
a user on the names in the user's directory and on what is loaded by each of them.
-/

namespace Eaves.DirectoryStore

open Outcome
open FileTree (Site longestName IsProper)

variable {tree left : FileTree} {root : Path} {userId designId key : String} {site : Site}
  {design : SavedDesign}

/-! ## Keys and names -/

theorem ne_outwards_of_isKey (accepted : isKey key = true) : key ≠ Path.outwards := by
  simp only [isKey, Bool.and_eq_true, bne_iff_ne] at accepted
  exact accepted.2

theorem toList_ne_nil_of_isKey (accepted : isKey key = true) : key.toList ≠ [] := by
  intro nothing
  simp [isKey, nothing, dropLineFeed] at accepted

theorem append_ending_ne_outwards (key : String) :
    key ++ recordEnding ≠ Path.outwards ∧ key ++ draftEnding ≠ Path.outwards := by
  constructor
  all_goals
    intro same
    have lengths := congrArg String.length same
    simp only [String.length_append] at lengths
    have dots : Path.outwards.length = 2 := rfl
  · have ending : recordEnding.length = 5 := rfl
    omega
  · have ending : draftEnding.length = 9 := rfl
    omega

theorem append_left_injective {ending first second : String}
    (same : first ++ ending = second ++ ending) : first = second := by
  have lists := congrArg String.toList same
  rw [String.toList_append, String.toList_append] at lists
  exact String.toList_injective (List.append_cancel_right lists)

/-- The name of a record is cut into the id and the ending. -/
theorem cutEnding_append (notNil : key.toList ≠ []) :
    Path.cutEnding (key ++ recordEnding) = (key, recordEnding) := by
  have shape : (key ++ recordEnding).toList = key.toList ++ ['.', 'j', 's', 'o', 'n'] :=
    String.toList_append
  have ending : ((key ++ recordEnding).toList.reverse.takeWhile (· ≠ '.')).reverse =
      ['j', 's', 'o', 'n'] := by
    rw [shape, List.reverse_append]
    rfl
  have start : (key ++ recordEnding).toList.take
      ((key ++ recordEnding).toList.length - ['j', 's', 'o', 'n'].length - 1) = key.toList := by
    rw [shape]
    simp
  unfold Path.cutEnding
  dsimp only
  rw [ending, start, if_pos]
  · rw [String.ofList_toList]
    rfl
  · refine ⟨?_, rfl, ?_⟩
    · rw [shape, List.length_append]
      simp
    · simpa using notNil

theorem isRecordName_append (key : String) : isRecordName (key ++ recordEnding) = true := by
  rw [isRecordName, List.isSuffixOf_iff_suffix, String.toList_append]
  exact List.suffix_append _ _

/-- The file that a record is first written to has no name of a record. -/
theorem isRecordName_draft (key : String) : isRecordName (key ++ draftEnding) = false := by
  rw [Bool.eq_false_iff]
  intro isRecord
  rw [isRecordName, List.isSuffixOf_iff_suffix, String.toList_append] at isRecord
  rcases isRecord with ⟨front, same⟩
  have lasts := congrArg List.getLast? same
  have recordLast : recordEnding.toList.getLast? = some 'n' := rfl
  have draftLast : draftEnding.toList.getLast? = some 'p' := rfl
  rw [List.getLast?_append, List.getLast?_append, recordLast, draftLast] at lasts
  exact absurd lasts (by simp)

/-- A record and the file that one is first written to have different names. -/
theorem record_ne_draft (key other : String) : key ++ recordEnding ≠ other ++ draftEnding := by
  intro same
  have isRecord := isRecordName_append key
  rw [same, isRecordName_draft] at isRecord
  cases isRecord

/-- A key that is accepted for a user: its directory can have this name. -/
structure IsUser (userId : String) : Prop where
  isKey : isKey userId = true
  short : userId.utf8ByteSize ≤ longestName

/-- A key that is accepted for a record: its file can have this name. -/
structure IsDesign (designId : String) : Prop where
  isKey : isKey designId = true
  short : (designId ++ recordEnding).utf8ByteSize ≤ longestName

theorem IsUser.inwards {userId : String} (isUser : IsUser userId) : userId ≠ Path.outwards :=
  ne_outwards_of_isKey isUser.isKey

/-! ## Paths -/

theorem userDirectory_eq_ok_iff {path : Path} :
    userDirectory root userId = .ok path ↔ isKey userId = true ∧ path = root ++ [userId] := by
  unfold userDirectory checkKey
  split
  · rename_i accepted
    simp [Except.map, accepted, eq_comm]
  · rename_i refused
    simp [Except.map, refused]

theorem recordPath_eq_ok_iff {path : Path} :
    recordPath root userId designId = .ok path ↔
      isKey userId = true ∧ isKey designId = true ∧
        path = root ++ [userId] ++ [designId ++ recordEnding] := by
  unfold recordPath
  rw [bind_eq_ok_iff]
  simp only [userDirectory_eq_ok_iff, bind_eq_ok_iff, pure_eq_ok_iff, checkKey]
  constructor
  · rintro ⟨directory, ⟨userKey, rfl⟩, key, checked, rfl⟩
    split at checked
    · rename_i idKey
      cases checked
      exact ⟨userKey, idKey, rfl⟩
    · cases checked
  · rintro ⟨userKey, idKey, rfl⟩
    exact ⟨_, ⟨userKey, rfl⟩, designId, if_pos idKey, rfl⟩

theorem draftPath_eq (accepted : isKey designId = true) :
    draftPath (root ++ [userId] ++ [designId ++ recordEnding]) =
      root ++ [userId] ++ [designId ++ draftEnding] := by
  have stem : Path.stem (root ++ [userId] ++ [designId ++ recordEnding]) = designId := by
    rw [Path.stem, Path.name, List.getLast?_concat, Option.getD_some,
      cutEnding_append (toList_ne_nil_of_isKey accepted)]
  rw [draftPath, stem, Path.parent, List.dropLast_concat]

/-! ## Writing and moving -/

/-- A write below a site puts the file into a directory that is there. -/
theorem write_spec (stands : site.StandsIn tree) (proper : tree.IsProper)
    (isUser : IsUser userId) {name content : String} (inwards : name ≠ Path.outwards)
    (writes : tree.write (site.root ++ [userId] ++ [name]) content = .ok left) :
    left.IsProper ∧ Site.DifferAt tree left (site.place ++ [userId] ++ [name]) ∧
      left.node? (site.place ++ [userId] ++ [name]) = some (.file content) := by
  rcases FileTree.write_eq_ok_iff.mp writes with ⟨located, isLocated, closed, rfl⟩
  rcases (stands.locate_eq_ok_iff proper isUser.inwards isUser.short inwards).mp isLocated with
    ⟨-, isDirectory, -, rfl⟩
  refine ⟨proper.put _ closed ?_, Site.differAt_put content closed, ?_⟩
  · rwa [List.dropLast_concat]
  · rw [FileTree.node?_put _ _ (FileTree.not_isTop_of_closed closed), if_pos rfl]

/-- A move below a site: a file is taken away, and its content is put in another place. -/
structure Moves (site : Site) (tree cleared left : FileTree)
    (userId source target content : String) : Prop where
  takes : Site.DifferAt tree cleared (site.place ++ [userId] ++ [source])
  clearedProper : cleared.IsProper
  puts : Site.DifferAt cleared left (site.place ++ [userId] ++ [target])
  leftProper : left.IsProper
  node?_eq : ∀ path, left.node? path =
    if path = site.place ++ [userId] ++ [target] then some (.file content)
    else if path = site.place ++ [userId] ++ [source] then none
    else tree.node? path
  read_eq : left.read (site.root ++ [userId] ++ [target]) = .ok content

theorem move_spec (stands : site.StandsIn tree) (proper : tree.IsProper) (isUser : IsUser userId)
    {source target content : String} (sourceInwards : source ≠ Path.outwards)
    (targetInwards : target ≠ Path.outwards) (apart : target ≠ source)
    (isFile : tree.node? (site.place ++ [userId] ++ [source]) = some (.file content))
    (moves : tree.move (site.root ++ [userId] ++ [source]) (site.root ++ [userId] ++ [target]) =
      .ok left) :
    ∃ cleared, Moves site tree cleared left userId source target content := by
  rcases FileTree.move_eq_ok_iff.mp moves with
    ⟨start, stop, moved, locatedSource, isMoved, locatedTarget, targetClosed, rfl⟩
  rcases (stands.locate_eq_ok_iff proper isUser.inwards isUser.short sourceInwards).mp locatedSource
    with ⟨-, -, -, rfl⟩
  rcases (stands.locate_eq_ok_iff proper isUser.inwards isUser.short targetInwards).mp locatedTarget
    with ⟨pathOk, isDirectory, nameOk, rfl⟩
  rw [isFile] at isMoved
  cases isMoved
  have sourceClosed := FileTree.closed_of_file isFile
  have elsewhere : site.place ++ [userId] ++ [target] ≠ site.place ++ [userId] ++ [source] :=
    fun same => apart (List.append_singleton_inj.mp same).2
  have below : ∀ name : String, site.place ++ [userId] ≠ site.place ++ [userId] ++ [name] := by
    intro name same
    have lengths := congrArg List.length same
    simp at lengths
  have takes := Site.differAt_erase sourceClosed
  have clearedProper := proper.erase sourceClosed
  have clearedAt := FileTree.node?_erase tree (FileTree.not_isTop_of_closed sourceClosed)
  have stillClosed : (tree.erase (site.place ++ [userId] ++ [source])).node?
      (site.place ++ [userId] ++ [target]) ≠ some .directory := by
    rw [takes.elsewhere _ elsewhere]
    exact targetClosed
  have stillDirectory : (tree.erase (site.place ++ [userId] ++ [source])).node?
      (site.place ++ [userId]) = some .directory := by
    rw [takes.elsewhere _ (below source), isDirectory]
  generalize tree.erase (site.place ++ [userId] ++ [source]) = cleared at *
  have puts := Site.differAt_put content stillClosed
  have leftProper := clearedProper.put (.file content) stillClosed (by
    rwa [List.dropLast_concat])
  have leftAt := FileTree.node?_put cleared (.file content)
    (FileTree.not_isTop_of_closed stillClosed)
  have leftStands := (stands.of_differAt takes).of_differAt puts
  refine ⟨cleared, takes, clearedProper, puts, leftProper, fun path => ?_, ?_⟩
  · rw [leftAt, clearedAt]
  · refine FileTree.read_eq_ok_iff.mpr ⟨_, (leftStands.locate_eq_ok_iff leftProper isUser.inwards
      isUser.short targetInwards).mpr ⟨pathOk, ?_, nameOk, rfl⟩, ?_⟩
    · rw [puts.elsewhere _ (below target), stillDirectory]
    · rw [leftAt, if_pos rfl]

theorem liftFile_eq_ok_iff {α : Type} {outcome : FileOutcome α} {result : α} :
    liftFile outcome = .ok result ↔ outcome = .ok result := by
  cases outcome <;> simp [liftFile, Except.mapError]

/-- Saving makes its steps where the keys are accepted. -/
theorem save_eq {path : Path} (isPath : recordPath root design.userId design.id = .ok path) :
    save tree root design =
      ((runSteps tree (saveSteps path design)).1,
        liftFile (runSteps tree (saveSteps path design)).2) := by
  unfold save
  rw [isPath]

/-! ## Loading -/

/-- What is loaded where a file is read: nothing where there is none. -/
def loaded : FileOutcome String → Outcome (Option SavedDesign)
  | .ok text => .ok (SavedDesign.ofDocument? text)
  | .error (.absent _) => .ok none
  | .error fault => .error (.file fault)

theorem load_eq (userKey : isKey userId = true) (idKey : isKey designId = true) :
    load tree root userId designId =
      loaded (tree.read (root ++ [userId] ++ [designId ++ recordEnding])) := by
  unfold load
  rw [recordPath_eq_ok_iff.mpr ⟨userKey, idKey, rfl⟩, ok_bind]
  cases tree.read (root ++ [userId] ++ [designId ++ recordEnding]) with
  | ok text => rfl
  | error fault => cases fault <;> rfl

/-- A record under accepted keys is loaded from its own document, in the form that a document keeps
it in. -/
theorem ofDocument?_of_isKey (userKey : isKey design.userId = true)
    (designKey : isKey design.id = true) (lasting : design.IsLasting) :
    SavedDesign.ofDocument? design.document = some design.kept := by
  have notEmpty {key : String} (accepted : isKey key = true) : key ≠ "" := by
    rintro rfl
    exact toList_ne_nil_of_isKey accepted rfl
  exact SavedDesign.ofDocument?_document (notEmpty designKey) (notEmpty userKey) lasting

/-! ## Listing -/

/-- The names of records in a place, in order. -/
def recordsAt (tree : FileTree) (place : Path) : List String :=
  ((tree.namesAt place).filter isRecordName).mergeSort fun a b => decide (a ≤ b)

/-- The designs of records by their names. -/
def loadEach (tree : FileTree) (root : Path) (userId : String) (names : List String) :
    Outcome (List SavedDesign) := do
  let designs ← names.mapM fun name => load tree root userId (Path.cutEnding name).1
  return designs.filterMap fun design => design

theorem not_isTop_below {path : Path} (inwards : userId ≠ Path.outwards) (name : String) :
    ¬ FileTree.IsTop (path ++ [userId] ++ [name]) := by
  intro isTop
  rcases isTop.of_append with outwards | isRoot
  · rw [List.all_append, Bool.and_eq_true] at outwards
    have isOutwards : userId = Path.outwards := by simpa using outwards.2
    exact inwards isOutwards
  · rcases isTop with outwards | isRootToo
    · rw [isRoot] at outwards
      exact absurd outwards (by simp [Path.root, Path.outwards])
    · rw [isRoot] at isRootToo
      simp at isRootToo

theorem mem_recordsAt_iff {path : Path} {name : String} (inwards : userId ≠ Path.outwards) :
    name ∈ recordsAt tree (path ++ [userId]) ↔
      isRecordName name = true ∧ tree.node? (path ++ [userId] ++ [name]) ≠ none := by
  rw [recordsAt, List.mem_mergeSort, List.mem_filter,
    FileTree.mem_namesAt_iff (not_isTop_below inwards name), and_comm]

/-- Records are listed in order of their names. -/
theorem pairwise_recordsAt (tree : FileTree) (place : Path) :
    (recordsAt tree place).Pairwise (· ≤ ·) :=
  Sorting.pairwise_le_mergeSort (fun name : String => name) _

theorem nodup_recordsAt (proper : tree.IsProper) (place : Path) : (recordsAt tree place).Nodup :=
  (List.mergeSort_perm _ _).nodup_iff.mpr ((proper.nodup_namesAt place).filter _)

/-- Lists of names in order, without repetition, are the same where their members are. -/
theorem eq_of_same_names {names others : List String} (inOrder : names.Pairwise (· ≤ ·))
    (othersInOrder : others.Pairwise (· ≤ ·)) (nodup : names.Nodup) (othersNodup : others.Nodup)
    (same : ∀ name, name ∈ names ↔ name ∈ others) : names = others :=
  List.Perm.eq_of_pairwise (fun _ _ _ _ => String.le_antisymm) inOrder othersInOrder
    ((List.perm_ext_iff_of_nodup nodup othersNodup).mpr same)

/-- The same records are listed where the same names are those of records. -/
theorem recordsAt_congr (proper : tree.IsProper) (leftProper : left.IsProper)
    (inwards : userId ≠ Path.outwards) {path : Path}
    (same : ∀ name, isRecordName name = true →
      left.node? (path ++ [userId] ++ [name]) = tree.node? (path ++ [userId] ++ [name])) :
    recordsAt left (path ++ [userId]) = recordsAt tree (path ++ [userId]) := by
  refine eq_of_same_names (pairwise_recordsAt _ _) (pairwise_recordsAt _ _)
    (nodup_recordsAt leftProper _) (nodup_recordsAt proper _) fun name => ?_
  rw [mem_recordsAt_iff inwards, mem_recordsAt_iff inwards]
  exact and_congr_right fun isRecord => by rw [same name isRecord]

/-- The same is loaded where the same is read. -/
theorem load_congr
    (same : isKey userId = true → isKey designId = true →
      left.read (root ++ [userId] ++ [designId ++ recordEnding]) =
        tree.read (root ++ [userId] ++ [designId ++ recordEnding])) :
    load left root userId designId = load tree root userId designId := by
  cases isPath : recordPath root userId designId with
  | error failure =>
      unfold load
      rw [isPath]
      rfl
  | ok path =>
      rcases recordPath_eq_ok_iff.mp isPath with ⟨userKey, designKey, -⟩
      rw [load_eq userKey designKey, load_eq userKey designKey, same userKey designKey]

theorem loadEach_congr {names : List String}
    (same : ∀ name ∈ names, load left root userId (Path.cutEnding name).1 =
      load tree root userId (Path.cutEnding name).1) :
    loadEach left root userId names = loadEach tree root userId names := by
  rw [loadEach, loadEach, mapM_congr same]

/-- Where there is no directory there are no records. -/
theorem recordsAt_eq_nil (proper : tree.IsProper) (inwards : userId ≠ Path.outwards) {path : Path}
    (noDirectory : tree.node? (path ++ [userId]) ≠ some .directory) :
    recordsAt tree (path ++ [userId]) = [] := by
  have noNames : tree.namesAt (path ++ [userId]) = [] := by
    rw [List.eq_nil_iff_forall_not_mem]
    intro name mem
    rw [FileTree.mem_namesAt_iff (not_isTop_below inwards name)] at mem
    rcases Option.ne_none_iff_exists'.mp mem with ⟨node, isNode⟩
    exact noDirectory (proper.directory_of_node? isNode)
  rw [recordsAt, noNames, List.filter_nil, List.mergeSort_nil]

theorem checkPath_cases (path : Path) :
    FileTree.checkPath path = .ok () ∨
      FileTree.checkPath path = .error (.nameTooLong path.text) := by
  unfold FileTree.checkPath
  split
  · exact .inr rfl
  · exact .inl rfl

/-- What is listed for a user is what is loaded by each name of a record in its directory. -/
theorem list_eq (stands : site.StandsIn tree) (proper : tree.IsProper)
    (userKey : isKey userId = true) (short : userId.utf8ByteSize ≤ longestName) :
    list tree site.root userId =
      (liftFile (FileTree.checkPath (site.root ++ [userId])) >>= fun _ =>
        loadEach tree site.root userId (recordsAt tree (site.place ++ [userId]))) := by
  have inwards := ne_outwards_of_isKey userKey
  have rootShort : FileTree.AreShort site.root := site.short
  have sameWay : tree.obstacle? (site.root ++ [userId]) [] site.root =
      tree.obstacle? (site.root ++ [userId]) site.base site.back := by
    have further := stands.obstacle?_eq (site.root ++ [userId]) []
    rwa [List.append_nil, List.append_nil] at further
  have atEnd : FileTree.enter (FileTree.walk [] site.root) userId = site.place ++ [userId] := by
    rw [FileTree.enter_of_ne inwards, Site.root, FileTree.walk_append,
      FileTree.walk_of_leadInwards site.inwards]
    rfl
  unfold list recordNames FileTree.isDirectory FileTree.look FileTree.names
  rw [userDirectory_eq_ok_iff.mpr ⟨userKey, rfl⟩, ok_bind, FileTree.locate_append rootShort,
    sameWay, atEnd, FileTree.checkName_of_short short]
  rcases checkPath_cases (site.root ++ [userId]) with checked | refused
  · rw [checked, ok_bind]
    have isOpen := proper.open_iff (site.root ++ [userId]) site.inwards
      stands.directory_base
    rcases tree.obstacle?_cases (site.root ++ [userId]) site.base site.back with
      way | way | way
    · rw [way]
      by_cases isDirectory : tree.node? (site.place ++ [userId]) = some .directory
      · simp only [Except.map, isDirectory]
        rfl
      · rw [recordsAt_eq_nil proper inwards isDirectory]
        have isNot : (tree.node? (site.place ++ [userId]) == some .directory) = false :=
          beq_false_of_ne isDirectory
        simp only [Except.map, liftFile, Except.mapError, isNot]
        rfl
    all_goals
      have noDirectory : tree.node? (site.place ++ [userId]) ≠ some .directory := by
        intro isDirectory
        have around := proper.directory_of_node? isDirectory
        rw [Site.place, ← isOpen, way] at around
        cases around
      rw [way, recordsAt_eq_nil proper inwards noDirectory]
      rfl
  · rw [refused]
    rfl

end Eaves.DirectoryStore
