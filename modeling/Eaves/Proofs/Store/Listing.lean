import Eaves.Proofs.Store.Interrupted

/-!
# Listing a directory of files

A listing looks at every file whose name has the ending of a record, and loads it by the
key that the ending is cut from.  A file that holds no valid record is passed over.  A name
that is no key is not: it is refused as a key is, and with it the listing, and so are a
directory under the name of a record and a path that is too long.  Where nothing of the
kind is in the directory, exactly the designs of its valid records are listed.
-/

namespace Eaves.DirectoryStore

open Outcome
open FileTree (longestName checkPath checkName)

variable {tree : FileTree} {root place : Path} {userId designId name : String}

/-! ## The key of a name -/

/-- The key that a file is loaded by. -/
def keyOf (name : String) : String :=
  (Path.cutEnding name).1

theorem keyOf_append {key : String} (notNil : key.toList ≠ []) :
    keyOf (key ++ recordEnding) = key := by
  rw [keyOf, cutEnding_append notNil]

/-- The name of a record is its key with the ending, unless it is the ending alone. -/
theorem append_keyOf (isRecord : isRecordName name = true) (more : name ≠ recordEnding) :
    keyOf name ++ recordEnding = name := by
  rw [isRecordName, List.isSuffixOf_iff_suffix] at isRecord
  obtain ⟨front, shape⟩ := isRecord
  have whole : name = String.ofList front ++ recordEnding := by
    apply String.toList_injective
    rw [String.toList_append, String.toList_ofList, shape]
  have notNil : (String.ofList front).toList ≠ [] := by
    rw [String.toList_ofList]
    rintro rfl
    apply more
    rw [whole]
    rfl
  rw [whole, keyOf_append notNil]

/-! ## What is loaded of a place -/

/-- The design in the record of a key, where a file stands there that holds a valid one. -/
def designAt (tree : FileTree) (place : Path) (key : String) : Option SavedDesign :=
  match tree.node? (place ++ [key ++ recordEnding]) with
  | some (.file content) => SavedDesign.ofDocument? content
  | _ => none

theorem designAt_eq_some_iff {key : String} {design : SavedDesign} :
    designAt tree place key = some design ↔
      ∃ content, tree.node? (place ++ [key ++ recordEnding]) = some (.file content) ∧
        SavedDesign.ofDocument? content = some design := by
  rw [designAt]
  split
  · rename_i content stands
    simp [stands]
  · rename_i noFile
    constructor
    · rintro ⟨⟩
    · rintro ⟨content, stands, -⟩
      exact absurd stands (noFile content)

/-- Why a record of a user cannot be loaded by its key. -/
inductive Refusal (tree : FileTree) (root place : Path) (userId designId : String) : Failure → Prop
  | unsafeKey : isKey designId = false →
      Refusal tree root place userId designId (.unsafeKey "design id" designId)
  | nameTooLong :
      checkPath (root ++ [userId] ++ [designId ++ recordEnding]) ≠ .ok () ∨
        longestName < (designId ++ recordEnding).utf8ByteSize →
      Refusal tree root place userId designId
        (.file (.nameTooLong (Path.text (root ++ [userId] ++ [designId ++ recordEnding]))))
  | isDirectory : tree.node? (place ++ [designId ++ recordEnding]) = some .directory →
      Refusal tree root place userId designId
        (.file (.isDirectory (Path.text (root ++ [userId] ++ [designId ++ recordEnding]))))

theorem recordPath_of_not_isKey (userKey : isKey userId = true) (noKey : isKey designId = false) :
    recordPath root userId designId = .error (.unsafeKey "design id" designId) := by
  rw [recordPath, userDirectory_eq_ok_iff.mpr ⟨userKey, rfl⟩, ok_bind, checkKey, noKey]
  rfl

theorem load_of_not_isKey (userKey : isKey userId = true) (noKey : isKey designId = false) :
    load tree root userId designId = .error (.unsafeKey "design id" designId) := by
  rw [load, recordPath_of_not_isKey userKey noKey]
  rfl

theorem not_refusal (designKey : isKey designId = true)
    (fits : checkPath (root ++ [userId] ++ [designId ++ recordEnding]) = .ok ())
    (short : (designId ++ recordEnding).utf8ByteSize ≤ longestName)
    (noDirectory : tree.node? (place ++ [designId ++ recordEnding]) ≠ some .directory)
    (failure : Failure) : ¬ Refusal tree root place userId designId failure := by
  intro refusal
  cases refusal with
  | unsafeKey noKey =>
      rw [designKey] at noKey
      cases noKey
  | nameTooLong long =>
      rcases long with pathLong | nameLong
      · exact pathLong fits
      · omega
  | isDirectory isDirectory => exact noDirectory isDirectory

/-- A record is loaded from its place, unless there is a reason to refuse it. -/
theorem load_of_place (userKey : isKey userId = true)
    (isLocated : tree.locate (root ++ [userId]) = .ok place)
    (stands : tree.node? place = some .directory) :
    (load tree root userId designId = .ok (designAt tree place designId) ∧
        ∀ failure, ¬ Refusal tree root place userId designId failure) ∨
      ∃ failure, load tree root userId designId = .error failure ∧
        Refusal tree root place userId designId failure := by
  by_cases designKey : isKey designId = true
  · have loads : load tree root userId designId = _ := load_eq userKey designKey
    rw [FileTree.read_of_locate isLocated stands (append_ending_ne_outwards designId).1] at loads
    rcases checkPath_cases (root ++ [userId] ++ [designId ++ recordEnding]) with fits | refused
    · by_cases short : (designId ++ recordEnding).utf8ByteSize ≤ longestName
      · rw [fits, ok_bind, FileTree.checkName_of_short short, ok_bind] at loads
        by_cases isDirectory :
            tree.node? (place ++ [designId ++ recordEnding]) = some .directory
        · rw [isDirectory] at loads
          exact .inr ⟨_, loads, .isDirectory isDirectory⟩
        · refine .inl ⟨?_, not_refusal designKey fits short isDirectory⟩
          rw [loads, designAt]
          cases found : tree.node? (place ++ [designId ++ recordEnding]) with
          | none => rfl
          | some node =>
              cases node with
              | file content => rfl
              | directory => exact absurd found isDirectory
      · have long : longestName < (designId ++ recordEnding).utf8ByteSize := by omega
        have tooLong : checkName (root ++ [userId] ++ [designId ++ recordEnding])
            (designId ++ recordEnding) = .error (.nameTooLong _) := if_pos long
        rw [fits, ok_bind, tooLong] at loads
        exact .inr ⟨_, loads, .nameTooLong (.inr long)⟩
    · rw [refused] at loads
      exact .inr ⟨_, loads, .nameTooLong (.inl (by rw [refused]; nofun))⟩
  · rw [Bool.not_eq_true] at designKey
    exact .inr ⟨_, load_of_not_isKey userKey designKey, .unsafeKey designKey⟩

/-! ## What is listed of a place -/

theorem isDirectory_eq_ok_true_iff {path : Path} :
    tree.isDirectory path = .ok true ↔
      ∃ place, tree.locate path = .ok place ∧ tree.node? place = some .directory := by
  rw [FileTree.isDirectory, FileTree.look, map_eq_ok_iff]
  constructor
  · rintro ⟨node, looked, isDirectory⟩
    rw [beq_iff_eq] at isDirectory
    subst isDirectory
    split at looked
    · rename_i place isLocated
      exact ⟨place, isLocated, Except.ok.inj looked⟩
    · cases looked
    · cases looked
  · rintro ⟨place, isLocated, stands⟩
    rw [isLocated]
    exact ⟨_, rfl, by rw [stands]; rfl⟩

theorem list_of_place (userKey : isKey userId = true)
    (isLocated : tree.locate (root ++ [userId]) = .ok place)
    (stands : tree.node? place = some .directory) :
    list tree root userId = loadEach tree root userId (recordsAt tree place) := by
  have isDirectory : tree.isDirectory (root ++ [userId]) = .ok true :=
    isDirectory_eq_ok_true_iff.mpr ⟨place, isLocated, stands⟩
  rw [list, userDirectory_eq_ok_iff.mpr ⟨userKey, rfl⟩, ok_bind, isDirectory, recordNames,
    FileTree.names, isLocated]
  rfl

/-- A file with the name of a record stands in a place. -/
def HasRecord (tree : FileTree) (place : Path) (name : String) : Prop :=
  isRecordName name = true ∧ tree.node? (place ++ [name]) ≠ none

theorem mem_recordsAt_of_place (userKey : isKey userId = true)
    (isLocated : tree.locate (root ++ [userId]) = .ok place) :
    name ∈ recordsAt tree place ↔ HasRecord tree place name := by
  have inwards := ne_outwards_of_isKey userKey
  have shape : place = FileTree.walk [] root ++ [userId] := by
    rw [FileTree.walk_of_locate isLocated, FileTree.walk_append]
    exact FileTree.enter_of_ne inwards
  rw [shape]
  exact mem_recordsAt_iff inwards

/-- A listing gives designs exactly where no name of a record is refused, and fails as one of them
does. -/
theorem loadEach_of_place (userKey : isKey userId = true)
    (isLocated : tree.locate (root ++ [userId]) = .ok place)
    (stands : tree.node? place = some .directory) (names : List String) :
    (loadEach tree root userId names =
        .ok (names.filterMap fun name => designAt tree place (keyOf name)) ∧
        ∀ name ∈ names, ∀ failure, ¬ Refusal tree root place userId (keyOf name) failure) ∨
      ∃ name ∈ names, ∃ failure, loadEach tree root userId names = .error failure ∧
        Refusal tree root place userId (keyOf name) failure := by
  have each (name : String) :=
    @load_of_place tree root place userId (keyOf name) userKey isLocated stands
  rw [loadEach]
  cases loads : names.mapM fun name => load tree root userId (Path.cutEnding name).1 with
  | error failure =>
      obtain ⟨name, mem, failed⟩ := exists_failure_of_mapM loads
      rcases each name with ⟨isLoaded, -⟩ | ⟨other, refused, refusal⟩
      · rw [keyOf, failed] at isLoaded
        cases isLoaded
      · rw [keyOf, failed] at refused
        cases refused
        exact .inr ⟨name, mem, failure, rfl, refusal⟩
  | ok designs =>
      -- a listing that is given has loaded every name, so no name was refused
      have none_refused : ∀ name ∈ names,
          load tree root userId (keyOf name) = .ok (designAt tree place (keyOf name)) ∧
            ∀ failure, ¬ Refusal tree root place userId (keyOf name) failure := by
        intro name mem
        rcases each name with isLoaded | ⟨failure, refused, -⟩
        · exact isLoaded
        · obtain ⟨design, isLoaded⟩ := mapM_succeeds_iff.mp ⟨designs, loads⟩ name mem
          rw [keyOf, isLoaded] at refused
          cases refused
      have loadedAll : names.mapM (fun name => load tree root userId (Path.cutEnding name).1) =
          .ok (names.map fun name => designAt tree place (keyOf name)) :=
        mapM_eq_ok_map fun name mem => (none_refused name mem).1
      rw [loads] at loadedAll
      cases loadedAll
      refine .inl ⟨?_, fun name mem => (none_refused name mem).2⟩
      rw [ok_bind, List.filterMap_map]
      rfl

/-- The designs that are listed of a place without refusal are those of its valid records. -/
theorem mem_listed_iff (userKey : isKey userId = true)
    (isLocated : tree.locate (root ++ [userId]) = .ok place)
    (accepted : ∀ name ∈ recordsAt tree place, ∀ failure,
      ¬ Refusal tree root place userId (keyOf name) failure) {design : SavedDesign} :
    design ∈ (recordsAt tree place).filterMap (fun name => designAt tree place (keyOf name)) ↔
      ∃ key content, isKey key = true ∧
        tree.node? (place ++ [key ++ recordEnding]) = some (.file content) ∧
        SavedDesign.ofDocument? content = some design := by
  rw [List.mem_filterMap]
  constructor
  · rintro ⟨name, mem, found⟩
    obtain ⟨content, stands, isDesign⟩ := designAt_eq_some_iff.mp found
    refine ⟨keyOf name, content, ?_, stands, isDesign⟩
    by_contra noKey
    rw [Bool.not_eq_true] at noKey
    exact accepted name mem _ (.unsafeKey noKey)
  · rintro ⟨key, content, isKey, stands, isDesign⟩
    refine ⟨key ++ recordEnding, ?_, ?_⟩
    · rw [mem_recordsAt_of_place userKey isLocated]
      refine ⟨isRecordName_append key, ?_⟩
      rw [stands]
      nofun
    · rw [keyOf_append (toList_ne_nil_of_isKey isKey), designAt_eq_some_iff]
      exact ⟨content, stands, isDesign⟩

/-- Where no file is named by the ending alone, each record is listed once, in order of the names
of the files. -/
theorem exists_keys_of_place (userKey : isKey userId = true) (proper : tree.IsProper)
    (isLocated : tree.locate (root ++ [userId]) = .ok place)
    (noEnding : tree.node? (place ++ [recordEnding]) = none)
    (accepted : ∀ name ∈ recordsAt tree place, ∀ failure,
      ¬ Refusal tree root place userId (keyOf name) failure) :
    ∃ keys : List String, keys.Nodup ∧
      keys.Pairwise (fun key other => key ++ recordEnding ≤ other ++ recordEnding) ∧
      (∀ key, key ∈ keys ↔
        isKey key = true ∧ tree.node? (place ++ [key ++ recordEnding]) ≠ none) ∧
      (recordsAt tree place).filterMap (fun name => designAt tree place (keyOf name)) =
        keys.filterMap (designAt tree place) := by
  have named : ∀ name ∈ recordsAt tree place, keyOf name ++ recordEnding = name := by
    intro name mem
    rw [mem_recordsAt_of_place userKey isLocated] at mem
    apply append_keyOf mem.1
    rintro rfl
    exact mem.2 noEnding
  have names : ((recordsAt tree place).map keyOf).map (· ++ recordEnding) =
      recordsAt tree place := by
    rw [List.map_map]
    exact (List.map_congr_left named).trans (List.map_id _)
  refine ⟨(recordsAt tree place).map keyOf, ?_, ?_, fun key => ?_, ?_⟩
  · apply List.Nodup.of_map (· ++ recordEnding)
    rw [names]
    exact nodup_recordsAt proper place
  · have inOrder := pairwise_recordsAt tree place
    rw [← names, List.pairwise_map] at inOrder
    exact inOrder
  · rw [List.mem_map]
    constructor
    · rintro ⟨name, mem, rfl⟩
      refine ⟨?_, ?_⟩
      · by_contra noKey
        rw [Bool.not_eq_true] at noKey
        exact accepted name mem _ (.unsafeKey noKey)
      · rw [named name mem]
        exact ((mem_recordsAt_of_place userKey isLocated).mp mem).2
    · rintro ⟨isKey, stands⟩
      refine ⟨key ++ recordEnding, ?_, keyOf_append (toList_ne_nil_of_isKey isKey)⟩
      exact (mem_recordsAt_of_place userKey isLocated).mpr ⟨isRecordName_append key, stands⟩
  · rw [List.filterMap_map]
    rfl

/-- A directory of a user with the porch, and with files that others have left. -/
def porchBeside (others : List (String × String)) : FileTree :=
  ⟨(["designs"], .directory) :: (["designs", "alice"], .directory) ::
    (["designs", "alice", "porch.json"], .file porch.document) ::
    others.map fun (name, content) => (["designs", "alice", name], .file content)⟩

theorem ofDocument?_porch : SavedDesign.ofDocument? porch.document = some porch.kept :=
  ofDocument?_of_isKey (by decide) (by decide) isLasting_porch

/-- A broken record, a draft and a file of another kind. -/
def leftOvers : List (String × String) :=
  [("broken.json", "\x7b"), ("porch.json.tmp", "\x7b"), ("notes.txt", "hello")]

end Eaves.DirectoryStore
