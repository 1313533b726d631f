import Eaves.Proofs.Store.Records
import Eaves.Proofs.Store.Shelf

/-!
# Directories as shelves

A directory that only a store has written to mirrors a map: under the keys of every
design there is the file of its document, and no other file has the name of a record.
Saving and deleting change both in the same way, and what is loaded is what the map has,
in the form that a document keeps it in.
-/

namespace Eaves.DirectoryStore

open Outcome
open FileTree (Site longestName checkPath)

variable {site : Site} {tree left made : FileTree} {shelf : Shelf} {root : Path}
  {userId designId : String} {design : SavedDesign}

/-! ## Keys that are accepted -/

/-- Keys under which a file can be. -/
structure Reaches (root : Path) (userId designId : String) : Prop where
  isUser : IsUser userId
  isDesign : IsDesign designId
  path : checkPath (root ++ [userId] ++ [designId ++ recordEnding]) = .ok ()

/-- A record that a document can hold, under keys that leave room for the file that it is written to
first. -/
structure Takes (root : Path) (design : SavedDesign) : Prop where
  reaches : Reaches root design.userId design.id
  directory : checkPath (root ++ [design.userId]) = .ok ()
  draftName : (design.id ++ draftEnding).utf8ByteSize ≤ longestName
  draft : checkPath (root ++ [design.userId] ++ [design.id ++ draftEnding]) = .ok ()
  lasting : design.IsLasting

/-- What a store in a directory can be asked. -/
def Accepts (root : Path) : StoreCall → Prop
  | .save design => Takes root design
  | .load userId id | .delete userId id => Reaches root userId id
  | .list userId => IsUser userId ∧ checkPath (root ++ [userId]) = .ok ()

/-! ## Files in their place -/

theorem names_of_path {place : Path} {other name : String}
    (same : place ++ [other] ++ [name] = place ++ [userId] ++ [designId]) :
    (other, name) = (userId, designId) := by
  rcases List.append_singleton_inj.mp same with ⟨users, names⟩
  exact Prod.ext (List.append_singleton_inj.mp users).2 names

/-- A record that is written beside its place and moved there: it stands in its place, nothing
stands beside it, and everywhere else stands what stood there. -/
theorem exists_moved (stands : site.StandsIn made) (proper : made.IsProper)
    (takes : Takes site.root design)
    (isDirectory : made.node? (site.place ++ [design.userId]) = some .directory)
    (draftClosed : made.node? (site.place ++ [design.userId] ++ [design.id ++ draftEnding]) ≠
      some .directory)
    (recordClosed : made.node? (site.place ++ [design.userId] ++ [design.id ++ recordEnding]) ≠
      some .directory) :
    ∃ written left,
      made.write (site.root ++ [design.userId] ++ [design.id ++ draftEnding]) design.document =
        .ok written ∧
      written.move (site.root ++ [design.userId] ++ [design.id ++ draftEnding])
        (site.root ++ [design.userId] ++ [design.id ++ recordEnding]) = .ok left ∧
      site.StandsIn left ∧ left.IsProper ∧
      ∀ path, left.node? path =
        if path = site.place ++ [design.userId] ++ [design.id ++ recordEnding] then
          some (.file design.document)
        else if path = site.place ++ [design.userId] ++ [design.id ++ draftEnding] then none
        else made.node? path := by
  rcases takes with ⟨⟨isUser, isDesign, pathOk⟩, -, draftName, draftOk, -⟩
  rcases append_ending_ne_outwards design.id with ⟨recordInwards, draftInwards⟩
  have apart := record_ne_draft design.id design.id
  have writes : made.write (site.root ++ [design.userId] ++ [design.id ++ draftEnding])
      design.document = .ok (made.put
        (site.place ++ [design.userId] ++ [design.id ++ draftEnding]) (.file design.document)) :=
    FileTree.write_eq_ok_iff.mpr ⟨_, (stands.locate_eq_ok_iff proper isUser.inwards isUser.short
      draftInwards).mpr ⟨draftOk, isDirectory, FileTree.checkName_of_short draftName, rfl⟩,
      draftClosed, rfl⟩
  rcases write_spec stands proper isUser draftInwards writes with
    ⟨writtenProper, puts, isDraft⟩
  have writtenStands := stands.of_differAt puts
  generalize made.put (site.place ++ [design.userId] ++ [design.id ++ draftEnding])
    (.file design.document) = written at *
  have stillDirectory : written.node? (site.place ++ [design.userId]) = some .directory := by
    rw [puts.elsewhere _ ?_, isDirectory]
    intro same
    have lengths := congrArg List.length same
    simp at lengths
  have stillClosed : written.node?
      (site.place ++ [design.userId] ++ [design.id ++ recordEnding]) ≠ some .directory := by
    rw [puts.elsewhere _ fun same => apart (List.append_singleton_inj.mp same).2]
    exact recordClosed
  have draftAt := (writtenStands.locate_eq_ok_iff writtenProper isUser.inwards isUser.short
    draftInwards).mpr ⟨draftOk, stillDirectory, FileTree.checkName_of_short draftName, rfl⟩
  have recordAt := (writtenStands.locate_eq_ok_iff writtenProper isUser.inwards isUser.short
    recordInwards).mpr ⟨pathOk, stillDirectory, FileTree.checkName_of_short isDesign.short, rfl⟩
  have moves := FileTree.move_eq_ok_iff.mpr
    ⟨_, _, _, draftAt, isDraft, recordAt, stillClosed, rfl⟩
  rcases move_spec writtenStands writtenProper isUser draftInwards recordInwards apart isDraft moves
    with ⟨cleared, moved⟩
  refine ⟨written, _, writes, moves,
    (writtenStands.of_differAt moved.takes).of_differAt moved.puts, moved.leftProper,
    fun path => ?_⟩
  rw [moved.node?_eq]
  split_ifs with isRecord isDraft
  · rfl
  · rfl
  · exact puts.elsewhere path isDraft

/-- Designs in order of the names of their files. -/
def byFileName (designs : List SavedDesign) : List SavedDesign :=
  designs.mergeSort fun first second =>
    decide (first.id ++ recordEnding ≤ second.id ++ recordEnding)

/-! ## Mirrors -/

/-- A site with nothing below it for any user, and no file in the way to it. -/
structure IsVacant (site : Site) (tree : FileTree) : Prop where
  stands : site.StandsIn tree
  proper : tree.IsProper
  noFile : ∀ n content, tree.node? (site.base ++ site.back.take n) ≠ some (.file content)
  nothing : ∀ userId, IsUser userId → tree.node? (site.place ++ [userId]) = none

/-- A directory that holds the documents of the designs of a map, and no other file with the name of
a record. -/
structure Mirrors (site : Site) (tree : FileTree) (shelf : Shelf) : Prop where
  stands : site.StandsIn tree
  proper : tree.IsProper
  noFile : ∀ userId, IsUser userId → ∀ n content,
    tree.node? (site.base ++ (site.back ++ [userId]).take n) ≠ some (.file content)
  noDirectory : ∀ userId, IsUser userId → ∀ name, name ≠ Path.outwards →
    tree.node? (site.place ++ [userId] ++ [name]) ≠ some .directory
  record : ∀ userId designId, IsUser userId → IsDesign designId →
    tree.node? (site.place ++ [userId] ++ [designId ++ recordEnding]) =
      (shelf userId designId).map fun design => .file design.document
  named : ∀ userId, IsUser userId → ∀ name, isRecordName name = true →
    tree.node? (site.place ++ [userId] ++ [name]) ≠ none →
      ∃ designId, IsDesign designId ∧ name = designId ++ recordEnding
  taken : ∀ userId designId design, shelf userId designId = some design →
    design.userId = userId ∧ design.id = designId ∧ Takes site.root design

namespace Mirrors

/-- A vacant site mirrors the map without designs. -/
theorem empty (vacant : IsVacant site tree) : Mirrors site tree Shelf.empty := by
  rcases vacant with ⟨stands, proper, noFile, nothing⟩
  have below : ∀ userId, IsUser userId → ∀ name,
      tree.node? (site.place ++ [userId] ++ [name]) = none := by
    intro userId isUser name
    by_contra something
    rcases Option.ne_none_iff_exists'.mp something with ⟨node, isNode⟩
    have around := proper.directory_of_node? isNode
    rw [nothing userId isUser] at around
    cases around
  refine ⟨stands, proper, ?_, ?_, ?_, ?_, ?_⟩
  · intro userId isUser n content isFile
    rw [List.take_append] at isFile
    by_cases within : n ≤ site.back.length
    · rw [Nat.sub_eq_zero_of_le within, List.take_zero, List.append_nil] at isFile
      exact noFile n content isFile
    · have whole : site.back.take n ++ [userId].take (n - site.back.length) =
          site.back ++ [userId] := by
        rw [List.take_of_length_le (by omega),
          List.take_of_length_le (by rw [List.length_singleton]; omega)]
      rw [whole, ← List.append_assoc] at isFile
      have absent := nothing userId isUser
      rw [Site.place, isFile] at absent
      cases absent
  · intro userId isUser name _
    rw [below userId isUser name]
    exact (Option.some_ne_none _).symm
  · intro userId designId isUser _
    exact below userId isUser _
  · intro userId isUser name _ something
    exact absurd (below userId isUser name) something
  · intro userId designId design isHeld
    cases isHeld

/-- The way to a user's directory is open, or nothing is there. -/
theorem obstacle?_cases (mirrors : Mirrors site tree shelf) (isUser : IsUser userId)
    (whole : Path) :
    tree.obstacle? whole site.base (site.back ++ [userId]) = none ∨
      tree.obstacle? whole site.base (site.back ++ [userId]) = some (.absent whole.text) := by
  rcases tree.obstacle?_cases whole site.base (site.back ++ [userId]) with isOpen | file | absent
  · exact .inl isOpen
  · rcases FileTree.exists_file_of_obstacle? file with ⟨n, content, -, -, isFile⟩
    rw [FileTree.walk_of_leadInwards fun other mem =>
      Site.leadInwards_append isUser.inwards other (List.mem_of_mem_take mem)] at isFile
    exact absurd isFile (mirrors.noFile userId isUser n content)
  · exact .inr absent

/-- Where the way to a user's directory is not open, the user has no designs. -/
theorem eq_none_of_obstacle? (mirrors : Mirrors site tree shelf) (isUser : IsUser userId)
    (isDesign : IsDesign designId) {whole : Path} {fault : FileFault}
    (obstacle : tree.obstacle? whole site.base (site.back ++ [userId]) = some fault) :
    shelf userId designId = none := by
  have record := mirrors.record userId designId isUser isDesign
  cases found : shelf userId designId with
  | none => rfl
  | some design =>
      rw [found] at record
      have around := mirrors.proper.directory_of_node? record
      rw [← mirrors.stands.open_iff mirrors.proper whole isUser.inwards, obstacle]
        at around
      cases around

/-! ## Loading -/

/-- What is loaded is what the map has, in the form that a document keeps it in. -/
theorem load_eq (mirrors : Mirrors site tree shelf) (reaches : Reaches site.root userId designId) :
    load tree site.root userId designId =
      .ok ((shelf userId designId).map SavedDesign.kept) := by
  rcases reaches with ⟨isUser, isDesign, pathOk⟩
  have inwards := (append_ending_ne_outwards designId).1
  rw [DirectoryStore.load_eq isUser.isKey isDesign.isKey,
    mirrors.stands.read_eq isUser.inwards isUser.short inwards, pathOk, ok_bind]
  rcases mirrors.obstacle?_cases isUser
    (site.root ++ [userId] ++ [designId ++ recordEnding]) with isOpen | absent
  · rw [isOpen]
    dsimp only
    rw [FileTree.checkName_of_short isDesign.short, ok_bind,
      mirrors.record userId designId isUser isDesign]
    cases found : shelf userId designId with
    | none => rfl
    | some design =>
        rcases mirrors.taken userId designId design found with ⟨rfl, rfl, takes⟩
        have own := ofDocument?_of_isKey isUser.isKey isDesign.isKey takes.lasting
        exact congrArg Except.ok own
  · rw [absent, mirrors.eq_none_of_obstacle? isUser isDesign absent]
    rfl

/-! ## One record changed -/

/-- A tree and a map in which the same record is changed. -/
theorem change {after : Shelf} (mirrors : Mirrors site tree shelf) (userId : String)
    (isDesign : IsDesign designId) (stands : site.StandsIn left) (proper : left.IsProper)
    (files : ∀ path content, path ≠ site.place ++ [userId] ++ [designId ++ recordEnding] →
      left.node? path = some (.file content) → tree.node? path = some (.file content))
    (directories : ∀ other name,
      left.node? (site.place ++ [other] ++ [name]) = some .directory →
        tree.node? (site.place ++ [other] ++ [name]) = some .directory)
    (records : ∀ other name, isRecordName name = true →
      (other, name) ≠ (userId, designId ++ recordEnding) →
        left.node? (site.place ++ [other] ++ [name]) =
          tree.node? (site.place ++ [other] ++ [name]))
    (own : left.node? (site.place ++ [userId] ++ [designId ++ recordEnding]) =
      (after userId designId).map fun design => .file design.document)
    (others : ∀ other another, (other, another) ≠ (userId, designId) →
      after other another = shelf other another)
    (taken : ∀ design, after userId designId = some design →
      design.userId = userId ∧ design.id = designId ∧ Takes site.root design) :
    Mirrors site left after := by
  refine ⟨stands, proper, ?_, ?_, ?_, ?_, ?_⟩
  · intro other isOther n content isFile
    refine mirrors.noFile other isOther n content (files _ content ?_ isFile)
    intro same
    have lengths := congrArg List.length same
    simp only [Site.place, List.length_append, List.length_take, List.length_singleton] at lengths
    omega
  · intro other isOther name inwards isDirectory
    exact mirrors.noDirectory other isOther name inwards (directories other name isDirectory)
  · intro other another isOther isAnother
    by_cases same : (other, another) = (userId, designId)
    · cases same
      exact own
    · rw [records other _ (isRecordName_append another), others other another same]
      · exact mirrors.record other another isOther isAnother
      · intro sameName
        rw [Prod.mk.injEq] at sameName
        exact same (Prod.ext sameName.1 (append_left_injective sameName.2))
  · intro other isOther name isRecord something
    by_cases same : (other, name) = (userId, designId ++ recordEnding)
    · cases same
      exact ⟨designId, isDesign, rfl⟩
    · rw [records other name isRecord same] at something
      exact mirrors.named other isOther name isRecord something
  · intro other another design found
    by_cases same : (other, another) = (userId, designId)
    · cases same
      exact taken design found
    · rw [others other another same] at found
      exact mirrors.taken other another design found

/-! ## Saving -/

/-- A record that is accepted is saved, and the map has it. -/
theorem save (mirrors : Mirrors site tree shelf) (takes : Takes site.root design) :
    ∃ left, DirectoryStore.save tree site.root design = (left, .ok ()) ∧
      Mirrors site left (shelf.put design) := by
  rcases takes.reaches with ⟨isUser, isDesign, -⟩
  rcases append_ending_ne_outwards design.id with ⟨recordInwards, draftInwards⟩
  rcases mirrors.stands.exists_makeDirectory mirrors.proper isUser.inwards isUser.short
    takes.directory (mirrors.noFile _ isUser) with ⟨made, makes, madeProper, adds, isDirectory⟩
  have sameBelow : ∀ other name, made.node? (site.place ++ [other] ++ [name]) =
      tree.node? (site.place ++ [other] ++ [name]) := by
    intro other name
    rcases adds (site.place ++ [other] ++ [name]) with same | ⟨-, -, isNew⟩
    · exact same
    · exact absurd isNew (Site.not_mayAdd _ _ _)
  have closed : ∀ name, name ≠ Path.outwards →
      made.node? (site.place ++ [design.userId] ++ [name]) ≠ some .directory := by
    intro name inwards
    rw [sameBelow]
    exact mirrors.noDirectory _ isUser _ inwards
  rcases exists_moved (mirrors.stands.of_addsDirectories adds) madeProper takes isDirectory
    (closed _ draftInwards) (closed _ recordInwards) with
    ⟨written, left, writes, moves, leftStands, leftProper, leftAt⟩
  refine ⟨left, ?_, ?_⟩
  · have runs : runSteps tree (saveSteps
        (site.root ++ [design.userId] ++ [design.id ++ recordEnding]) design) = (left, .ok ()) := by
      simp only [saveSteps, draftPath_eq isDesign.isKey, Path.parent, List.dropLast_concat,
        runSteps, SaveStep.run, makes, writes, moves]
    rw [save_eq (recordPath_eq_ok_iff.mpr ⟨isUser.isKey, isDesign.isKey, rfl⟩), runs]
    rfl
  · refine mirrors.change design.userId isDesign leftStands leftProper ?_ ?_ ?_ ?_ ?_ ?_
    · intro path content apart isFile
      rw [leftAt, if_neg apart] at isFile
      split_ifs at isFile
      rcases adds path with same | ⟨-, isNow, -⟩
      · rwa [same] at isFile
      · rw [isNow] at isFile
        cases isFile
    · intro other name isNow
      rw [leftAt] at isNow
      split_ifs at isNow
      · cases isNow
      · rwa [sameBelow] at isNow
    · intro other name isRecord apart
      rw [leftAt, if_neg fun same => apart (names_of_path same), if_neg, sameBelow]
      intro same
      have names := names_of_path same
      rw [(Prod.mk.inj names).2, isRecordName_draft] at isRecord
      cases isRecord
    · rw [leftAt, if_pos rfl, Shelf.put, if_pos ⟨rfl, rfl⟩]
      rfl
    · intro other another apart
      rw [Shelf.put, if_neg fun same => apart (Prod.ext same.1 same.2)]
    · intro found isFound
      rw [Shelf.put, if_pos ⟨rfl, rfl⟩, Option.some_inj] at isFound
      subst isFound
      exact ⟨rfl, rfl, takes⟩

/-! ## Deleting -/

/-- What is removed of a record: its file, where the map has a design, and otherwise nothing is
found. -/
theorem remove_eq (mirrors : Mirrors site tree shelf)
    (reaches : Reaches site.root userId designId) :
    tree.remove (site.root ++ [userId] ++ [designId ++ recordEnding]) =
      match shelf userId designId with
      | some _ => .ok (tree.erase (site.place ++ [userId] ++ [designId ++ recordEnding]))
      | none => .error (.absent
          (Path.text (site.root ++ [userId] ++ [designId ++ recordEnding]))) := by
  rcases reaches with ⟨isUser, isDesign, pathOk⟩
  have inwards := (append_ending_ne_outwards designId).1
  have record := mirrors.record userId designId isUser isDesign
  rw [FileTree.remove, mirrors.stands.locate_eq isUser.inwards isUser.short inwards, pathOk,
    ok_bind]
  rcases mirrors.obstacle?_cases isUser
    (site.root ++ [userId] ++ [designId ++ recordEnding]) with isOpen | absent
  · rw [isOpen, FileTree.checkName_of_short isDesign.short]
    dsimp only [Except.map]
    rw [ok_bind, record]
    cases shelf userId designId <;> rfl
  · rw [absent, mirrors.eq_none_of_obstacle? isUser isDesign absent]
    rfl

/-- Deleting tells whether the map had something under the keys, and then it has not. -/
theorem delete (mirrors : Mirrors site tree shelf)
    (reaches : Reaches site.root userId designId) :
    ∃ left, DirectoryStore.delete tree site.root userId designId =
        .ok (left, (shelf userId designId).isSome) ∧
      Mirrors site left (shelf.remove userId designId) := by
  have removes := mirrors.remove_eq reaches
  rcases reaches with ⟨isUser, isDesign, -⟩
  have isPath : recordPath site.root userId designId =
      .ok (site.root ++ [userId] ++ [designId ++ recordEnding]) :=
    recordPath_eq_ok_iff.mpr ⟨isUser.isKey, isDesign.isKey, rfl⟩
  have record := mirrors.record userId designId isUser isDesign
  rw [DirectoryStore.delete, isPath, ok_bind, removes]
  cases found : shelf userId designId with
  | none =>
      have unchanged : shelf.remove userId designId = shelf := by
        funext other another
        rw [Shelf.remove]
        split
        · rename_i same
          rw [same.1, same.2, found]
        · rfl
      rw [unchanged]
      exact ⟨tree, rfl, mirrors⟩
  | some design =>
      rw [found] at record
      have closed : tree.node? (site.place ++ [userId] ++ [designId ++ recordEnding]) ≠
          some .directory := by
        rw [record]
        nofun
      have differ := Site.differAt_erase closed
      have leftAt := FileTree.node?_erase tree (FileTree.not_isTop_of_closed closed)
      refine ⟨_, rfl, mirrors.change userId isDesign
        (mirrors.stands.of_differAt differ) (mirrors.proper.erase closed) ?_ ?_ ?_ ?_ ?_ ?_⟩
      · intro path content apart isFile
        rwa [differ.elsewhere path apart] at isFile
      · intro other name isNow
        rw [leftAt] at isNow
        split_ifs at isNow
        exact isNow
      · intro other name _ apart
        exact differ.elsewhere _ fun same => apart (names_of_path same)
      · rw [leftAt, if_pos rfl, Shelf.remove, if_pos ⟨rfl, rfl⟩]
        rfl
      · intro other another apart
        rw [Shelf.remove, if_neg fun same => apart (Prod.ext same.1 same.2)]
      · intro left isLeft
        rw [Shelf.remove, if_pos ⟨rfl, rfl⟩] at isLeft
        cases isLeft

/-! ## Listing -/

/-- The names of a user's records are those of the user's designs. -/
theorem recordsAt_eq (mirrors : Mirrors site tree shelf) (isUser : IsUser userId)
    {designs : List SavedDesign}
    (ordered : designs.Pairwise fun first second => first.id < second.id)
    (complete : ∀ design, design ∈ designs ↔ shelf userId design.id = some design) :
    recordsAt tree (site.place ++ [userId]) =
      (byFileName designs).map fun design => design.id ++ recordEnding := by
  have sorted : (byFileName designs).Pairwise fun first second =>
      first.id ++ recordEnding ≤ second.id ++ recordEnding :=
    Sorting.pairwise_le_mergeSort (fun design : SavedDesign => design.id ++ recordEnding) designs
  have once : (designs.map fun design => design.id ++ recordEnding).Nodup := by
    refine List.pairwise_map.mpr (ordered.imp fun {first second} before same => ?_)
    exact absurd (append_left_injective same) (ne_of_lt before)
  refine eq_of_same_names (pairwise_recordsAt _ _)
    (List.pairwise_map.mpr sorted)
    (nodup_recordsAt mirrors.proper _)
    (((List.mergeSort_perm designs _).map _).nodup_iff.mpr once) ?_
  intro name
  rw [mem_recordsAt_iff isUser.inwards, List.mem_map]
  constructor
  · rintro ⟨isRecord, something⟩
    rcases mirrors.named userId isUser name isRecord something with ⟨designId, isDesign, rfl⟩
    rw [mirrors.record userId designId isUser isDesign, ne_eq, Option.map_eq_none_iff] at something
    rcases Option.ne_none_iff_exists'.mp something with ⟨design, found⟩
    have designKey := (mirrors.taken userId designId design found).2.1
    refine ⟨design, List.mem_mergeSort.mpr ((complete design).mpr ?_), by rw [designKey]⟩
    rw [designKey, found]
  · rintro ⟨design, mem, rfl⟩
    have found := (complete design).mp (List.mem_mergeSort.mp mem)
    have isDesign := (mirrors.taken userId design.id design found).2.2.reaches.isDesign
    refine ⟨isRecordName_append design.id, ?_⟩
    rw [mirrors.record userId design.id isUser isDesign, found]
    nofun

/-- A user's designs are listed in order of the names of their files. -/
theorem list (mirrors : Mirrors site tree shelf) (isUser : IsUser userId)
    (pathOk : checkPath (site.root ++ [userId]) = .ok ()) {designs : List SavedDesign}
    (ordered : designs.Pairwise fun first second => first.id < second.id)
    (complete : ∀ design, design ∈ designs ↔ shelf userId design.id = some design) :
    DirectoryStore.list tree site.root userId =
      .ok ((byFileName designs).map SavedDesign.kept) := by
  have loads : ((byFileName designs).map fun design => design.id ++ recordEnding).mapM
      (fun name => load tree site.root userId (Path.cutEnding name).1) =
        .ok ((byFileName designs).map fun design => some design.kept) := by
    rw [List.mapM_map]
    refine mapM_eq_ok_map fun design mem => ?_
    have found := (complete design).mp (List.mem_mergeSort.mp mem)
    rcases mirrors.taken userId design.id design found with ⟨rfl, -, takes⟩
    have isDesign := takes.reaches.isDesign
    rw [Function.comp_apply, cutEnding_append (toList_ne_nil_of_isKey isDesign.isKey),
      mirrors.load_eq takes.reaches, found]
    rfl
  rw [list_eq mirrors.stands mirrors.proper isUser.isKey isUser.short, pathOk,
    mirrors.recordsAt_eq isUser ordered complete]
  change loadEach tree site.root userId _ = _
  rw [loadEach, loads, ok_bind, List.filterMap_map]
  exact congrArg Except.ok (congrFun List.filterMap_eq_map' _)

end Mirrors

end Eaves.DirectoryStore
