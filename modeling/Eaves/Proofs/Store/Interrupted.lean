import Eaves.Proofs.Store.Records
import Eaves.Proofs.Store.Steps

/-!
# Saving that stops on the way

Saving makes the directory of the user, writes the record to a file beside its place and
moves that file there.  It may stop anywhere: between two steps, with some of the
directories made, or with any part of the file written.  Until the move is made, the
store shows what it showed before; after it, it shows the new record as well.

This holds whatever else is in the store, in particular whatever earlier saves have left
in the files that they wrote to first.
-/

namespace Eaves.DirectoryStore

open Outcome
open FileTree (Site longestName)

/-! ## Where saving may stop -/

/-- What a step leaves where it stops on its way: some of the directories it makes, or any text in
the file it writes. A move is made at once or not at all. -/
inductive StopsWithin (tree : FileTree) : SaveStep → FileTree → Prop
  | making {path : Path} {made : FileTree} (most : Nat) :
      tree.makeDirectory (path.take most) = .ok made →
        StopsWithin tree (.makeDirectory path) made
  | writing {path : Path} {content : String} {left : FileTree} (written : String) :
      tree.write path written = .ok left → StopsWithin tree (.write path content) left

/-- What steps leave where they stop: before a step, within it, or later. -/
inductive StopsIn : FileTree → List SaveStep → FileTree → Prop
  | before {tree : FileTree} {steps : List SaveStep} : StopsIn tree steps tree
  | within {tree left : FileTree} {step : SaveStep} {rest : List SaveStep} :
      StopsWithin tree step left → StopsIn tree (step :: rest) left
  | after {tree next left : FileTree} {step : SaveStep} {rest : List SaveStep} :
      step.run tree = .ok next → StopsIn next rest left → StopsIn tree (step :: rest) left

/-! ## What a store shows -/

/-- Two trees that show the same under every accepted key. -/
structure LooksAlike (root : Path) (tree left : FileTree) : Prop where
  loads : ∀ userId designId, IsUser userId → IsDesign designId →
    load left root userId designId = load tree root userId designId
  lists : ∀ userId, IsUser userId → list left root userId = list tree root userId

variable {site : Site} {tree made next left : FileTree} {root : Path} {userId designId : String}
  {design : SavedDesign}

namespace LooksAlike

theorem refl (root : Path) (tree : FileTree) : LooksAlike root tree tree :=
  ⟨fun _ _ _ _ => rfl, fun _ _ => rfl⟩

theorem trans (first : LooksAlike root tree next) (second : LooksAlike root next left) :
    LooksAlike root tree left where
  loads userId designId isUser isDesign :=
    (second.loads userId designId isUser isDesign).trans
      (first.loads userId designId isUser isDesign)
  lists userId isUser := (second.lists userId isUser).trans (first.lists userId isUser)

end LooksAlike

/-- A store shows the same where every listed name stands where it stood, and the same is loaded by
it. -/
theorem list_congr (stands : site.StandsIn tree) (proper : tree.IsProper)
    (leftStands : site.StandsIn left) (leftProper : left.IsProper) (isUser : IsUser userId)
    (names : ∀ name, isRecordName name = true →
      left.node? (site.place ++ [userId] ++ [name]) = tree.node? (site.place ++ [userId] ++ [name]))
    (reads : ∀ designId, tree.node? (site.place ++ [userId]) = some .directory →
      left.read (site.root ++ [userId] ++ [designId ++ recordEnding]) =
        tree.read (site.root ++ [userId] ++ [designId ++ recordEnding])) :
    list left site.root userId = list tree site.root userId := by
  rw [list_eq stands proper isUser.isKey isUser.short,
    list_eq leftStands leftProper isUser.isKey isUser.short,
    recordsAt_congr proper leftProper isUser.inwards names]
  congr 1
  funext _
  apply loadEach_congr
  intro name mem
  rw [mem_recordsAt_iff isUser.inwards] at mem
  rcases Option.ne_none_iff_exists'.mp mem.2 with ⟨node, isNode⟩
  exact load_congr fun _ _ => reads _ (proper.directory_of_node? isNode)

/-- Directories on the way to a user's change nothing that is shown. -/
theorem looksAlike_of_addsDirectories (stands : site.StandsIn tree) (proper : tree.IsProper)
    (madeProper : made.IsProper) {added : String}
    (adds : tree.AddsDirectories made (site.MayAdd added)) : LooksAlike site.root tree made where
  loads userId designId isUser isDesign := by
    apply load_congr
    intro _ _
    exact stands.read_of_addsDirectories proper adds isUser.inwards isUser.short
      (append_ending_ne_outwards designId).1 (.inl isDesign.short)
  lists userId isUser := by
    refine list_congr stands proper (stands.of_addsDirectories adds) madeProper isUser ?_ ?_
    · intro name _
      rcases adds (site.place ++ [userId] ++ [name]) with same | ⟨-, -, isNew⟩
      · exact same
      · exact absurd isNew (Site.not_mayAdd added userId name)
    · intro designId isDirectory
      exact stands.read_of_addsDirectories proper adds isUser.inwards isUser.short
        (append_ending_ne_outwards designId).1 (.inr isDirectory)

/-- A file that has no name of a record changes nothing that is shown. -/
theorem looksAlike_of_differAt (stands : site.StandsIn tree) (proper : tree.IsProper)
    (leftProper : left.IsProper) {changed file : String} (noRecord : isRecordName file = false)
    (differ : Site.DifferAt tree left (site.place ++ [changed] ++ [file])) :
    LooksAlike site.root tree left := by
  have noName : ∀ name, isRecordName name = true → name ≠ file := by
    rintro name isRecord rfl
    rw [isRecord] at noRecord
    cases noRecord
  have reads : ∀ userId designId, IsUser userId →
      left.read (site.root ++ [userId] ++ [designId ++ recordEnding]) =
        tree.read (site.root ++ [userId] ++ [designId ++ recordEnding]) := by
    intro userId designId isUser
    apply stands.read_of_differAt differ isUser.inwards isUser.short
      (append_ending_ne_outwards designId).1
    intro same
    exact noName _ (isRecordName_append designId) (Prod.mk.inj same).2
  refine ⟨fun userId designId isUser _ => load_congr fun _ _ => reads userId designId isUser,
    fun userId isUser => ?_⟩
  refine list_congr stands proper (stands.of_differAt differ) leftProper isUser ?_ ?_
  · intro name isRecord
    apply differ.elsewhere
    intro same
    exact noName name isRecord (List.append_singleton_inj.mp same).2
  · exact fun designId _ => reads userId designId isUser

/-! ## The steps of saving -/

/-- A tree with the same site that shows the same. -/
structure Unchanged (site : Site) (tree left : FileTree) : Prop where
  stands : site.StandsIn left
  proper : left.IsProper
  alike : LooksAlike site.root tree left

/-- A save whose record is written, and has still to be moved to its place. -/
structure Written (site : Site) (tree written : FileTree) (design : SavedDesign) : Prop extends
    Unchanged site tree written where
  isUser : IsUser design.userId
  draft : written.node? (site.place ++ [design.userId] ++ [design.id ++ draftEnding]) =
    some (.file design.document)

/-- A directory that is made for the user of a design changes nothing that is shown. -/
theorem unchanged_of_makes (stands : site.StandsIn tree) (proper : tree.IsProper)
    (userKey : isKey userId = true) {most : Nat}
    (makes : tree.makeDirectory ((site.root ++ [userId]).take most) = .ok made) :
    Unchanged site tree made := by
  rcases stands.makeDirectory_spec proper (ne_outwards_of_isKey userKey) makes with
    ⟨madeProper, adds⟩
  exact ⟨stands.of_addsDirectories adds, madeProper,
    looksAlike_of_addsDirectories stands proper madeProper adds⟩

theorem isUser_of_makes (userKey : isKey userId = true)
    (makes : tree.makeDirectory (site.root ++ [userId]) = .ok made) : IsUser userId := by
  rcases bind_eq_ok_iff.mp makes with ⟨_, -, makesAll⟩
  exact ⟨userKey, FileTree.areShort_of_makeFrom makesAll _
    (List.mem_append_right _ (List.mem_singleton_self _))⟩

/-- What is written to the file of a draft is shown nowhere. -/
theorem Unchanged.write {written : FileTree} (unchanged : Unchanged site tree made)
    (isUser : IsUser userId) {text : String}
    (writes : made.write (site.root ++ [userId] ++ [designId ++ draftEnding]) text = .ok written) :
    Unchanged site tree written ∧
      written.node? (site.place ++ [userId] ++ [designId ++ draftEnding]) = some (.file text) := by
  rcases unchanged with ⟨stands, proper, alike⟩
  rcases write_spec stands proper isUser (append_ending_ne_outwards designId).2 writes with
    ⟨writtenProper, differ, isDraft⟩
  exact ⟨⟨stands.of_differAt differ, writtenProper, alike.trans (looksAlike_of_differAt stands
    proper writtenProper (isRecordName_draft designId) differ)⟩, isDraft⟩

/-- A save that stops either leaves what was shown before, or all its steps are done. -/
theorem stopsIn_saveSteps (stands : site.StandsIn tree) (proper : tree.IsProper)
    (userKey : isKey design.userId = true) (designKey : isKey design.id = true)
    {path : Path} (isPath : path = site.root ++ [design.userId] ++ [design.id ++ recordEnding])
    (stops : StopsIn tree (saveSteps path design) left) :
    Unchanged site tree left ∨
      runSteps tree (saveSteps path design) = (left, .ok ()) ∧
      ∃ written, Written site tree written design ∧
        written.move (site.root ++ [design.userId] ++ [design.id ++ draftEnding]) path =
          .ok left := by
  subst isPath
  rw [saveSteps, draftPath_eq designKey, Path.parent, List.dropLast_concat] at stops ⊢
  cases stops with
  | before => exact .inl ⟨stands, proper, .refl _ _⟩
  | within stopsWithin =>
      cases stopsWithin with
      | making most makes => exact .inl (unchanged_of_makes stands proper userKey makes)
  | after makes stops =>
      rename_i made
      replace makes : tree.makeDirectory (site.root ++ [design.userId]) = .ok made := makes
      have isUser := isUser_of_makes userKey makes
      have whole := makes
      rw [← List.take_length (l := site.root ++ [design.userId])] at makes
      have unchanged := unchanged_of_makes stands proper userKey makes
      cases stops with
      | before => exact .inl unchanged
      | within stopsWithin =>
          cases stopsWithin with
          | writing text writes => exact .inl (unchanged.write isUser writes).1
      | after writes stops =>
          rename_i written
          replace writes : made.write (site.root ++ [design.userId] ++ [design.id ++ draftEnding])
            design.document = .ok written := writes
          rcases unchanged.write isUser writes with ⟨unchangedToo, isDraft⟩
          cases stops with
          | before => exact .inl unchangedToo
          | within stopsWithin => cases stopsWithin
          | after moves stops =>
              rename_i moved
              replace moves : written.move
                (site.root ++ [design.userId] ++ [design.id ++ draftEnding])
                (site.root ++ [design.userId] ++ [design.id ++ recordEnding]) = .ok moved := moves
              cases stops with
              | before =>
                  refine .inr ⟨?_, written, ⟨unchangedToo, isUser, isDraft⟩, moves⟩
                  simp only [runSteps, SaveStep.run, whole, writes, moves]

/-- A tree that shows the document of a design under its key, and otherwise what another one
shows. -/
structure Replaced (site : Site) (tree left : FileTree) (design : SavedDesign) : Prop where
  stands : site.StandsIn left
  proper : left.IsProper
  load_eq : load left site.root design.userId design.id =
    .ok (SavedDesign.ofDocument? design.document)
  loads : ∀ userId designId, IsUser userId → IsDesign designId →
    (userId, designId) ≠ (design.userId, design.id) →
      load left site.root userId designId = load tree site.root userId designId
  lists : ∀ userId, IsUser userId → userId ≠ design.userId →
    list left site.root userId = list tree site.root userId

/-- A move into place shows the record under its key, and everything else as it was. -/
theorem Written.moved {written : FileTree} (isWritten : Written site tree written design)
    (designKey : isKey design.id = true)
    (moves : written.move (site.root ++ [design.userId] ++ [design.id ++ draftEnding])
      (site.root ++ [design.userId] ++ [design.id ++ recordEnding]) = .ok left) :
    Replaced site tree left design := by
  rcases isWritten with ⟨⟨stands, proper, alike⟩, isUser, isDraft⟩
  rcases append_ending_ne_outwards design.id with ⟨recordInwards, draftInwards⟩
  rcases move_spec stands proper isUser draftInwards recordInwards
    (record_ne_draft design.id design.id) isDraft moves with ⟨cleared, moved⟩
  -- the draft is taken away first: what is shown stays as it was
  have clearedStands := stands.of_differAt moved.takes
  have clearedAlike := alike.trans (looksAlike_of_differAt stands proper moved.clearedProper
    (isRecordName_draft design.id) moved.takes)
  -- then the record is put in its place: what is read elsewhere stays as it was
  have leftStands := clearedStands.of_differAt moved.puts
  have reads : ∀ userId designId, IsUser userId → (userId, designId) ≠ (design.userId, design.id) →
      left.read (site.root ++ [userId] ++ [designId ++ recordEnding]) =
        cleared.read (site.root ++ [userId] ++ [designId ++ recordEnding]) := by
    intro userId designId isOther different
    apply clearedStands.read_of_differAt moved.puts isOther.inwards isOther.short
      (append_ending_ne_outwards designId).1
    intro same
    rw [Prod.mk.injEq] at same
    exact different (Prod.ext same.1 (append_left_injective same.2))
  refine ⟨leftStands, moved.leftProper, ?_, ?_, ?_⟩
  · rw [DirectoryStore.load_eq isUser.isKey designKey, moved.read_eq]
    rfl
  · intro userId designId isOther isDesign different
    rw [← clearedAlike.loads userId designId isOther isDesign]
    exact load_congr fun _ _ => reads userId designId isOther different
  · intro userId isOther different
    rw [← clearedAlike.lists userId isOther]
    refine list_congr clearedStands moved.clearedProper leftStands moved.leftProper isOther ?_ ?_
    · intro name _
      apply moved.puts.elsewhere
      intro same
      have users := (List.append_singleton_inj.mp same).1
      exact different (List.append_singleton_inj.mp users).2
    · intro designId _
      exact reads userId designId isOther fun same => different (Prod.mk.inj same).1

/-- A save that succeeds shows the record under its key, and everything else as it was. -/
theorem replaced_of_save (stands : site.StandsIn tree) (proper : tree.IsProper)
    (saves : save tree site.root design = (left, .ok ())) :
    isKey design.userId = true ∧ isKey design.id = true ∧ Replaced site tree left design := by
  cases isPath : recordPath site.root design.userId design.id with
  | error failure =>
      unfold save at saves
      rw [isPath] at saves
      cases saves
  | ok path =>
      rw [save_eq isPath, Prod.mk.injEq] at saves
      rcases recordPath_eq_ok_iff.mp isPath with ⟨userKey, designKey, rfl⟩
      have runs : runSteps tree (saveSteps
          (site.root ++ [design.userId] ++ [design.id ++ recordEnding]) design) =
            (left, .ok ()) :=
        Prod.ext saves.1 (liftFile_eq_ok_iff.mp saves.2)
      rw [saveSteps, draftPath_eq designKey, Path.parent, List.dropLast_concat] at runs
      rcases runSteps_cons_eq_ok runs with ⟨made, makes, runs⟩
      rcases runSteps_cons_eq_ok runs with ⟨written, writes, runs⟩
      rcases runSteps_cons_eq_ok runs with ⟨moved, moves, runs⟩
      cases runs
      replace makes : tree.makeDirectory (site.root ++ [design.userId]) = .ok made := makes
      have isUser := isUser_of_makes userKey makes
      rw [← List.take_length (l := site.root ++ [design.userId])] at makes
      rcases (unchanged_of_makes stands proper userKey makes).write isUser writes with
        ⟨unchanged, isDraft⟩
      have isWritten : Written site tree written design := ⟨unchanged, isUser, isDraft⟩
      exact ⟨userKey, designKey, isWritten.moved designKey moves⟩

/-! ## Stopping anywhere -/

/-- A site with one directory. -/
def designsSite : Site where
  front := ["designs"]
  back := []
  inwards := nofun
  short := by
    intro name mem
    rw [List.mem_singleton.mp mem]
    decide

/-- A design of one user, with a payload. -/
def porch : SavedDesign :=
  { id := "porch", userId := "alice", intent := {}, payload := some [("on", .bool true)] }

/-- A store with a record, and with a part of a later one that an earlier save has left. -/
def porchTree : FileTree :=
  ⟨[(["designs"], .directory), (["designs", "alice"], .directory),
    (["designs", "alice", "porch.json"], .file "\x7b\x7d"),
    (["designs", "alice", "porch.json.tmp"], .file "\x7b")]⟩

theorem isProper_porchTree : porchTree.IsProper :=
  ⟨by decide, by decide⟩

theorem isLasting_porch : porch.IsLasting where
  intent := ⟨Number.Binary64.isUnit_zero, fun _ mem => absurd mem List.not_mem_nil⟩
  held := by
    have zero : (Number.Binary64.finite 0).IsRounded := Number.Binary64.ofRat_eq (by norm_num)
    simp [porch, SavedDesign.toValue, Intent.toValue, SceneSettings.toValue, Level.toValue,
      Value.plain, plainItems, plainEntries, Value.ofText?, Value.ofOption, Value.IsHeld, AreHeld,
      EntriesHeld, zero]
  wholes := by
    have few : ∀ n ∈ porch.toValue.plain.wholes, n.natAbs < 10 ^ 3 := by decide
    have many : 10 ^ 3 ≤ Number.tenTo Text.digitLimit := Number.ten_pow_le_tenTo (by decide)
    exact fun n mem => (few n mem).trans_le many

end Eaves.DirectoryStore
