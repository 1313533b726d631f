import Eaves.Proofs.Files.Ways

/-!
# Sites of directories

A site is where the directories of users are: its path goes to a directory that is
there and leads inwards from it, through names that need not be there.  Where a file is
two names below a site, what is read of it is decided by what is in the way to its
directory and by what stands at its own path, and so is every operation on it.
-/

namespace Eaves.FileTree

open Outcome

/-- Names to a directory that is there, and names inwards from it. -/
structure Site where
  front : List String
  back : List String
  inwards : LeadInwards back
  short : AreShort (front ++ back)

/-- Whether everything the names in front lead through is a directory. -/
def Site.StandsIn (site : Site) (tree : FileTree) : Prop :=
  ∀ n, 0 < n → n ≤ site.front.length →
    tree.node? (walk [] (site.front.take n)) = some .directory

namespace Site

variable {site : Site} {tree left made : FileTree} {whole : Path} {user name : String}

/-- The path of a site, as it is written. -/
def root (site : Site) : Path := site.front ++ site.back

/-- The directory that a site leads inwards from. -/
def base (site : Site) : Path := walk [] site.front

/-- Where a site is. -/
def place (site : Site) : Path := site.base ++ site.back

theorem StandsIn.directory_base (stands : site.StandsIn tree) :
    tree.node? site.base = some .directory := by
  cases shape : site.front with
  | nil =>
      rw [base, shape]
      exact node?_of_isTop isTop_nil
  | cons first rest =>
      have atEnd := stands site.front.length (by rw [shape]; exact Nat.succ_pos _) (Nat.le_refl _)
      rwa [List.take_length] at atEnd

/-- What is in the way below a site is in the way inwards from its directory. -/
theorem StandsIn.obstacle?_eq (stands : site.StandsIn tree) (whole : Path) (more : List String) :
    tree.obstacle? whole [] (site.root ++ more) =
      tree.obstacle? whole site.base (site.back ++ more) := by
  rw [root, List.append_assoc, obstacle?_append, obstacle?_eq_none_iff.mpr stands]
  rfl

theorem leadInwards_append (inwards : user ≠ Path.outwards) :
    LeadInwards (site.back ++ [user]) := by
  intro other mem
  rcases List.mem_append.mp mem with inside | isUser
  · exact site.inwards other inside
  · rwa [List.mem_singleton.mp isUser]

theorem areShort_append (short : user.utf8ByteSize ≤ longestName) :
    AreShort (site.root ++ [user]) := by
  intro other mem
  rcases List.mem_append.mp mem with inside | isUser
  · exact site.short other inside
  · rwa [List.mem_singleton.mp isUser]

theorem enter_walk_root (inwards : user ≠ Path.outwards) (nameInwards : name ≠ Path.outwards) :
    enter (walk [] (site.root ++ [user])) name = site.place ++ [user] ++ [name] := by
  rw [enter_of_ne nameInwards, root, List.append_assoc, walk_append,
    walk_of_leadInwards (leadInwards_append inwards), place, base, ← List.append_assoc]

/-- The way to a directory below a site is open exactly if the directory is there. -/
theorem StandsIn.open_iff (stands : site.StandsIn tree) (proper : tree.IsProper)
    (whole : Path) (inwards : user ≠ Path.outwards) :
    tree.obstacle? whole site.base (site.back ++ [user]) = none ↔
      tree.node? (site.place ++ [user]) = some .directory := by
  rw [proper.open_iff whole (leadInwards_append inwards) stands.directory_base, place,
    List.append_assoc]

/-- What is read two names below a site. -/
theorem StandsIn.read_eq (stands : site.StandsIn tree) (inwards : user ≠ Path.outwards)
    (short : user.utf8ByteSize ≤ longestName) (nameInwards : name ≠ Path.outwards) :
    tree.read (site.root ++ [user] ++ [name]) =
      (checkPath (site.root ++ [user] ++ [name]) >>= fun _ =>
        match tree.obstacle? (site.root ++ [user] ++ [name]) site.base (site.back ++ [user]) with
        | some fault => .error fault
        | none =>
            checkName (site.root ++ [user] ++ [name]) name >>= fun _ =>
              contentOf (site.root ++ [user] ++ [name])
                (tree.node? (site.place ++ [user] ++ [name]))) := by
  have passes : tree.read (site.root ++ [user] ++ [name]) = _ :=
    read_append (areShort_append short) name
  rw [stands.obstacle?_eq, enter_walk_root inwards nameInwards] at passes
  exact passes

/-- Where a path two names below a site is, or the refusal of what is in the way. -/
theorem StandsIn.locate_eq (stands : site.StandsIn tree) (inwards : user ≠ Path.outwards)
    (short : user.utf8ByteSize ≤ longestName) (nameInwards : name ≠ Path.outwards) :
    tree.locate (site.root ++ [user] ++ [name]) =
      (checkPath (site.root ++ [user] ++ [name]) >>= fun _ =>
        match tree.obstacle? (site.root ++ [user] ++ [name]) site.base (site.back ++ [user]) with
        | some fault => .error fault
        | none =>
            (checkName (site.root ++ [user] ++ [name]) name).map fun _ =>
              site.place ++ [user] ++ [name]) := by
  have passes : tree.locate (site.root ++ [user] ++ [name]) = _ :=
    locate_append (areShort_append short) name
  rw [stands.obstacle?_eq, enter_walk_root inwards nameInwards] at passes
  exact passes

/-- A path two names below a site is located where its directory is there. -/
theorem StandsIn.locate_eq_ok_iff (stands : site.StandsIn tree) (proper : tree.IsProper)
    (inwards : user ≠ Path.outwards) (short : user.utf8ByteSize ≤ longestName)
    (nameInwards : name ≠ Path.outwards) {path : Path} :
    tree.locate (site.root ++ [user] ++ [name]) = .ok path ↔
      checkPath (site.root ++ [user] ++ [name]) = .ok () ∧
        tree.node? (site.place ++ [user]) = some .directory ∧
        checkName (site.root ++ [user] ++ [name]) name = .ok () ∧
        path = site.place ++ [user] ++ [name] := by
  rw [stands.locate_eq inwards short nameInwards,
    ← stands.open_iff proper (site.root ++ [user] ++ [name]) inwards]
  cases checkPath (site.root ++ [user] ++ [name]) with
  | error fault => simp [bind, Except.bind]
  | ok _ =>
      rw [ok_bind]
      cases tree.obstacle? (site.root ++ [user] ++ [name]) site.base (site.back ++ [user]) with
      | some fault => simp
      | none =>
          cases checkName (site.root ++ [user] ++ [name]) name <;> simp [Except.map, eq_comm]

/-! ## One change below a site -/

/-- Trees that differ in what stands at one path, which is no directory in either. -/
structure DifferAt (tree left : FileTree) (path : Path) : Prop where
  elsewhere : ∀ other, other ≠ path → left.node? other = tree.node? other
  closed : tree.node? path ≠ some .directory
  closedAfter : left.node? path ≠ some .directory

theorem differAt_put {path : Path} (content : String)
    (closed : tree.node? path ≠ some .directory) :
    DifferAt tree (tree.put path (.file content)) path := by
  have putAt := node?_put tree (.file content) (not_isTop_of_closed closed)
  refine ⟨fun other apart => by rw [putAt, if_neg apart], closed, ?_⟩
  rw [putAt, if_pos rfl]
  nofun

theorem differAt_erase {path : Path} (closed : tree.node? path ≠ some .directory) :
    DifferAt tree (tree.erase path) path := by
  have eraseAt := node?_erase tree (not_isTop_of_closed closed)
  refine ⟨fun other apart => by rw [eraseAt, if_neg apart], closed, ?_⟩
  rw [eraseAt, if_pos rfl]
  nofun

variable {changed : String} {file : String}

theorem StandsIn.of_differAt {path : Path} (stands : site.StandsIn tree)
    (differ : DifferAt tree left path) : site.StandsIn left := by
  intro n positive bound
  have isDirectory := stands n positive bound
  rw [differ.elsewhere _ fun same => differ.closed (same ▸ isDirectory), isDirectory]

/-- A change two names below a site is in no way to a directory below it. -/
theorem obstacle?_of_differAt
    (differ : DifferAt tree left (site.place ++ [changed] ++ [file]))
    (inwards : user ≠ Path.outwards) :
    left.obstacle? whole site.base (site.back ++ [user]) =
      tree.obstacle? whole site.base (site.back ++ [user]) := by
  apply obstacle?_congr
  intro n positive bound
  apply differ.elsewhere
  intro same
  rw [walk_of_leadInwards fun other mem =>
    leadInwards_append inwards other (List.mem_of_mem_take mem)] at same
  have lengths := congrArg List.length same
  simp only [place, List.length_append, List.length_take, List.length_singleton] at lengths bound
  omega

/-- A change two names below a site changes what is read there, and nowhere else below it. -/
theorem StandsIn.read_of_differAt (stands : site.StandsIn tree)
    (differ : DifferAt tree left (site.place ++ [changed] ++ [file]))
    (inwards : user ≠ Path.outwards) (short : user.utf8ByteSize ≤ longestName)
    (nameInwards : name ≠ Path.outwards) (apart : (user, name) ≠ (changed, file)) :
    left.read (site.root ++ [user] ++ [name]) = tree.read (site.root ++ [user] ++ [name]) := by
  have elsewhere : site.place ++ [user] ++ [name] ≠ site.place ++ [changed] ++ [file] := by
    intro same
    simp only [List.append_assoc, List.append_cancel_left_eq, List.singleton_append,
      List.cons.injEq, and_true] at same
    exact apart (Prod.ext same.1 same.2)
  rw [stands.read_eq inwards short nameInwards,
    (stands.of_differAt differ).read_eq inwards short nameInwards,
    obstacle?_of_differAt differ inwards, differ.elsewhere _ elsewhere]

/-! ## Opening the way to a directory below a site -/

/-- The directories that opening a way to a directory below a site may add. -/
def MayAdd (site : Site) (user : String) (path : Path) : Prop :=
  ∃ n, 0 < n ∧ n ≤ (site.back ++ [user]).length ∧
    path = site.base ++ (site.back ++ [user]).take n

theorem not_mayAdd (user other name : String) :
    ¬ site.MayAdd user (site.place ++ [other] ++ [name]) := by
  rintro ⟨n, -, bound, same⟩
  have lengths := congrArg List.length same
  simp only [place, List.length_append, List.length_take, List.length_singleton] at lengths bound
  omega

theorem StandsIn.of_addsDirectories {isNew : Path → Prop} (stands : site.StandsIn tree)
    (adds : tree.AddsDirectories made isNew) : site.StandsIn made := by
  intro n positive bound
  have isDirectory := stands n positive bound
  rcases adds (walk [] (site.front.take n)) with same | ⟨absent, -, -⟩
  · rw [same, isDirectory]
  · rw [isDirectory] at absent
    cases absent

/-- Making any part of the way to a directory below a site adds directories on that way. -/
theorem StandsIn.makeDirectory_spec (stands : site.StandsIn tree) (proper : tree.IsProper)
    (inwards : user ≠ Path.outwards) {n : Nat}
    (makes : tree.makeDirectory ((site.root ++ [user]).take n) = .ok made) :
    made.IsProper ∧ tree.AddsDirectories made (site.MayAdd user) := by
  rcases bind_eq_ok_iff.mp makes with ⟨-, -, makesAll⟩
  rw [root, List.append_assoc, List.take_append] at makesAll
  have frontShort : AreShort (site.front.take n) := fun other mem =>
    site.short other (List.mem_append_left _ (List.mem_of_mem_take mem))
  have frontOpen : ∀ whole, tree.obstacle? whole [] (site.front.take n) = none := by
    intro whole
    rw [obstacle?_eq_none_iff]
    intro m positive bound
    rw [List.length_take] at bound
    rw [List.take_take, Nat.min_eq_left (by omega)]
    exact stands m positive (by omega)
  rw [makeFrom_append frontShort (frontOpen _)] at makesAll
  by_cases within : n ≤ site.front.length
  · have nothing : (site.back ++ [user]).take (n - site.front.length) = [] := by
      rw [Nat.sub_eq_zero_of_le within, List.take_zero]
    rw [nothing] at makesAll
    cases makesAll
    exact ⟨proper, fun path => .inl rfl⟩
  · rw [List.take_of_length_le (Nat.le_of_not_le within)] at makesAll
    have partInwards : LeadInwards ((site.back ++ [user]).take (n - site.front.length)) :=
      fun other mem => leadInwards_append inwards other (List.mem_of_mem_take mem)
    rcases makeFrom_spec proper partInwards stands.directory_base makesAll with
      ⟨stillProper, -, adds⟩
    refine ⟨stillProper, fun path => ?_⟩
    rcases adds path with same | ⟨absent, isDirectory, m, positive, bound, rfl⟩
    · exact .inl same
    · refine .inr ⟨absent, isDirectory, m, positive, ?_, ?_⟩
      · rw [List.length_take] at bound
        omega
      · rw [List.length_take] at bound
        rw [List.take_take, Nat.min_eq_left (by omega)]

/-- A directory below a site can be made where no file is in its way. -/
theorem StandsIn.exists_makeDirectory (stands : site.StandsIn tree) (proper : tree.IsProper)
    (inwards : user ≠ Path.outwards) (short : user.utf8ByteSize ≤ longestName)
    (pathOk : checkPath (site.root ++ [user]) = .ok ())
    (noFile : ∀ n content,
      tree.node? (site.base ++ (site.back ++ [user]).take n) ≠ some (.file content)) :
    ∃ made, tree.makeDirectory (site.root ++ [user]) = .ok made ∧ made.IsProper ∧
      tree.AddsDirectories made (site.MayAdd user) ∧
        made.node? (site.place ++ [user]) = some .directory := by
  have isInwards : LeadInwards (site.back ++ [user]) := leadInwards_append inwards
  have backShort : AreShort (site.back ++ [user]) := by
    intro other mem
    apply areShort_append short other
    rw [root, List.append_assoc]
    exact List.mem_append_right _ mem
  have noObstacle : tree.obstacle? (site.root ++ [user]) site.base (site.back ++ [user]) ≠
      some (.notDirectory (site.root ++ [user]).text) := by
    intro obstacle
    rcases exists_file_of_obstacle? obstacle with ⟨n, content, -, -, isFile⟩
    rw [walk_of_leadInwards fun other mem => isInwards other (List.mem_of_mem_take mem)] at isFile
    exact noFile n content isFile
  rcases exists_makeFrom proper backShort isInwards stands.directory_base noObstacle with
    ⟨made, makes⟩
  have frontShort : AreShort site.front := fun other mem =>
    site.short other (List.mem_append_left _ mem)
  have makesAll : tree.makeDirectory (site.root ++ [user]) = .ok made := by
    have frontOpen : tree.obstacle? (site.root ++ [user]) [] site.front = none :=
      obstacle?_eq_none_iff.mpr stands
    have passes := makeFrom_append frontShort frontOpen (site.back ++ [user])
    rw [← List.append_assoc] at passes
    rw [makeDirectory, pathOk, ok_bind]
    exact passes.trans makes
  have spec := stands.makeDirectory_spec proper inwards
    (by rw [List.take_length]; exact makesAll)
  rcases makeFrom_spec proper isInwards stands.directory_base makes with ⟨-, atEnd, -⟩
  refine ⟨made, makesAll, spec.1, spec.2, ?_⟩
  rwa [← List.append_assoc] at atEnd

/-- Opening a way brings nothing into view: a file that could not be read cannot be read. -/
theorem StandsIn.read_of_addsDirectories (stands : site.StandsIn tree) (proper : tree.IsProper)
    {added : String} (adds : tree.AddsDirectories made (site.MayAdd added))
    (inwards : user ≠ Path.outwards) (short : user.utf8ByteSize ≤ longestName)
    (nameInwards : name ≠ Path.outwards)
    (within : name.utf8ByteSize ≤ longestName ∨
      tree.node? (site.place ++ [user]) = some .directory) :
    made.read (site.root ++ [user] ++ [name]) = tree.read (site.root ++ [user] ++ [name]) := by
  have atEnd : made.node? (site.place ++ [user] ++ [name]) =
      tree.node? (site.place ++ [user] ++ [name]) := by
    rcases adds (site.place ++ [user] ++ [name]) with same | ⟨-, -, isNew⟩
    · exact same
    · exact absurd isNew (not_mayAdd added user name)
  rw [stands.read_eq inwards short nameInwards,
    (stands.of_addsDirectories adds).read_eq inwards short nameInwards, atEnd]
  rcases proper.obstacle?_of_addsDirectories (site.root ++ [user] ++ [name]) adds
    (leadInwards_append inwards) stands.directory_base with same | ⟨isAbsent, isOpen, nothing⟩
  · rw [same]
  · rw [← List.append_assoc, ← place] at nothing
    have noFile : tree.node? (site.place ++ [user] ++ [name]) = none := by
      by_contra something
      rcases Option.ne_none_iff_exists'.mp something with ⟨node, isNode⟩
      rw [proper.directory_of_node? isNode] at nothing
      cases nothing
    have isShort : name.utf8ByteSize ≤ longestName := by
      rcases within with isShort | isDirectory
      · exact isShort
      · rw [nothing] at isDirectory
        cases isDirectory
    rw [isAbsent, isOpen, noFile, checkName_of_short isShort]
    rfl

end Site

end Eaves.FileTree
