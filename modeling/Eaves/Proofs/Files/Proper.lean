import Eaves.Files.Tree
import Mathlib.Data.List.Induction
import Mathlib.Data.List.Nodup

/-!
# Proper file trees

In a proper tree every path stands once, and in a directory.  Every operation keeps it
so: a node is put only where no directory stands, and only files are taken away.  What
stands at a path after an operation is said for every path, so that what follows never
looks into the list of nodes.
-/

namespace Eaves.FileTree

variable {tree : FileTree} {path other : Path} {node : Node}

/-! ## What stands at a path -/

/-- Whether a path is that of a directory in every tree. -/
def IsTop (path : Path) : Prop :=
  (path.all (· == Path.outwards)) = true ∨ path = [Path.root]

instance (path : Path) : Decidable (IsTop path) :=
  inferInstanceAs (Decidable (_ ∨ _))

theorem node?_of_isTop (isTop : IsTop path) : tree.node? path = some .directory :=
  if_pos isTop

theorem node?_of_not_isTop (notTop : ¬ IsTop path) : tree.node? path = tree.nodes.lookup path :=
  if_neg notTop

theorem isTop_nil : IsTop [] :=
  .inl rfl

theorem IsTop.of_append {name : String} (isTop : IsTop (path ++ [name])) : IsTop path := by
  rcases isTop with outwards | isRoot
  · rw [List.all_append, Bool.and_eq_true] at outwards
    exact .inl outwards.1
  · cases path with
    | nil => exact isTop_nil
    | cons first rest => simp at isRoot

theorem not_isTop_of_closed (closed : tree.node? path ≠ some .directory) : ¬ IsTop path :=
  fun isTop => closed (node?_of_isTop isTop)

theorem closed_of_file {content : String} (isFile : tree.node? path = some (.file content)) :
    tree.node? path ≠ some .directory := by
  rw [isFile]
  nofun

theorem closed_of_absent (absent : tree.node? path = none) :
    tree.node? path ≠ some .directory := by
  rw [absent]
  nofun

theorem lookup_filter_ne {α β : Type} [BEq α] [LawfulBEq α] [DecidableEq α] {x y : α}
    (different : y ≠ x) (entries : List (α × β)) :
    (entries.filter fun entry => decide (entry.1 ≠ x)).lookup y = entries.lookup y := by
  induction entries with
  | nil => rfl
  | cons entry rest ih =>
      rw [List.filter_cons]
      split
      · rw [List.lookup_cons, List.lookup_cons, ih]
      · rename_i isOld
        have isX : entry.1 = x := by simpa using isOld
        have notY : (y == entry.1) = false := by
          rw [isX]
          exact beq_false_of_ne different
        rw [ih, List.lookup_cons, notY]

theorem lookup_filter_self {α β : Type} [BEq α] [LawfulBEq α] [DecidableEq α] {x : α}
    (entries : List (α × β)) :
    (entries.filter fun entry => decide (entry.1 ≠ x)).lookup x = none := by
  rw [List.lookup_eq_none_iff]
  intro entry mem
  have different : entry.1 ≠ x := by simpa using (List.mem_filter.mp mem).2
  simpa using different.symm

theorem mem_of_lookup {α β : Type} [BEq α] [LawfulBEq α] {entries : List (α × β)} {x : α} {y : β}
    (found : entries.lookup x = some y) : (x, y) ∈ entries := by
  rcases List.lookup_eq_some_iff.mp found with ⟨before, after, shape, -⟩
  rw [shape]
  exact List.mem_append_right _ List.mem_cons_self

/-- Putting a node changes what stands at its path, and nothing else. -/
theorem node?_put (tree : FileTree) (node : Node) (notTop : ¬ IsTop path) (other : Path) :
    (tree.put path node).node? other = if other = path then some node else tree.node? other := by
  by_cases same : other = path
  · subst same
    rw [if_pos rfl, node?_of_not_isTop notTop, put]
    exact List.lookup_cons_self
  · rw [if_neg same]
    by_cases isTop : IsTop other
    · rw [node?_of_isTop isTop, node?_of_isTop isTop]
    · have apart : (other == path) = false := beq_false_of_ne same
      rw [node?_of_not_isTop isTop, node?_of_not_isTop isTop, put]
      dsimp only
      rw [List.lookup_cons, apart]
      exact lookup_filter_ne same _

/-- Taking a node away changes what stands at its path, and nothing else. -/
theorem node?_erase (tree : FileTree) (notTop : ¬ IsTop path) (other : Path) :
    (tree.erase path).node? other = if other = path then none else tree.node? other := by
  by_cases same : other = path
  · subst same
    rw [if_pos rfl, node?_of_not_isTop notTop, erase]
    exact lookup_filter_self _
  · rw [if_neg same]
    by_cases isTop : IsTop other
    · rw [node?_of_isTop isTop, node?_of_isTop isTop]
    · rw [node?_of_not_isTop isTop, node?_of_not_isTop isTop, erase]
      exact lookup_filter_ne same _

/-! ## Proper trees -/

/-- A tree in which every path stands once, and in a directory. -/
structure IsProper (tree : FileTree) : Prop where
  nodup : (tree.nodes.map Prod.fst).Nodup
  inside : ∀ entry ∈ tree.nodes, tree.node? entry.1.dropLast = some .directory

/-- What stands somewhere stands in a directory. -/
theorem IsProper.directory_of_node? (proper : tree.IsProper) {name : String}
    (stands : tree.node? (path ++ [name]) = some node) : tree.node? path = some .directory := by
  by_cases isTop : IsTop (path ++ [name])
  · exact node?_of_isTop isTop.of_append
  · rw [node?_of_not_isTop isTop] at stands
    have inside := proper.inside _ (mem_of_lookup stands)
    rwa [List.dropLast_concat] at inside

/-- Everything on the way to what stands somewhere is a directory. -/
theorem IsProper.directory_of_node?_append (proper : tree.IsProper) {names : List String}
    (stands : tree.node? (path ++ names) = some node) (further : names ≠ []) :
    tree.node? path = some .directory := by
  induction names using List.reverseRecOn generalizing node with
  | nil => exact absurd rfl further
  | append_singleton names name ih =>
      rw [← List.append_assoc] at stands
      have around := proper.directory_of_node? stands
      cases names with
      | nil => rwa [List.append_nil] at around
      | cons first rest => exact ih around (List.cons_ne_nil _ _)

theorem nodup_filter_nodes (keep : Path × Node → Bool)
    (nodup : (tree.nodes.map Prod.fst).Nodup) : ((tree.nodes.filter keep).map Prod.fst).Nodup :=
  nodup.sublist (List.filter_sublist.map _)

/-- Putting a node in a directory where no directory stands keeps a tree proper. -/
theorem IsProper.put (proper : tree.IsProper) (node : Node)
    (closed : tree.node? path ≠ some .directory)
    (inside : tree.node? path.dropLast = some .directory) : (tree.put path node).IsProper := by
  have notTop := not_isTop_of_closed closed
  refine ⟨?_, ?_⟩
  · rw [FileTree.put, List.map_cons, List.nodup_cons]
    refine ⟨?_, nodup_filter_nodes _ proper.nodup⟩
    intro mem
    rcases List.mem_map.mp mem with ⟨entry, entryMem, same⟩
    have different : entry.1 ≠ path := by simpa using (List.mem_filter.mp entryMem).2
    exact different same
  · have elsewhere : ∀ around, tree.node? around = some .directory →
        (tree.put path node).node? around = some .directory := by
      intro around stands
      have apart : around ≠ path := fun same => closed (same ▸ stands)
      rw [node?_put tree node notTop, if_neg apart, stands]
    intro entry mem
    rcases List.mem_cons.mp mem with rfl | old
    · exact elsewhere _ inside
    · exact elsewhere _ (proper.inside entry (List.mem_of_mem_filter old))

/-- Taking a file away keeps a tree proper. -/
theorem IsProper.erase (proper : tree.IsProper) (closed : tree.node? path ≠ some .directory) :
    (tree.erase path).IsProper := by
  refine ⟨nodup_filter_nodes _ proper.nodup, ?_⟩
  intro entry mem
  have stands := proper.inside entry (List.mem_of_mem_filter mem)
  have apart : entry.1.dropLast ≠ path := fun same => closed (same ▸ stands)
  rw [node?_erase tree (not_isTop_of_closed closed), if_neg apart, stands]

/-! ## The names in a directory -/

/-- The names of what stands in a place. -/
def namesAt (tree : FileTree) (place : Path) : List String :=
  (tree.nodes.filter fun entry =>
    decide (entry.1 ≠ [] ∧ entry.1.dropLast = place)).map fun entry => Path.name entry.1

theorem eq_of_dropLast_eq {place : Path} (notNil : path ≠ []) (inPlace : path.dropLast = place) :
    path = place ++ [Path.name path] := by
  rw [Path.name, List.getLast?_eq_some_getLast notNil, Option.getD_some, ← inPlace]
  exact (List.dropLast_append_getLast notNil).symm

/-- A name stands in a place exactly if something stands at the path behind it. -/
theorem mem_namesAt_iff {place : Path} {name : String} (notTop : ¬ IsTop (place ++ [name])) :
    name ∈ tree.namesAt place ↔ tree.node? (place ++ [name]) ≠ none := by
  have isSome : tree.node? (place ++ [name]) ≠ none ↔
      ∃ node, (place ++ [name], node) ∈ tree.nodes := by
    rw [node?_of_not_isTop notTop]
    constructor
    · intro stands
      rcases Option.ne_none_iff_exists'.mp stands with ⟨node, found⟩
      exact ⟨node, mem_of_lookup found⟩
    · rintro ⟨node, mem⟩ absent
      have apart := List.lookup_eq_none_iff.mp absent _ mem
      simp at apart
  rw [isSome]
  constructor
  · intro mem
    rcases List.mem_map.mp mem with ⟨entry, kept, rfl⟩
    rcases List.mem_filter.mp kept with ⟨entryMem, inPlace⟩
    rw [decide_eq_true_iff] at inPlace
    refine ⟨entry.2, ?_⟩
    rw [← eq_of_dropLast_eq inPlace.1 inPlace.2]
    exact entryMem
  · rintro ⟨node, mem⟩
    refine List.mem_map.mpr ⟨_, List.mem_filter.mpr ⟨mem, ?_⟩, ?_⟩
    · simp
    · simp [Path.name]

/-- In a proper tree no name stands in a place twice. -/
theorem IsProper.nodup_namesAt (proper : tree.IsProper) (place : Path) :
    (tree.namesAt place).Nodup := by
  have paths := nodup_filter_nodes (fun entry =>
    decide (entry.1 ≠ [] ∧ entry.1.dropLast = place)) proper.nodup
  have together : (tree.namesAt place).map (place ++ [·]) =
      (tree.nodes.filter fun entry =>
        decide (entry.1 ≠ [] ∧ entry.1.dropLast = place)).map Prod.fst := by
    rw [namesAt, List.map_map]
    apply List.map_congr_left
    intro entry mem
    have inPlace := decide_eq_true_iff.mp (List.mem_filter.mp mem).2
    exact (eq_of_dropLast_eq inPlace.1 inPlace.2).symm
  rw [← together] at paths
  exact List.Nodup.of_map _ paths

end Eaves.FileTree
