import Eaves.Proofs.Outcome
import Eaves.Proofs.Sorting
import Eaves.Store.Repository
import Mathlib.Data.List.Sort
import Mathlib.Data.String.Basic

/-!
# Shelves

What a store promises, whatever it keeps its designs in: it is a map from users and ids
to designs.  Saving replaces, users do not see each other's designs, deleting tells
whether there was something to delete, and a user's designs are listed in order of their
ids.

The store in memory keeps the promise, for a list of designs of which no two have the
same user and id.
-/

namespace Eaves

/-- What is asked of a store. -/
inductive StoreCall where
  | save (design : SavedDesign)
  | load (userId id : String)
  | delete (userId id : String)
  | list (userId : String)

/-- What a store answers. -/
inductive StoreReply where
  | saved
  | loaded (design : Option SavedDesign)
  | deleted (found : Bool)
  | listed (designs : List SavedDesign)

namespace Repository

/-- The store after a call, and the answer to it. -/
def answer (repository : Repository) : StoreCall → Repository × Outcome StoreReply
  | .save design =>
      let (next, outcome) := repository.save design
      (next, outcome.map fun _ => .saved)
  | .load userId id => (repository, (repository.load userId id).map .loaded)
  | .delete userId id =>
      match repository.delete userId id with
      | .ok (next, found) => (next, .ok (.deleted found))
      | .error failure => (repository, .error failure)
  | .list userId => (repository, (repository.list userId).map .listed)

/-- The answers to calls that are made one after the other. -/
def answers : Repository → List StoreCall → List (Outcome StoreReply)
  | _, [] => []
  | repository, call :: rest =>
      (repository.answer call).2 :: answers (repository.answer call).1 rest

end Repository

/-! ## The promise -/

/-- A map from users and ids to designs. -/
abbrev Shelf := String → String → Option SavedDesign

namespace Shelf

def empty : Shelf := fun _ _ => none

/-- The map with a design under its user and its id. -/
def put (shelf : Shelf) (design : SavedDesign) : Shelf := fun userId id =>
  if userId = design.userId ∧ id = design.id then some design else shelf userId id

/-- The map with nothing under a user and an id. -/
def remove (shelf : Shelf) (userId id : String) : Shelf := fun otherUser other =>
  if otherUser = userId ∧ other = id then none else shelf otherUser other

/-- The answer of a map to a call, and the map after it. -/
inductive Answers : Shelf → StoreCall → StoreReply → Shelf → Prop
  | save {shelf : Shelf} {design : SavedDesign} :
      Answers shelf (.save design) .saved (shelf.put design)
  | load {shelf : Shelf} {userId id : String} :
      Answers shelf (.load userId id) (.loaded (shelf userId id)) shelf
  | delete {shelf : Shelf} {userId id : String} :
      Answers shelf (.delete userId id) (.deleted (shelf userId id).isSome) (shelf.remove userId id)
  | list {shelf : Shelf} {userId : String} {designs : List SavedDesign}
      (ordered : designs.Pairwise fun first second => first.id < second.id)
      (complete : ∀ design, design ∈ designs ↔ shelf userId design.id = some design) :
      Answers shelf (.list userId) (.listed designs) shelf

/-- The answers of a map to calls that are made one after the other. -/
inductive AnswersAll : Shelf → List StoreCall → List StoreReply → Prop
  | nil {shelf : Shelf} : AnswersAll shelf [] []
  | cons {shelf next : Shelf} {call : StoreCall} {reply : StoreReply} {calls : List StoreCall}
      {replies : List StoreReply} :
      Answers shelf call reply next → AnswersAll next calls replies →
        AnswersAll shelf (call :: calls) (reply :: replies)

end Shelf

/-! ## The store in memory -/

namespace MemoryStore

variable {store : MemoryStore} {shelf : Shelf} {userId id : String}

theorem isUnder_iff {design : SavedDesign} :
    isUnder userId id design = true ↔ userId = design.userId ∧ id = design.id := by
  rw [isUnder, Bool.and_eq_true, beq_iff_eq, beq_iff_eq, eq_comm, @eq_comm _ design.id]

/-- A store that keeps the designs of a map, each once. -/
structure Keeps (store : MemoryStore) (shelf : Shelf) : Prop where
  load_eq : ∀ userId id, store.load userId id = shelf userId id
  once : store.designs.Pairwise fun first second => ¬ isUnder first.userId first.id second = true

theorem keeps_empty : Keeps {} Shelf.empty :=
  ⟨fun _ _ => rfl, .nil⟩

/-- A design is kept exactly if it is found under its user and id. -/
theorem Keeps.mem_iff (keeps : store.Keeps shelf) {design : SavedDesign} :
    design ∈ store.designs ↔ shelf design.userId design.id = some design := by
  rw [← keeps.load_eq, load]
  have once := keeps.once
  constructor
  · intro mem
    generalize store.designs = designs at once mem ⊢
    induction designs with
    | nil => cases mem
    | cons first rest ih =>
        rcases List.pairwise_cons.mp once with ⟨apart, restOnce⟩
        rcases List.mem_cons.mp mem with rfl | later
        · exact List.find?_cons_of_pos (isUnder_iff.mpr ⟨rfl, rfl⟩)
        · have other : ¬ isUnder design.userId design.id first = true := by
            intro same
            have keys := isUnder_iff.mp same
            exact apart design later (isUnder_iff.mpr ⟨keys.1.symm, keys.2.symm⟩)
          rw [List.find?_cons_of_neg other]
          exact ih restOnce later
  · exact List.mem_of_find?_eq_some

/-- Taking away what is under one key leaves what is under every other. -/
theorem find?_filter_isUnder (designs : List SavedDesign) (userId id otherUser other : String) :
    (designs.filter fun design => !isUnder userId id design).find? (isUnder otherUser other) =
      if otherUser = userId ∧ other = id then none
      else designs.find? (isUnder otherUser other) := by
  rw [List.find?_filter]
  split
  · rename_i same
    rw [same.1, same.2, List.find?_eq_none]
    intro design _
    cases isUnder userId id design <;> simp
  · rename_i apart
    congr 1
    funext design
    cases found : isUnder otherUser other design with
    | false => simp
    | true =>
        have keys := isUnder_iff.mp found
        have notUnder : isUnder userId id design = false := by
          rw [Bool.eq_false_iff]
          intro under
          have others := isUnder_iff.mp under
          exact apart ⟨keys.1.trans others.1.symm, keys.2.trans others.2.symm⟩
        rw [notUnder]
        rfl

theorem Keeps.save (keeps : store.Keeps shelf) (design : SavedDesign) :
    (store.save design).Keeps (shelf.put design) where
  load_eq userId id := by
    have others := find?_filter_isUnder store.designs design.userId design.id userId id
    unfold Shelf.put
    rw [← keeps.load_eq, load, MemoryStore.save]
    dsimp only
    split
    · rename_i same
      exact List.find?_cons_of_pos (isUnder_iff.mpr same)
    · rename_i apart
      rw [List.find?_cons_of_neg fun under => apart (isUnder_iff.mp under), others, if_neg apart]
      rfl
  once := by
    apply List.pairwise_cons.mpr ⟨?_, keeps.once.sublist List.filter_sublist⟩
    intro other mem
    simpa using (List.mem_filter.mp mem).2

theorem Keeps.delete (keeps : store.Keeps shelf) (userId id : String) :
    (store.delete userId id).1.Keeps (shelf.remove userId id) ∧
      (store.delete userId id).2 = (shelf userId id).isSome := by
  refine ⟨⟨fun otherUser other => ?_, keeps.once.sublist List.filter_sublist⟩, ?_⟩
  · unfold Shelf.remove
    rw [← keeps.load_eq]
    exact find?_filter_isUnder store.designs userId id otherUser other
  · rw [← keeps.load_eq, load, List.isSome_find?]
    rfl

/-- The designs of a user are listed in order of their ids. -/
theorem Keeps.list (keeps : store.Keeps shelf) (userId : String) :
    ((store.list userId).Pairwise fun first second => first.id < second.id) ∧
      ∀ design, design ∈ store.list userId ↔ shelf userId design.id = some design := by
  constructor
  · have ordered := Sorting.pairwise_le_mergeSort SavedDesign.id
      (store.designs.filter fun design => design.userId == userId)
    have different : (store.designs.filter fun design => design.userId == userId).Pairwise
        fun first second => first.id ≠ second.id := by
      refine (keeps.once.sublist List.filter_sublist).imp_of_mem ?_
      intro first second firstMem secondMem apart same
      have firstUser := beq_iff_eq.mp (List.mem_filter.mp firstMem).2
      have secondUser := beq_iff_eq.mp (List.mem_filter.mp secondMem).2
      exact apart (isUnder_iff.mpr ⟨firstUser.trans secondUser.symm, same⟩)
    have differentAfter := (List.mergeSort_perm _ fun first second : SavedDesign =>
      decide (first.id ≤ second.id)).symm.pairwise different fun apart => apart.symm
    exact (ordered.and differentAfter).imp fun both =>
      lt_of_le_of_ne both.1 both.2
  · intro design
    rw [MemoryStore.list, List.mem_mergeSort, List.mem_filter, beq_iff_eq, keeps.mem_iff]
    constructor
    · rintro ⟨found, rfl⟩
      exact found
    · intro found
      have isFound := found
      rw [← keeps.load_eq] at isFound
      have user := (isUnder_iff.mp (List.find?_some isFound)).1
      rw [← user]
      exact ⟨found, rfl⟩

/-- The store in memory answers as the map whose designs it keeps. -/
theorem Keeps.answer (keeps : store.Keeps shelf) (call : StoreCall) :
    ∃ next reply after, (Repository.memory store).answer call = (.memory next, .ok reply) ∧
      shelf.Answers call reply after ∧ next.Keeps after := by
  cases call with
  | save design => exact ⟨_, _, _, rfl, .save, keeps.save design⟩
  | load userId id =>
      have found := keeps.load_eq userId id
      refine ⟨store, _, _, ?_, .load, keeps⟩
      rw [← found]
      rfl
  | delete userId id =>
      rcases keeps.delete userId id with ⟨after, wasThere⟩
      refine ⟨_, _, _, ?_, .delete, after⟩
      rw [← wasThere]
      rfl
  | list userId =>
      rcases keeps.list userId with ⟨ordered, complete⟩
      exact ⟨store, _, _, rfl, .list ordered complete, keeps⟩

end MemoryStore

end Eaves
