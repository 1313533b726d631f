import Eaves.Store.Directory

/-!
# Repositories

Where a session keeps its designs: in memory, or in a directory of a file tree.  In
memory, designs stand under their user and their id, and saving again replaces.
-/

namespace Eaves

/-! ## Designs in memory -/

/-- Designs under user and id. -/
structure MemoryStore where
  designs : List SavedDesign := []
  deriving Repr, Inhabited

namespace MemoryStore

/-- Whether a design is kept under a user and an id. -/
def isUnder (userId id : String) (design : SavedDesign) : Bool :=
  design.userId == userId && design.id == id

/-- Keeps a design. -/
def save (store : MemoryStore) (design : SavedDesign) : MemoryStore :=
  ⟨design :: store.designs.filter fun other => !isUnder design.userId design.id other⟩

/-- The design under a user and an id. -/
def load (store : MemoryStore) (userId id : String) : Option SavedDesign :=
  store.designs.find? (isUnder userId id)

/-- The store without the design under a user and an id, and whether there was one. -/
def delete (store : MemoryStore) (userId id : String) : MemoryStore × Bool :=
  (⟨store.designs.filter fun design => !isUnder userId id design⟩,
    store.designs.any (isUnder userId id))

/-- The designs of a user, in order of their ids. -/
def list (store : MemoryStore) (userId : String) : List SavedDesign :=
  (store.designs.filter fun design => design.userId == userId).mergeSort
    fun a b => decide (a.id ≤ b.id)

end MemoryStore

/-! ## Either place -/

/-- Where designs are kept. -/
inductive Repository where
  | memory (store : MemoryStore)
  | directory (tree : FileTree) (root : Path)
  deriving Repr, Inhabited

namespace Repository

/-- The repository after a design is saved, and whether it was. -/
def save (repository : Repository) (design : SavedDesign) : Repository × Outcome Unit :=
  match repository with
  | .memory store => (.memory (store.save design), .ok ())
  | .directory tree root =>
      let (tree, outcome) := DirectoryStore.save tree root design
      (.directory tree root, outcome)

/-- The design under a user and an id. -/
def load (repository : Repository) (userId id : String) : Outcome (Option SavedDesign) :=
  match repository with
  | .memory store => .ok (store.load userId id)
  | .directory tree root => DirectoryStore.load tree root userId id

/-- The repository without the design under a user and an id, and whether there was one. -/
def delete (repository : Repository) (userId id : String) : Outcome (Repository × Bool) :=
  match repository with
  | .memory store =>
      let (store, found) := store.delete userId id
      .ok (.memory store, found)
  | .directory tree root =>
      (DirectoryStore.delete tree root userId id).map fun (tree, found) =>
        (.directory tree root, found)

/-- The designs of a user. -/
def list (repository : Repository) (userId : String) : Outcome (List SavedDesign) :=
  match repository with
  | .memory store => .ok (store.list userId)
  | .directory tree root => DirectoryStore.list tree root userId

end Repository

end Eaves
