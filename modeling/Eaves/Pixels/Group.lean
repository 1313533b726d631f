import Eaves.Light.Color

/-!
# Groups of lights

A group is a contiguous stretch of lights of one colour.  Merging sorts groups by
their first light and joins each with the one before when they touch and agree in
colour; groups that overlap are left as they are.
-/

namespace Eaves

/-- A contiguous stretch of lights of one colour. -/
structure Group where
  first : Nat
  last : Nat
  color : Color
  ordered : first ≤ last
  deriving DecidableEq, Repr

namespace Group

/-- The number of lights in a group. -/
def length (group : Group) : Nat :=
  group.last - group.first + 1

/-- The lights of a group, in order. -/
def pixels (group : Group) : List Nat :=
  List.range' group.first group.length

/-- A group of a single light. -/
def single (pixel : Nat) (color : Color) : Group :=
  ⟨pixel, pixel, color, Nat.le_refl pixel⟩

/-- A group of a stretch of lights, when it has a first and a last. -/
def span? (first last : Nat) (color : Color) : Option Group :=
  if ordered : first ≤ last then some ⟨first, last, color, ordered⟩ else none

/-- Whether a group continues another without a gap and in its colour. -/
def Continues (next current : Group) : Prop :=
  current.last + 1 = next.first ∧ current.color = next.color

instance (next current : Group) : Decidable (Continues next current) :=
  inferInstanceAs (Decidable (_ ∧ _))

/-- Two groups as one, from the first light of the one to the last of the other. -/
def join (current next : Group) (touching : current.last + 1 = next.first) : Group :=
  ⟨current.first, next.last, current.color, by
    have := current.ordered
    have := next.ordered
    omega⟩

/-- Joins each group with the one in hand when it continues it, else sets that one aside. -/
def fuseFrom (current : Group) : List Group → List Group
  | [] => [current]
  | next :: rest =>
      if continues : Continues next current then fuseFrom (current.join next continues.1) rest
      else current :: fuseFrom next rest

/-- Joins neighbours that touch and agree in colour. -/
def fuse : List Group → List Group
  | [] => []
  | group :: rest => fuseFrom group rest

/-- Groups sorted by their first light; those that start together keep their order. -/
def sorted (groups : List Group) : List Group :=
  groups.mergeSort fun a b => decide (a.first ≤ b.first)

/-- Groups sorted by their first light, neighbours joined where they touch and agree. -/
def merge (groups : List Group) : List Group :=
  fuse (sorted groups)

/-- The lights of groups with their colours, group by group. -/
def expand (groups : List Group) : List (Nat × Color) :=
  groups.flatMap fun group => group.pixels.map fun pixel => (pixel, group.color)

end Group

end Eaves
