/-!
# Bounded values

Three ranges that recur in a lighting design are types: a level of a channel, of
brightness or of speed lies between 0 and 255; a storey or a width is at least
one; a selector names at least one thing.
-/

namespace Eaves

/-- A level between 0 and 255. -/
abbrev Level := Fin 256

/-- There is a level, so numerals are levels. -/
instance Level.neZero : @NeZero Nat Zero.ofOfNat0 256 := ⟨by decide⟩

/-- The level nearest to an integer. -/
def Level.clamp (n : Int) : Level :=
  ⟨(max 0 (min 255 n)).toNat, by omega⟩

/-- The level an integer is, when it is one. -/
def Level.ofInt? (n : Int) : Option Level :=
  if h : 0 ≤ n ∧ n ≤ 255 then some ⟨n.toNat, by omega⟩ else none

/-- A level as an integer. -/
def Level.toInt (level : Level) : Int :=
  (level.val : Int)

theorem Level.toInt_bounds (level : Level) : 0 ≤ level.toInt ∧ level.toInt ≤ 255 := by
  have := level.isLt
  unfold Level.toInt
  omega

@[simp]
theorem Level.ofInt?_toInt (level : Level) : Level.ofInt? level.toInt = some level := by
  rw [Level.ofInt?, dif_pos level.toInt_bounds]
  rfl

theorem Level.toInt_inj {level other : Level} : level.toInt = other.toInt ↔ level = other := by
  rw [Level.toInt, Level.toInt, Int.ofNat_inj, Fin.val_inj]

/-- A count that is at least one. -/
abbrev Positive := { n : Nat // 0 < n }

/-- A numeral other than zero is a positive count. -/
instance Positive.numeral (n : Nat) : OfNat Positive (n + 1) := ⟨⟨n + 1, n.succ_pos⟩⟩

/-- The positive count an integer is, when it is one. -/
def Positive.ofInt? (n : Int) : Option Positive :=
  if h : 1 ≤ n then some ⟨n.toNat, by omega⟩ else none

@[simp]
theorem Positive.ofInt?_val (count : Positive) :
    Positive.ofInt? (count.val : Int) = some count := by
  have bound : (1 : Int) ≤ count.val := by
    have := count.property
    omega
  rw [Positive.ofInt?, dif_pos bound]
  rfl

/-- A list with at least one member. -/
abbrev NonEmpty (α : Type) := { members : List α // members ≠ [] }

/-- The list as one with a member, when it has one. -/
def NonEmpty.ofList? {α : Type} : List α → Option (NonEmpty α)
  | [] => none
  | member :: rest => some ⟨member :: rest, by simp⟩

/-- A list of exactly one member. -/
def NonEmpty.singleton {α : Type} (member : α) : NonEmpty α :=
  ⟨[member], by simp⟩

/-- A list of two members. -/
def NonEmpty.pair {α : Type} (first second : α) : NonEmpty α :=
  ⟨[first, second], by simp⟩

@[simp]
theorem NonEmpty.ofList?_val {α : Type} (members : NonEmpty α) :
    NonEmpty.ofList? members.val = some members := by
  obtain ⟨list, proof⟩ := members
  cases list with
  | nil => exact absurd rfl proof
  | cons member rest => rfl

end Eaves
