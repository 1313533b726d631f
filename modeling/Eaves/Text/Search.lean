/-!
# Searching text

Finding one text inside another: whether it occurs, where, and what remains when
every occurrence, taken from the left without overlap, is replaced.  Positions
count characters.
-/

namespace Eaves.Text

/-- Whether a text starts with another. -/
def startsWith (needle text : List Char) : Bool :=
  needle.isPrefixOf text

/-- Whether a text occurs inside another. -/
def occursIn (needle : List Char) : List Char → Bool
  | [] => needle.isEmpty
  | c :: cs => startsWith needle (c :: cs) || occursIn needle cs

/-- The positions at which a nonempty text occurs inside another, overlaps included, when the
rest starts at `position`. -/
def occurrencesFrom (needle : List Char) : (position : Nat) → List Char → List Nat
  | _, [] => []
  | position, c :: cs =>
      if startsWith needle (c :: cs) then position :: occurrencesFrom needle (position + 1) cs
      else occurrencesFrom needle (position + 1) cs

/-- The positions at which a nonempty text occurs inside another, overlaps included. -/
def occurrences (needle text : List Char) : List Nat :=
  occurrencesFrom needle 0 text

/-- The pieces between occurrences of a nonempty separator, taken from the left; `pending`
holds the piece being read, latest character first, and `skip` counts characters of an
occurrence that are still to be passed. -/
def splitFrom (separator pending : List Char) : (skip : Nat) → List Char → List (List Char)
  | _, [] => [pending.reverse]
  | skip + 1, _ :: cs => splitFrom separator pending skip cs
  | 0, c :: cs =>
      if startsWith separator (c :: cs) then
        pending.reverse :: splitFrom separator [] (separator.length - 1) cs
      else splitFrom separator (c :: pending) 0 cs

/-- The pieces of a text between occurrences of a nonempty separator. -/
def splitOn (separator text : List Char) : List (List Char) :=
  splitFrom separator [] 0 text

/-- Replaces every occurrence of a nonempty text, taken from the left. -/
def replace (needle replacement text : List Char) : List Char :=
  replacement.intercalate (splitOn needle text)

end Eaves.Text
