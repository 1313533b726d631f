/-!
# Closed vocabularies

A controlled term (a shape of a segment, a kind of motion, a kind of question) is
written as one word of a closed list.  Reading a word finds the first member that
is written so.
-/

namespace Eaves

/-- A closed list of terms, each written as a word, in the order of declaration. -/
class Vocabulary (α : Type) where
  /-- What the vocabulary is called where a word is refused. -/
  title : String
  /-- Every member. -/
  members : List α
  /-- How a member is written. -/
  word : α → String

namespace Vocabulary

variable {α : Type} [Vocabulary α]

/-- The member written as the given word. -/
def ofWord? (text : String) : Option α :=
  members.find? fun member => word member == text

/-- The member found for a word is written as that word. -/
theorem word_of_ofWord?_eq_some {text : String} {member : α}
    (found : ofWord? text = some member) : word member = text := by
  simpa using List.find?_some found

end Vocabulary

end Eaves
