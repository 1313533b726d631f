import Eaves.Text.Blank
import Eaves.Text.Lowercase
import Eaves.Text.Quoted
import Eaves.Text.Search

/-!
# Normal form and clauses of a prompt

A prompt is brought into small letters, with single spaces between words, one
spelling of colour and no quotes.  Its clauses are the pieces between the words
and marks that join instructions; the separators are applied one after the other
to every piece there is so far, and pieces are trimmed only at the end.
-/

namespace Eaves.Prompt

/-- The characters of a text without those equal to one. -/
def without (unwanted : Char) (cs : List Char) : List Char :=
  cs.filter (· != unwanted)

/-- Small letters, single spaces, one spelling, no quotes, no blanks at either end. -/
def normalize (cs : List Char) : List Char :=
  let spaced := Text.collapse (Text.trim (Text.lower cs))
  let spelled := Text.replace "colour".toList "color".toList spaced
  Text.trim (without Text.doubleQuote (without Text.apostrophe spelled))

/-- What separates clauses, in the order of application. -/
def separators : List String :=
  [", and ", " and ", ", with ", " with ", ", but ", " but ", ". ", "; "]

/-- Every piece split at a separator. -/
def splitPieces (pieces : List (List Char)) (separator : String) : List (List Char) :=
  pieces.flatMap (Text.splitOn separator.toList)

/-- The pieces of a text between separators, as they stand. -/
def pieces (cs : List Char) : List (List Char) :=
  separators.foldl splitPieces [cs]

/-- The clauses of a text: the pieces between separators, trimmed, without the empty ones. -/
def clauses (cs : List Char) : List (List Char) :=
  ((pieces cs).map Text.trim).filter fun clause => !clause.isEmpty

end Eaves.Prompt
