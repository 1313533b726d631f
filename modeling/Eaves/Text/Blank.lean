/-!
# Blank characters

Which characters separate words, and the operations that depend on it alone:
trimming, splitting into words, and collapsing each run of blanks into one space.
-/

namespace Eaves.Text

/-- Whether a character separates words. -/
def isBlank (c : Char) : Bool :=
  let n := c.toNat
  decide (9 ≤ n ∧ n ≤ 13) || decide (28 ≤ n ∧ n ≤ 32) || n == 0x85 || n == 0xA0 || n == 0x1680 ||
    decide (0x2000 ≤ n ∧ n ≤ 0x200A) || n == 0x2028 || n == 0x2029 || n == 0x202F || n == 0x205F ||
    n == 0x3000

/-- Text without the blanks at its start. -/
def trimLeft (cs : List Char) : List Char :=
  cs.dropWhile isBlank

/-- Text without the blanks at its end. -/
def trimRight (cs : List Char) : List Char :=
  (cs.reverse.dropWhile isBlank).reverse

/-- Text without the blanks at either end. -/
def trim (cs : List Char) : List Char :=
  trimRight (trimLeft cs)

/-- Each maximal run of blanks becomes one space; `inRun` says that one was just passed. -/
def collapseFrom (inRun : Bool) : List Char → List Char
  | [] => []
  | c :: cs =>
      if isBlank c then (if inRun then collapseFrom true cs else ' ' :: collapseFrom true cs)
      else c :: collapseFrom false cs

/-- Each maximal run of blanks becomes one space. -/
def collapse (cs : List Char) : List Char :=
  collapseFrom false cs

/-! ## White space

Numbers written in data are trimmed by the narrower property: the four separators of
records, which part words elsewhere, belong to the number there and spoil it.
-/

/-- Whether a character is white space. -/
def isWhite (c : Char) : Bool :=
  isBlank c && !decide (28 ≤ c.toNat ∧ c.toNat ≤ 31)

/-- Text without the white space at either end. -/
def trimWhite (cs : List Char) : List Char :=
  ((cs.dropWhile isWhite).reverse.dropWhile isWhite).reverse

/-- Whether a text has no character that is not blank. -/
def isAllBlank (cs : List Char) : Bool :=
  cs.all isBlank

end Eaves.Text
