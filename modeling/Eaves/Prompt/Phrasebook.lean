import Eaves.Design.Layer
import Eaves.Text.Search

/-!
# Phrasebooks

A phrasebook lists terms with the phrases people use for them, in order.  A phrase
is found anywhere in a clause that has a space set before and after it, so a phrase
with spaces of its own stands for whole words.  The order of a book decides which
term is found first.
-/

namespace Eaves.Prompt

/-- Terms and the phrases for each. -/
abbrev Phrasebook (α : Type) := List (α × List String)

/-- A clause with a space before and after it. -/
def padded (clause : List Char) : List Char :=
  ' ' :: clause ++ [' ']

/-- Whether some phrase occurs in a clause. -/
def mentions (clause : List Char) (phrases : List String) : Bool :=
  phrases.any fun phrase => Text.occursIn phrase.toList (padded clause)

namespace Phrasebook

variable {α : Type}

/-- The first term that a clause mentions. -/
def first? (book : Phrasebook α) (clause : List Char) : Option α :=
  (book.find? fun entry => mentions clause entry.2).map Prod.fst

/-- Every term that a clause mentions. -/
def found (book : Phrasebook α) (clause : List Char) : List α :=
  (book.filter fun entry => mentions clause entry.2).map Prod.fst

end Phrasebook

/-! ## Places -/

/-- Phrases for the features of a house. -/
def features : Phrasebook Feature := [
  (.peak, ["peak", "peaks", "apex", "apexes", "tip", "tips", "point", "points", "gable",
    "gables", "top", "tops", "highest"]),
  (.corner, ["corner", "corners", "angle", "angles", "turn", "turns", "bend", "bends",
    "corner point", "corner points"]),
  (.run, ["run", "runs", "horizontal", "flat", "straight", "eave", "eaves", "roofline",
    "roof line", "along the roof"]),
  (.column, ["column", "columns", "pillar", "pillars", "post", "posts", "vertical",
    "verticals"]),
  (.eave, ["eave", "eaves", "overhang", "overhangs", "edge", "edges"]),
  (.fascia, ["fascia", "fascias", "trim", "board", "boards"]),
  (.soffit, ["soffit", "soffits", "underside", "underneath"])]

/-- Phrases for the sides of a house. -/
def sides : Phrasebook Side := [
  (.front, ["front", "facing", "street side", "curb side", "main", "facade", "front of house",
    "front of the house", "face"]),
  (.back, ["back", "rear", "backyard", "back of house", "back of the house", "behind",
    "back side"]),
  (.left, ["left", "left side", "left of house", "on the left"]),
  (.right, ["right", "right side", "right of house", "on the right"])]

/-- Phrases for storeys. -/
def storeys : Phrasebook Positive := [
  (1, ["first floor", "ground floor", "ground level", "lower", "bottom",
    "main level", "1st floor", "first story", "lower level"]),
  (2, ["second floor", "upper", "top", "second story", "2nd floor", "upstairs",
    "upper level", "second level"]),
  (3, ["third floor", "third story", "3rd floor", "third level"])]

/-! ## Motion -/

/-- Phrases for kinds of motion. -/
def motions : Phrasebook MotionKind := [
  (.chase, ["chase", "chasing", "running", "flowing", "flow", "moving", "move", "traveling",
    "travel", "march", "marching"]),
  (.wave, ["wave", "waving", "ripple", "rippling", "undulating", "rolling"]),
  (.twinkle, ["twinkle", "twinkling", "sparkle", "sparkling", "glitter", "glittering",
    "shimmer", "shimmering", "flicker", "flickering"]),
  (.pulse, ["pulse", "pulsing", "breathe", "breathing", "throb", "throbbing"]),
  (.scan, ["scan", "scanning", "sweep", "sweeping", "back and forth"])]

/-- Phrases for directions. -/
def directions : Phrasebook Direction := [
  (.leftToRight, ["left to right", "l to r", "rightward", "to the right", "→", "->",
    "from left", "toward right"]),
  (.rightToLeft, ["right to left", "r to l", "leftward", "to the left", "←", "<-",
    "from right", "toward left"]),
  (.inward, ["inward", " in ", "toward center", "to center", "converging", "from edges",
    "from ends"]),
  (.outward, ["outward", " out ", "from center", "expanding", "diverging", "toward edges",
    "toward ends"]),
  (.upward, ["upward", " up ", "ascending", "rising", "toward top"]),
  (.downward, ["downward", " down ", "descending", "falling", "toward bottom"]),
  (.counterClockwise, ["counterclockwise", "counter clockwise", "anticlockwise"]),
  (.clockwise, ["clockwise"])]

/-- Phrases for speeds; the longer phrases come first. -/
def speeds : Phrasebook Level := [
  (240, ["very fast"]),
  (40, ["very slow"]),
  (200, ["fast", "quick"]),
  (80, ["slow"])]

/-- The speed a clause asks for. -/
def speed (clause : List Char) : Level :=
  (speeds.first? clause).getD ({} : Motion).speed

/-- Phrases for layouts. -/
def layouts : Phrasebook Layout := [
  (.gradient, ["gradient", "fade"]),
  (.alternating, ["alternating", "alternate"]),
  (.twinkle, ["twinkle", "sparkle"]),
  (.wave, ["wave"])]

/-- The layout a clause asks for. -/
def layout (clause : List Char) : Layout :=
  (layouts.first? clause).getD .solid

/-- Words that ask for motion of no particular kind. -/
def anyMotionWords : List String :=
  ["animated", "animate", "animation", "dynamic", "lively", "in motion"]

/-- Words that make the second colour an accent. -/
def accentWords : List String :=
  ["accent", "highlight"]

end Eaves.Prompt
