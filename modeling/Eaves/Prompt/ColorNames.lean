import Eaves.Light.Color
import Eaves.Text.Search

/-!
# Colour names

Every place where a clause names a colour is a sighting.  A sighting inside a
longer one says nothing of its own ("green" in "dark green"), and of two entries
seen in the same place the earlier one counts.  A few plain words are vague: bare
"green" is a colour, and also a question of which green.
-/

namespace Eaves.Prompt

/-- The colour of a code with eight bits each of red, green and blue. -/
def ofCode (code : Nat) : Color :=
  ⟨Fin.ofNat 256 (code / 0x10000), Fin.ofNat 256 (code / 0x100), Fin.ofNat 256 code, 0⟩

/-- A named colour and the phrases for it. -/
structure NamedColor where
  name : String
  color : Color
  phrases : List String
  deriving DecidableEq, Repr

/-- The colours that have names. -/
def namedColors : List NamedColor := [
  ⟨"white", ofCode 0xFFFFFF, ["white", "pure white"]⟩,
  ⟨"warm white", ofCode 0xFFE4C4, ["warm white", "soft white", "cozy white"]⟩,
  ⟨"cool white", ofCode 0xF0F8FF, ["cool white", "bright white", "daylight"]⟩,
  ⟨"soft white", ofCode 0xFFF5E1, ["soft white", "gentle white"]⟩,
  ⟨"red", ofCode 0xFF0000, ["red", "bright red"]⟩,
  ⟨"dark red", ofCode 0x8B0000, ["dark red", "deep red", "maroon"]⟩,
  ⟨"crimson", ofCode 0xDC143C, ["crimson"]⟩,
  ⟨"green", ofCode 0x00FF00, ["green", "bright green"]⟩,
  ⟨"dark green", ofCode 0x006400, ["dark green", "forest green", "deep green"]⟩,
  ⟨"light green", ofCode 0x90EE90, ["light green", "lime", "pale green"]⟩,
  ⟨"emerald", ofCode 0x50C878, ["emerald", "emerald green"]⟩,
  ⟨"blue", ofCode 0x0000FF, ["blue", "bright blue"]⟩,
  ⟨"dark blue", ofCode 0x00008B, ["dark blue", "navy", "navy blue", "deep blue"]⟩,
  ⟨"light blue", ofCode 0xADD8E6, ["light blue", "sky blue", "pale blue"]⟩,
  ⟨"cyan", ofCode 0x00FFFF, ["cyan", "aqua", "turquoise"]⟩,
  ⟨"yellow", ofCode 0xFFFF00, ["yellow", "bright yellow"]⟩,
  ⟨"gold", ofCode 0xFFD700, ["gold", "golden"]⟩,
  ⟨"amber", ofCode 0xFFBF00, ["amber", "honey"]⟩,
  ⟨"orange", ofCode 0xFFA500, ["orange", "bright orange"]⟩,
  ⟨"dark orange", ofCode 0xFF8C00, ["dark orange", "deep orange"]⟩,
  ⟨"purple", ofCode 0x800080, ["purple", "violet"]⟩,
  ⟨"magenta", ofCode 0xFF00FF, ["magenta", "fuchsia"]⟩,
  ⟨"lavender", ofCode 0xE6E6FA, ["lavender", "light purple"]⟩,
  ⟨"pink", ofCode 0xFFC0CB, ["pink", "rose"]⟩,
  ⟨"black", ofCode 0x000000, ["black"]⟩]

/-- One shade of a vague colour word. -/
structure Shade where
  id : String
  label : String
  color : Color
  deriving DecidableEq, Repr

/-- A vague colour word and its shades; the first shade is assumed. -/
structure VagueColor where
  word : String
  assumed : Shade
  others : List Shade
  deriving DecidableEq, Repr

/-- Every shade of a vague word. -/
def VagueColor.shades (vague : VagueColor) : List Shade :=
  vague.assumed :: vague.others

/-- The vague colour words. -/
def vagueColors : List VagueColor := [
  ⟨"green", ⟨"forest", "Forest green", ofCode 0x228B22⟩,
    [⟨"lime", "Lime green", ofCode 0x32CD32⟩, ⟨"emerald", "Emerald", ofCode 0x50C878⟩,
      ⟨"mint", "Mint", ofCode 0x98FF98⟩]⟩,
  ⟨"blue", ⟨"royal", "Royal blue", ofCode 0x4169E1⟩,
    [⟨"sky", "Sky blue", ofCode 0x87CEEB⟩, ⟨"navy", "Navy", ofCode 0x000080⟩,
      ⟨"cyan", "Cyan", ofCode 0x00FFFF⟩]⟩,
  ⟨"red", ⟨"bright", "Bright red", ofCode 0xFF0000⟩,
    [⟨"crimson", "Crimson", ofCode 0xDC143C⟩, ⟨"dark", "Dark red", ofCode 0x8B0000⟩]⟩,
  ⟨"purple", ⟨"violet", "Violet", ofCode 0xEE82EE⟩,
    [⟨"deep", "Deep purple", ofCode 0x673AB7⟩, ⟨"lavender", "Lavender", ofCode 0xE6E6FA⟩]⟩]

/-! ## Sightings -/

/-- A place where a clause names a colour: the first character, one past the last, and the
place of the colour in the table. -/
structure Sighting where
  first : Nat
  stop : Nat
  entry : Nat
  deriving DecidableEq, Repr

namespace Sighting

/-- The number of characters of a sighting. -/
def length (sighting : Sighting) : Nat :=
  sighting.stop - sighting.first

/-- Whether a stretch of a clause lies inside a sighting. -/
def covers (sighting : Sighting) (first stop : Nat) : Bool :=
  decide (sighting.first ≤ first ∧ stop ≤ sighting.stop)

/-- Whether a sighting takes the place of another: it is longer and covers it, or it has the
same place and an earlier entry. -/
def shadows (sighting other : Sighting) : Bool :=
  sighting.covers other.first other.stop &&
    (decide (other.length < sighting.length) ||
      decide (sighting.first = other.first ∧ sighting.stop = other.stop ∧
        sighting.entry < other.entry))

end Sighting

/-- The sightings of one named colour, phrase by phrase. -/
def sightingsOf (clause : List Char) (entry : Nat) (named : NamedColor) : List Sighting :=
  named.phrases.flatMap fun phrase =>
    (Text.occurrences phrase.toList clause).map fun first =>
      ⟨first, first + phrase.toList.length, entry⟩

/-- Every sighting of a colour in a clause. -/
def sightings (clause : List Char) : List Sighting :=
  namedColors.zipIdx.flatMap fun (named, entry) => sightingsOf clause entry named

/-- The sightings that no other one takes the place of, in order of place. -/
def clearSightings (clause : List Char) : List Sighting :=
  let all := sightings clause
  (all.filter fun sighting => !all.any fun other => other.shadows sighting).mergeSort
    fun a b => decide (a.first < b.first ∨ a.first = b.first ∧ a.entry ≤ b.entry)

/-- The first sighting of each entry; `seen` lists the entries that were there before. -/
def firstOfEach (seen : List Nat) : List Sighting → List Sighting
  | [] => []
  | sighting :: rest =>
      if seen.contains sighting.entry then firstOfEach seen rest
      else sighting :: firstOfEach (sighting.entry :: seen) rest

/-- A colour that a clause names, and where. -/
structure ColorMention where
  name : String
  color : Color
  first : Nat
  stop : Nat
  deriving DecidableEq, Repr

/-- The colours a clause names, each once, in order of place. -/
def colors (clause : List Char) : List ColorMention :=
  (firstOfEach [] (clearSightings clause)).filterMap fun sighting =>
    namedColors[sighting.entry]?.map fun named =>
      ⟨named.name, named.color, sighting.first, sighting.stop⟩

/-- A vague colour word that a clause uses, and where. -/
structure VagueMention where
  vague : VagueColor
  first : Nat
  deriving DecidableEq, Repr

/-- Whether a stretch of a clause lies inside a longer sighting. -/
def insideLonger (all : List Sighting) (first length : Nat) : Bool :=
  all.any fun sighting =>
    sighting.covers first (first + length) && decide (length < sighting.length)

/-- The first bare use of a vague word. -/
def bareUse? (clause : List Char) (vague : VagueColor) : Option VagueMention :=
  let all := sightings clause
  ((Text.occurrences vague.word.toList clause).find? fun first =>
    !insideLonger all first vague.word.toList.length).map (⟨vague, ·⟩)

/-- The vague words a clause uses bare. -/
def vagueMentions (clause : List Char) : List VagueMention :=
  vagueColors.filterMap (bareUse? clause)

end Eaves.Prompt
