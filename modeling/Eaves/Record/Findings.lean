import Eaves.Prompt.Clause
import Eaves.Value.Basic

/-!
# Findings in data

Everything that is found in one clause of a prompt, before a layer is made of it.
-/

namespace Eaves.Prompt

/-- A colour that is mentioned, with its place. -/
def colorFinding (mention : ColorMention) : Value :=
  .list [.text mention.name, .text mention.color.toHex, .int mention.first, .int mention.stop]

/-- A vague colour that is mentioned, with its place and the shades it may mean. -/
def vagueFinding (mention : VagueMention) : Value :=
  .list [.text mention.vague.word, .int mention.first,
    .list (mention.vague.shades.map fun shade => .text shade.id)]

/-- What is found in a clause. -/
def findings (clause : List Char) (defaultCount : Int) : Outcome Entries := do
  let rule ← spacing clause defaultCount
  return [("roles", .list ((features.found clause).map .ofWord)),
    ("location", .ofOption .ofWord (sides.first? clause)),
    ("level", .ofOption (fun storey => .int storey.val) (storeys.first? clause)),
    ("spacing", .ofOption Spacing.toValue rule),
    ("motion", .ofOption .ofWord (motions.first? clause)),
    ("direction", .ofOption .ofWord (directions.first? clause)),
    ("speed", (speed clause).toValue), ("pattern", .ofWord (layout clause)),
    ("colors", .list ((colors clause).map colorFinding)),
    ("vague", .list ((vagueMentions clause).map vagueFinding))]

end Eaves.Prompt
