import Eaves.Bounds
import Eaves.Failure
import Eaves.Number.Power
import Eaves.Number.Scalar

/-!
# Colours

A colour has levels of red, green and blue, and a level of white that only strips
with a dedicated white light use.  This module holds the type, its hexadecimal
form, the straight blend of two colours, the split that moves the common part of
the three channels to the white light, and the contrast of two colours.
-/

namespace Eaves

open Number (Scalar Binary64)

/-- A colour as levels of four lights. -/
structure Color where
  red : Level
  green : Level
  blue : Level
  white : Level := 0
  deriving DecidableEq, Repr, Inhabited

namespace Color

/-- All three channels full. -/
def pureWhite : Color := ⟨255, 255, 255, 0⟩

/-- No light. -/
def black : Color := ⟨0, 0, 0, 0⟩

/-- One channel, if the integer is a level. -/
def channel (n : Int) : Checked Level :=
  match Level.ofInt? n with
  | some level => .valid level
  | none => Checked.fail (if n < 0 then .greaterThanEqual else .lessThanEqual)

/-- The colour with the given channels, if each is a level. -/
def ofChannels (r g b w : Int) : Checked Color :=
  Checked.ap (Checked.ap (Checked.ap
    (((channel r).under "r").map Color.mk)
    ((channel g).under "g"))
    ((channel b).under "b"))
    ((channel w).under "w")

@[simp]
theorem ofChannels_toInt (r g b w : Level) :
    ofChannels r.toInt g.toInt b.toInt w.toInt = .valid ⟨r, g, b, w⟩ := by
  simp [ofChannels, channel]

/-- The three colour channels. -/
def rgb (c : Color) : List Int :=
  [c.red.toInt, c.green.toInt, c.blue.toInt]

/-- All four channels. -/
def rgbw (c : Color) : List Int :=
  [c.red.toInt, c.green.toInt, c.blue.toInt, c.white.toInt]

/-- Whether two colours agree in their three colour channels. -/
def sameRgb (c d : Color) : Bool :=
  c.red == d.red && c.green == d.green && c.blue == d.blue

/-! ## Hexadecimal form -/

/-- A level in two capital hexadecimal digits. -/
def hexPair (level : Level) : List Char :=
  [Nat.digitChar (level.val / 16), Nat.digitChar (level.val % 16)].map Char.toUpper

/-- The three colour channels in six capital hexadecimal digits. -/
def toHex (c : Color) : String :=
  String.ofList (hexPair c.red ++ hexPair c.green ++ hexPair c.blue)

/-- The colour written in three pairs of hexadecimal digits, after trimming blanks and then
number signs at the start.  Each pair is read as a number of its own, so it may hold a sign
or a blank; a negative one is no level. -/
def ofHex (text : String) : Outcome Color :=
  let digits := (Text.trim text.toList).dropWhile (· == '#')
  if digits.length = 6 then do
    let r ← liftNumeral (Text.hexNumeral (digits.take 2))
    let g ← liftNumeral (Text.hexNumeral ((digits.drop 2).take 2))
    let b ← liftNumeral (Text.hexNumeral (digits.drop 4))
    (ofChannels r g b 0).toOutcome
  else .error (.notSixHexDigits text)

/-! ## Blends -/

/-- One channel moved the share `t` of the way from `a` to `b`. -/
def blendChannel {α : Type} [Scalar α] (t : α) (a b : Level) : Outcome Int :=
  liftNumber do
    let start ← Scalar.ofInt (α := α) a.toInt
    let distance ← Scalar.ofInt (α := α) (b.toInt - a.toInt)
    Scalar.round (Scalar.add start (Scalar.mul distance t))

/-- The colour the share `t` of the way from `c` to `d`; a share outside `[0, 1]` counts as
the nearest end. -/
def blend {α : Type} [Scalar α] (c d : Color) (t : α) : Outcome Color := do
  let share := Scalar.greatest (Scalar.ofRat 0) (Scalar.least (Scalar.ofRat 1) t)
  let r ← blendChannel share c.red d.red
  let g ← blendChannel share c.green d.green
  let b ← blendChannel share c.blue d.blue
  let w ← blendChannel share c.white d.white
  (ofChannels r g b w).toOutcome

/-! ## The white light -/

/-- What the white light of a strip is told. -/
inductive WhiteRule where
  /-- The common part of the three channels moves to the white light. -/
  | extract
  /-- The white light gets the given level, the channels stay. -/
  | explicit (level : Int)
  /-- The white light stays dark, the channels stay. -/
  | off
  deriving DecidableEq, Repr

/-- The four channel values that show a colour on a strip with a white light. -/
def splitWhite (c : Color) : WhiteRule → List Int
  | .off => [c.red.toInt, c.green.toInt, c.blue.toInt, 0]
  | .explicit level => [c.red.toInt, c.green.toInt, c.blue.toInt, (Level.clamp level).toInt]
  | .extract =>
      let white := min c.red.toInt (min c.green.toInt c.blue.toInt)
      [c.red.toInt - white, c.green.toInt - white, c.blue.toInt - white, white]

/-! ## Contrast

Two overlapping layers should differ in brightness.  The relative luminance of a
colour weighs its linearised channels; the contrast of two colours is the ratio of
their luminances, each raised by a small constant, scaled so that black against
white is one.
-/

/-- The share of full light that a channel at the given level gives off. -/
def linearLight (level : Level) : Binary64 :=
  let share := (Binary64.ofRat (level.val : Int)).div (.finite 255)
  if share.le (.decimal 3928 5) then share.div (.decimal 1292 2)
  else
    let base := (share.add (.decimal 55 3)).div (.decimal 1055 3)
    Number.Power.power base.toRat (Binary64.decimal 24 1).toRat

/-- The relative luminance of a colour. -/
def luminance (c : Color) : Binary64 :=
  (((Binary64.decimal 2126 4).mul (linearLight c.red)).add
    ((Binary64.decimal 7152 4).mul (linearLight c.green))).add
    ((Binary64.decimal 722 4).mul (linearLight c.blue))

/-- The contrast of two colours, one for black against white. -/
def contrast (c d : Color) : Binary64 :=
  let first := c.luminance
  let second := d.luminance
  let lighter := first.greatest second
  let darker := first.least second
  ((lighter.add (.decimal 5 2)).div (darker.add (.decimal 5 2))).div (.finite 21)

end Color

end Eaves
