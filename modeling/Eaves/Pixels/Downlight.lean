import Eaves.Light.Color
import Eaves.Number.Scalar
import Eaves.Pixels.Group
import Eaves.Roofline.Basic
import Eaves.Word

/-!
# Templates on a roofline

A template lights a whole roofline by one rule, without layers.  It walks the roofline
segment by segment and passes over segments without lights.  Downlighting lights the
anchors and, in each gap between one anchor's width and the next anchor, a number of
single lights spread evenly.
-/

namespace Eaves

open Number (Scalar Binary64)

/-- The rule a template follows. -/
inductive TemplateKind where
  | downlighting
  | chaseBySegment
  | alternatingSegments
  | cornerAccent
  | uniform
  | anchorsOnly
  deriving DecidableEq, Repr

instance : Vocabulary TemplateKind where
  title := "PatternTemplateType"
  members := [.downlighting, .chaseBySegment, .alternatingSegments, .cornerAccent, .uniform,
    .anchorsOnly]
  word
    | .downlighting => "downlighting"
    | .chaseBySegment => "chase_by_segment"
    | .alternatingSegments => "alternating_segments"
    | .cornerAccent => "corner_accent"
    | .uniform => "uniform"
    | .anchorsOnly => "anchors_only"

/-- A rule for a whole roofline, with its colours and counts. -/
structure Template where
  kind : TemplateKind := .downlighting
  anchorColor : Color := .pureWhite
  spacedColor : Color := .pureWhite
  secondaryColor : Option Color := none
  /-- The lights placed in each gap between anchors. -/
  spacingCount : Nat := 3
  /-- Whether the anchors themselves are lit. -/
  anchorsOn : Bool := true
  effectId : Int := 0
  speed : Level := 128
  intensity : Level := 128
  deriving DecidableEq, Repr, Inhabited

/-- A group of a stretch of lights; a stretch that ends before it starts is refused. -/
def Group.ofSpan (first last : Nat) (color : Color) : Outcome Group :=
  match Group.span? first last color with
  | some group => .ok group
  | none =>
      .error (.invalid [⟨[], .value ("end_led " ++ toString last ++ " is before start_led " ++
        toString first)⟩])

namespace Segment

/-- The group of all lights of a segment that has some. -/
def wholeGroup (segment : Segment) (color : Color) : Outcome Group :=
  Group.ofSpan segment.startPixel (segment.startPixel + segment.pixelCount - 1) color

/-- The groups of a segment's anchors, as far as the segment reaches. -/
def anchorGroups (segment : Segment) (color : Color) : Outcome (List Group) :=
  segment.globalAnchors.mapM fun anchor =>
    Group.ofSpan anchor
      (min (anchor + segment.anchorWidth.val - 1) (segment.startPixel + segment.pixelCount - 1))
      color

/-- The offset of spaced light number `index` in a gap of `length` lights that starts at
`first`, when `count` lights are spread over the gap. -/
def spacedOffset (α : Type) [Scalar α] (first length : Int) (count index : Nat) : Outcome Int :=
  liftNumber do
    let interval ← Scalar.quotient (α := α) length ((count : Int) + 1)
    let times ← Scalar.ofInt (α := α) index
    let offset ← Scalar.roundHalfUp (Scalar.mul interval times)
    return first + offset

/-- The spaced lights of the gap after one anchor and before the next: those that fall outside
the gap or into the width of an anchor are dropped. -/
def gapOffsets (α : Type) [Scalar α] (segment : Segment) (count : Nat) (anchor next : Nat) :
    Outcome (List Int) := do
  let first : Int := (anchor : Int) + segment.anchorWidth.val
  let last : Int := (next : Int) - 1
  let length := last - first + 1
  if length ≤ 0 then return []
  else
    let offsets ← (List.range' 1 count).mapM (spacedOffset α first length count)
    return offsets.filter fun offset =>
      decide (first ≤ offset ∧ offset ≤ last) && !segment.isAnchor offset

/-- The gaps between neighbouring anchors. -/
def anchorGaps (segment : Segment) : List (Nat × Nat) :=
  segment.effectiveAnchors.zip (segment.effectiveAnchors.drop 1)

/-- The local offsets of the single lights spread between neighbouring anchors. -/
def spacedOffsets (α : Type) [Scalar α] (segment : Segment) (count : Int) :
    Outcome (List Int) :=
  if count ≤ 0 then .ok []
  else do
    let gaps ← segment.anchorGaps.mapM fun gap => gapOffsets α segment count.toNat gap.1 gap.2
    return gaps.flatten

end Segment

namespace Template

/-- The segments that have lights. -/
def litSegments (roofline : Roofline) : List Segment :=
  roofline.segments.filter fun segment => decide (0 < segment.pixelCount)

/-- The groups of one downlit segment. -/
def downlightSegment (anchorColor spacedColor : Color) (count : Nat) (anchorsOn : Bool)
    (segment : Segment) : Outcome (List Group) := do
  let anchors ← if anchorsOn then segment.anchorGroups anchorColor else .ok []
  let offsets ← segment.spacedOffsets Binary64 count
  return anchors ++ offsets.map fun offset =>
    Group.single (segment.startPixel + offset.toNat) spacedColor

/-- Anchors, and single lights spread between them. -/
def downlighting (roofline : Roofline) (anchorColor spacedColor : Color) (count : Nat)
    (anchorsOn : Bool) : Outcome (List Group) := do
  let groups ← (litSegments roofline).mapM
    (downlightSegment anchorColor spacedColor count anchorsOn)
  return groups.flatten

/-- Every segment in a colour of its own. -/
def perSegment (roofline : Roofline) (color : Nat → Segment → Color) : Outcome (List Group) :=
  ((roofline.segments.zipIdx.filter fun placed => decide (0 < placed.1.pixelCount)).mapM
    fun placed => placed.1.wholeGroup (color placed.2 placed.1))

/-- Whether a shape is accented at corners and peaks. -/
def accented (shape : Shape) : Bool :=
  shape == .corner || shape == .peak

/-- The groups of a template before they are merged. -/
def unmerged (template : Template) (roofline : Roofline) : Outcome (List Group) :=
  let main := template.anchorColor
  let other := template.spacedColor
  match template.kind with
  | .downlighting =>
      downlighting roofline main other template.spacingCount template.anchorsOn
  | .chaseBySegment => perSegment roofline fun _ _ => main
  | .alternatingSegments =>
      let second := template.secondaryColor.getD other
      perSegment roofline fun position _ => if position % 2 = 0 then main else second
  | .cornerAccent =>
      perSegment roofline fun _ segment => if accented segment.shape then main else other
  | .uniform =>
      if roofline.total = 0 then .ok []
      else (Group.ofSpan 0 (roofline.total - 1) main).map ([·])
  | .anchorsOnly => downlighting roofline main main 0 true

/-- The groups of a template on a roofline. -/
def groups (template : Template) (roofline : Roofline) : Outcome (List Group) :=
  (template.unmerged roofline).map Group.merge

end Template

end Eaves
