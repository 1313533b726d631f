import Eaves.Check.Spacing
import Eaves.Light.Color
import Eaves.Zone.Resolve

/-!
# Checks of a design

Before a design is shown it is checked against the roofline: every zone has to
exist, every spacing rule has to fit its zone, and layers that overlap should differ
in brightness.  A spacing rule that does not fit is asked about, unless its
parameters are beyond repair or the user has confirmed it.
-/

namespace Eaves.Check

open Number (Binary64)

/-! ## Zones -/

/-- Why a zone does not exist on a roofline; nothing where it does. -/
def missing? (zone : Zone) (roofline : Roofline) : Option String :=
  match zone with
  | .segments ids =>
      let absent := ids.val.filter fun id => (roofline.byId? id).isNone
      if absent.isEmpty then none
      else some ("Segment(s) not found: " ++ ", ".intercalate absent)
  | .level storey =>
      if (roofline.onLevel storey.val).isEmpty then
        some ("No segments on level " ++ toString storey.val)
      else none
  | .custom ranges =>
      (ranges.val.find? fun range => decide (roofline.total ≤ range.last)).map fun range =>
        "Pixel range " ++ toString range.first ++ "-" ++ toString range.last ++ " exceeds " ++
          toString roofline.total ++ " pixels"
  | .all | .features _ | .side _ => none

/-- Whether a zone names something that a roofline may lack. -/
def canBeMissing : Zone → Bool
  | .segments _ | .level _ | .custom _ => true
  | .all | .features _ | .side _ => false

/-- The verdict on a layer's zone, where it names something that may be missing. -/
def zoneExistence (layer : Layer) (roofline : Roofline) : List Verdict :=
  if canBeMissing layer.zone then
    let reason := missing? layer.zone roofline
    [{ kind := .zoneExistence
       description := layer.zone.description ++ " exists"
       satisfied := reason.isNone
       reason := reason
       layerId := some layer.id }]
  else []

/-! ## Spacing -/

/-- Whether a failed verdict on a layer's rule goes back to the user. -/
def needsQuestion (coloring : Coloring) (verdict : Verdict) : Bool :=
  !verdict.satisfied && (coloring.spacing.map Spacing.hasValidParameters).getD false &&
    !coloring.spacingAccepted

/-- The choices for suggestions: the first one is recommended, and every one that deviates
little. -/
def choicesFor (suggestions : List Suggestion) (settings : CheckSettings) : List Choice :=
  suggestions.zipIdx.map fun (suggestion, rank) =>
    { id := suggestion.id
      label := suggestion.label
      description := suggestion.description
      value := suggestion.value
      recommended := rank == 0 || suggestion.deviation.lt settings.recommendBelow }

/-- The flag for a layer's rule that does not fit. -/
def spacingFlag (layer : Layer) (verdict : Verdict) (settings : CheckSettings) : Ambiguity :=
  { kind := .spacingImpossible
    description := verdict.reason.getD verdict.description
    sourceClause := layer.name
    layerId := some layer.id
    choices := choicesFor verdict.suggestions settings }

/-- The verdicts on one layer and the flags they raise. -/
def layer (layer : Layer) (roofline : Roofline) (settings : CheckSettings) :
    Outcome Validation :=
  let existence := zoneExistence layer roofline
  match layer.coloring.spacing with
  | none => .ok ⟨existence, []⟩
  | some rule => do
      let n ← layer.zone.pixelCount roofline settings
      let verdict ← spacing n rule settings (some layer.id)
      let flags :=
        if needsQuestion layer.coloring verdict then [spacingFlag layer verdict settings] else []
      return ⟨existence ++ [verdict], flags⟩

/-! ## Contrast -/

/-- What may be done about two layers of low contrast. -/
def contrastSuggestions (first second : Layer) : List Suggestion := [
  { id := "keep", label := "Keep colors", description := "Use the colors as requested" },
  { id := "brighten", label := "Increase brightness difference",
    description := "Make " ++ second.name ++ " stand out from " ++ first.name,
    deviation := .decimal 2 1 }]

/-- The verdict on the contrast of two layers. -/
def contrastOf (first second : Layer) (settings : CheckSettings) : Verdict :=
  let contrast := first.coloring.primary.contrast second.coloring.primary
  let satisfied := settings.contrastThreshold.le contrast
  { kind := .contrast
    description := "Contrast between " ++ first.name ++ " and " ++ second.name
    satisfied := satisfied
    reason := if satisfied then none else some ("Low contrast (" ++ contrast.fixed 2 ++ ")")
    suggestions := if satisfied then [] else contrastSuggestions first second
    layerId := some second.id }

/-- The verdicts on every pair of layers that overlap. -/
def contrasts (settings : CheckSettings) : List Layer → List Verdict
  | [] => []
  | first :: rest =>
      (rest.filter fun second => first.zone.overlaps second.zone).map
        (fun second => contrastOf first second settings) ++ contrasts settings rest

/-! ## The whole design -/

/-- Every check of a design on a roofline. -/
def validate (intent : Intent) (roofline : Roofline) (settings : CheckSettings) :
    Outcome Validation := do
  let layers := intent.enabledLayers
  let single ← layers.mapM fun present => layer present roofline settings
  return ⟨single.flatMap Validation.verdicts ++ contrasts settings layers,
    single.flatMap Validation.flags⟩

end Eaves.Check
