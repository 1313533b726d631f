import Eaves.Word

/-!
# The parts of a house

Segments of a strip have a shape and face a side of the house.  People name
coarser features than shapes: eaves and fascia are both runs, and no lit segment
is a soffit.
-/

namespace Eaves

/-- The physical shape of a segment. -/
inductive Shape where
  | run
  | corner
  | peak
  | column
  | connector
  deriving DecidableEq, Repr

instance : Vocabulary Shape where
  title := "SegmentType"
  members := [.run, .corner, .peak, .column, .connector]
  word
    | .run => "run"
    | .corner => "corner"
    | .peak => "peak"
    | .column => "column"
    | .connector => "connector"

/-- A feature of the house as people name it. -/
inductive Feature where
  | peak
  | corner
  | run
  | column
  | eave
  | fascia
  | soffit
  | connector
  deriving DecidableEq, Repr

instance : Vocabulary Feature where
  title := "ArchitecturalRole"
  members := [.peak, .corner, .run, .column, .eave, .fascia, .soffit, .connector]
  word
    | .peak => "peak"
    | .corner => "corner"
    | .run => "run"
    | .column => "column"
    | .eave => "eave"
    | .fascia => "fascia"
    | .soffit => "soffit"
    | .connector => "connector"

/-- The shape of the segments a feature covers. -/
def Feature.shape? : Feature → Option Shape
  | .peak => some .peak
  | .corner => some .corner
  | .run | .eave | .fascia => some .run
  | .column => some .column
  | .connector => some .connector
  | .soffit => none

/-- Whether some of the features cover segments of a shape. -/
def Feature.cover (features : List Feature) (shape : Shape) : Bool :=
  features.any fun feature => feature.shape? == some shape

/-- A feature in the plural. -/
def Feature.plural (feature : Feature) : String :=
  Vocabulary.word feature ++ "s"

/-- A side of the house. -/
inductive Side where
  | front
  | back
  | left
  | right
  deriving DecidableEq, Repr

instance : Vocabulary Side where
  title := "Location"
  members := [.front, .back, .left, .right]
  word
    | .front => "front"
    | .back => "back"
    | .left => "left"
    | .right => "right"

end Eaves
