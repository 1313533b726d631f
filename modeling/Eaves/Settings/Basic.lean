import Eaves.Bounds
import Eaves.Number.Binary64

/-!
# Settings

The numbers a user may tune, with their defaults: how the parser scores its
confidence, what the checks tolerate and how far they search, how the controller
is reached and how failed deliveries are repeated, and what is logged.
-/

namespace Eaves

open Number (Binary64)

/-- How much is logged, how and where to. -/
structure LogSettings where
  level : String := "INFO"
  format : String := "%(asctime)s - %(name)s - %(levelname)s - %(message)s"
  structured : Bool := false
  filename : Option String := none
  deriving DecidableEq, Repr, Inhabited

/-- Scoring and defaults of the prompt parser. -/
structure ParserSettings where
  ambiguityPenalty : Binary64 := .decimal 15 2
  allZonePenalty : Binary64 := .decimal 5 2
  whitePenalty : Binary64 := .decimal 1 1
  /-- A feature that covers more segments than this is asked about. -/
  segmentThreshold : Nat := 4
  /-- The count assumed where equal spacing is asked for without a number. -/
  defaultCount : Positive := 10
  deriving DecidableEq, Repr, Inhabited

/-- Thresholds and search radii of the checks. -/
structure CheckSettings where
  /-- The least contrast of overlapping layers. -/
  contrastThreshold : Binary64 := .decimal 3 1
  /-- How far from a whole number a spacing may be and still count as even. -/
  spacingTolerance : Binary64 := .decimal 1 2
  countRadius : Positive := 3
  intervalRadius : Positive := 2
  maxAlternatives : Positive := 4
  /-- An alternative that deviates less than this is recommended. -/
  recommendBelow : Binary64 := .decimal 1 1
  /-- The deviation assigned to keeping a pattern with its remainder. -/
  keepRemainder : Binary64 := .decimal 1 1
  /-- The share of the strip a feature without tagged segments is taken to cover. -/
  featureShare : Binary64 := .decimal 2 1
  /-- The share of the strip a side without tagged segments is taken to cover. -/
  sideShare : Binary64 := .decimal 4 1
  deriving DecidableEq, Repr, Inhabited

/-- How failed deliveries are repeated. -/
structure RetryPolicy where
  maxAttempts : Positive := 3
  baseDelay : Binary64 := .decimal 25 2
  maxDelay : Binary64 := .finite 2
  jitter : Binary64 := .decimal 15 2
  retryStatuses : List Int := [408, 429, 500, 502, 503, 504]
  deriving DecidableEq, Repr, Inhabited

/-- How the controller is reached. -/
structure DeviceSettings where
  host : Option String := none
  timeout : Binary64 := .finite 5
  brightness : Level := 200
  rgbw : Bool := false
  retry : RetryPolicy := {}
  deriving DecidableEq, Repr, Inhabited

/-- All settings of the application. -/
structure AppSettings where
  logging : LogSettings := {}
  parsing : ParserSettings := {}
  checks : CheckSettings := {}
  device : DeviceSettings := {}
  deriving DecidableEq, Repr, Inhabited

/-- The root address of a host; a host that names no scheme is reached over plain HTTP. -/
def addressOf (host : String) : String :=
  if host.startsWith "http://" || host.startsWith "https://" then host else "http://" ++ host

/-- The root address of the configured controller. -/
def DeviceSettings.baseUrl (device : DeviceSettings) : Option String :=
  device.host.map addressOf

end Eaves
