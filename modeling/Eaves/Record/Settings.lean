import Eaves.Record.Reader
import Eaves.Settings.Basic

/-!
# Settings in data

Settings pass over keys they do not know, so a file written for a later version
still loads.  The greatest delay of a retry policy is compared with its base delay
only when it is given; a base delay that is itself a problem counts as a quarter
of a second there.
-/

namespace Eaves

open Number (Binary64)
open Reader

/-- The names of log levels that settings accept. -/
def settingsLevels : List String := ["DEBUG", "INFO", "WARNING", "ERROR", "CRITICAL"]

/-- Reads the name of a log level. -/
def readLogLevel (value : Value) : Checked String :=
  (text value).andThen fun name =>
    if settingsLevels.contains name then .valid name else Checked.fail .stringPatternMismatch

/-- Reads the log settings. -/
def LogSettings.read : Reader LogSettings :=
  openRecord fun es =>
    LogSettings.mk <$> defaulted es "level" ({} : LogSettings).level readLogLevel <*>
      defaulted es "format" ({} : LogSettings).format text <*>
      defaulted es "structured" false bool <*> defaulted es "filename" none (nullable text)

/-- The log settings as data. -/
def LogSettings.toValue (settings : LogSettings) : Value :=
  .object [("level", .text settings.level), ("format", .text settings.format),
    ("structured", .bool settings.structured), ("filename", .ofText? settings.filename)]

/-- Reads the parser settings. -/
def ParserSettings.read : Reader ParserSettings :=
  let usual : ParserSettings := {}
  openRecord fun es =>
    ParserSettings.mk <$> defaulted es "ambiguity_penalty" usual.ambiguityPenalty share <*>
      defaulted es "all_zone_penalty" usual.allZonePenalty share <*>
      defaulted es "white_primary_penalty" usual.whitePenalty share <*>
      defaulted es "zone_ambiguity_segment_threshold" usual.segmentThreshold nat <*>
      defaulted es "default_equally_spaced_count" usual.defaultCount positive

/-- The parser settings as data. -/
def ParserSettings.toValue (settings : ParserSettings) : Value :=
  .object [("ambiguity_penalty", .float settings.ambiguityPenalty),
    ("all_zone_penalty", .float settings.allZonePenalty),
    ("white_primary_penalty", .float settings.whitePenalty),
    ("zone_ambiguity_segment_threshold", .int settings.segmentThreshold),
    ("default_equally_spaced_count", .int settings.defaultCount.val)]

/-- Reads the settings of the checks. -/
def CheckSettings.read : Reader CheckSettings :=
  let usual : CheckSettings := {}
  openRecord fun es =>
    CheckSettings.mk <$> defaulted es "contrast_threshold" usual.contrastThreshold share <*>
      defaulted es "spacing_tolerance" usual.spacingTolerance aboveZero <*>
      defaulted es "equally_spaced_search_radius" usual.countRadius positive <*>
      defaulted es "every_nth_search_radius" usual.intervalRadius positive <*>
      defaulted es "max_alternatives" usual.maxAlternatives positive <*>
      defaulted es "recommend_below_deviation" usual.recommendBelow nonNegative <*>
      defaulted es "keep_remainder_deviation" usual.keepRemainder nonNegative <*>
      defaulted es "architectural_fallback_fraction" usual.featureShare shareAboveZero <*>
      defaulted es "location_fallback_fraction" usual.sideShare shareAboveZero

/-- The settings of the checks as data. -/
def CheckSettings.toValue (settings : CheckSettings) : Value :=
  .object [("contrast_threshold", .float settings.contrastThreshold),
    ("spacing_tolerance", .float settings.spacingTolerance),
    ("equally_spaced_search_radius", .int settings.countRadius.val),
    ("every_nth_search_radius", .int settings.intervalRadius.val),
    ("max_alternatives", .int settings.maxAlternatives.val),
    ("recommend_below_deviation", .float settings.recommendBelow),
    ("keep_remainder_deviation", .float settings.keepRemainder),
    ("architectural_fallback_fraction", .float settings.featureShare),
    ("location_fallback_fraction", .float settings.sideShare)]

/-- Reads the greatest delay, which may not be below the base delay. -/
def readMaxDelay (base : Checked Binary64) (value : Value) : Checked Binary64 :=
  (nonNegative value).andThen fun delay =>
    let least :=
      match base with
      | .valid base => base
      | .invalid _ => ({} : RetryPolicy).baseDelay
    if delay.lt least then Checked.fail (.value "max_delay_s must be >= base_delay_s")
    else .valid delay

/-- Reads a retry policy. -/
def RetryPolicy.read : Reader RetryPolicy :=
  let usual : RetryPolicy := {}
  openRecord fun es =>
    let base := defaulted es "base_delay_s" usual.baseDelay nonNegative
    RetryPolicy.mk <$> defaulted es "max_attempts" usual.maxAttempts positive <*> base <*>
      defaulted es "max_delay_s" usual.maxDelay (readMaxDelay base) <*>
      defaulted es "jitter" usual.jitter share <*>
      defaulted es "retry_on_status" usual.retryStatuses (row int)

/-- A retry policy as data. -/
def RetryPolicy.toValue (policy : RetryPolicy) : Value :=
  .object [("max_attempts", .int policy.maxAttempts.val), ("base_delay_s", .float policy.baseDelay),
    ("max_delay_s", .float policy.maxDelay), ("jitter", .float policy.jitter),
    ("retry_on_status", .ofInts policy.retryStatuses)]

/-- Text without the slashes at its end. -/
def dropEndSlashes (cs : List Char) : List Char :=
  (cs.reverse.dropWhile (· == '/')).reverse

/-- Reads the host of a controller: without blanks around it or slashes at its end, and not
empty. -/
def readHost (value : Value) : Checked (Option String) :=
  (nullable text value).andThen fun
    | none => .valid none
    | some host =>
        let trimmed := dropEndSlashes (Text.trim host.toList)
        if trimmed.isEmpty then Checked.fail (.value "host cannot be empty")
        else .valid (some (String.ofList trimmed))

/-- Reads the device settings. -/
def DeviceSettings.read : Reader DeviceSettings :=
  let usual : DeviceSettings := {}
  openRecord fun es =>
    DeviceSettings.mk <$> defaulted es "host" none readHost <*>
      defaulted es "timeout_s" usual.timeout aboveZero <*>
      defaulted es "brightness" usual.brightness level <*> defaulted es "rgbw" false bool <*>
      defaulted es "retry" {} RetryPolicy.read

/-- The device settings as data. -/
def DeviceSettings.toValue (device : DeviceSettings) : Value :=
  .object [("host", .ofText? device.host), ("timeout_s", .float device.timeout),
    ("brightness", device.brightness.toValue), ("rgbw", .bool device.rgbw),
    ("retry", device.retry.toValue)]

/-- Reads the settings of the application. -/
def AppSettings.read : Reader AppSettings :=
  openRecord fun es =>
    AppSettings.mk <$> defaulted es "logging" {} LogSettings.read <*>
      defaulted es "parser" {} ParserSettings.read <*>
      defaulted es "solver" {} CheckSettings.read <*>
      defaulted es "device" {} DeviceSettings.read

/-- The settings of the application as data. -/
def AppSettings.toValue (settings : AppSettings) : Value :=
  .object [("logging", settings.logging.toValue), ("parser", settings.parsing.toValue),
    ("solver", settings.checks.toValue), ("device", settings.device.toValue)]

end Eaves
