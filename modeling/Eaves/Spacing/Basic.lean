/-!
# Spacing rules

How lit lights are distributed within a zone.  The parameters are plain integers:
a rule with parameters that no strip can satisfy is still a rule, and is reported
by the checks instead of being refused.
-/

namespace Eaves

/-- How lit lights are distributed within a zone. -/
inductive Spacing where
  /-- A repeating cycle of lit and dark lights. -/
  | pattern (on off : Int) (startLit : Bool)
  /-- A number of lights spread evenly, both ends included. -/
  | equallySpaced (count : Int)
  /-- One lit light in every interval. -/
  | everyNth (interval : Int)
  /-- Only the anchors of the segments. -/
  | anchorsOnly
  /-- Every light. -/
  | continuous
  deriving DecidableEq, Repr

namespace Spacing

instance : Inhabited Spacing := ⟨.continuous⟩

/-- The tag that tells the kinds of rules apart in data. -/
def tag : Spacing → String
  | .pattern .. => "pattern"
  | .equallySpaced _ => "equally_spaced"
  | .everyNth _ => "every_nth"
  | .anchorsOnly => "anchors_only"
  | .continuous => "continuous"

/-- The rule in words. -/
def description : Spacing → String
  | .pattern on off _ => toString on ++ " on, " ++ toString off ++ " off"
  | .equallySpaced count => toString count ++ " equally spaced"
  | .everyNth interval => "every " ++ toString interval ++ " pixels"
  | .anchorsOnly => "anchors only"
  | .continuous => "continuous"

/-- Whether some strip could satisfy the rule: counts and intervals are positive and gaps not
negative. -/
def hasValidParameters : Spacing → Bool
  | .pattern on off _ => decide (0 < on ∧ 0 ≤ off)
  | .equallySpaced count => decide (0 < count)
  | .everyNth interval => decide (0 < interval)
  | .anchorsOnly | .continuous => true

/-- Every other light. -/
def everyOther : Spacing := .pattern 1 1 true

/-- One light lit, two dark. -/
def oneOnTwoOff : Spacing := .pattern 1 2 true

/-- Two lights lit, one dark. -/
def twoOnOneOff : Spacing := .pattern 2 1 true

end Spacing

end Eaves
