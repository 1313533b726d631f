import Eaves.Design.Intent

/-!
# Verdicts

Each check of a design gives a verdict.  A failed one has a reason and may suggest
nearby settings, each with its deviation from what was asked for: zero is no change.
-/

namespace Eaves

open Number (Binary64)

/-- What a check looks at. -/
inductive CheckKind where
  | spacing
  | contrast
  | zoneExistence
  deriving DecidableEq, Repr

instance : Vocabulary CheckKind where
  title := "ConstraintType"
  members := [.spacing, .contrast, .zoneExistence]
  word
    | .spacing => "spacing_math"
    | .contrast => "color_contrast"
    | .zoneExistence => "zone_existence"

/-- A nearby setting. -/
structure Suggestion where
  id : String
  label : String
  description : String := ""
  deviation : Binary64 := .finite 0
  value : Value := .null
  deriving Repr, Inhabited

/-- The result of one check. -/
structure Verdict where
  kind : CheckKind
  description : String
  satisfied : Bool
  reason : Option String := none
  suggestions : List Suggestion := []
  layerId : Option String := none
  deriving Repr

/-- The results of every check of a design, and the flags they raise. -/
structure Validation where
  verdicts : List Verdict := []
  flags : List Ambiguity := []
  deriving Repr, Inhabited

namespace Validation

/-- Whether every check is satisfied. -/
def allSatisfied (validation : Validation) : Bool :=
  validation.verdicts.all Verdict.satisfied

/-- The verdicts of failed checks. -/
def failed (validation : Validation) : List Verdict :=
  validation.verdicts.filter fun verdict => !verdict.satisfied

end Validation

end Eaves
