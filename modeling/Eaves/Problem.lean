/-!
# Problems found in data

Data handed in from outside is read into typed records.  Reading does not stop at
the first thing that is wrong: a `Checked` value is either valid, or lists every
problem with the place where it was found.
-/

namespace Eaves

/-- What is wrong at one place of the data. -/
inductive Fault where
  | missing
  | extraForbidden
  | greaterThanEqual
  | greaterThan
  | lessThanEqual
  | intType
  | intParsing
  | intParsingSize
  | intFromFloat
  | floatType
  | floatParsing
  | finiteNumber
  | stringType
  | stringTooShort
  | stringPatternMismatch
  | boolType
  | boolParsing
  | enum
  | listType
  | tupleType
  | dictType
  | tooShort
  | tooLong
  | unionTagNotFound
  | unionTagInvalid
  | modelType
  | modelAttributesType
  | datetimeType
  | datetimeParsing
  | datetimeFromDateParsing
  /-- A rule of the record itself is broken; the text says which. -/
  | value (text : String)
  deriving DecidableEq, Repr

/-- The word a fault is reported by. -/
def Fault.word : Fault → String
  | .missing => "missing"
  | .extraForbidden => "extra_forbidden"
  | .greaterThanEqual => "greater_than_equal"
  | .greaterThan => "greater_than"
  | .lessThanEqual => "less_than_equal"
  | .intType => "int_type"
  | .intParsing => "int_parsing"
  | .intParsingSize => "int_parsing_size"
  | .intFromFloat => "int_from_float"
  | .floatType => "float_type"
  | .floatParsing => "float_parsing"
  | .finiteNumber => "finite_number"
  | .stringType => "string_type"
  | .stringTooShort => "string_too_short"
  | .stringPatternMismatch => "string_pattern_mismatch"
  | .boolType => "bool_type"
  | .boolParsing => "bool_parsing"
  | .enum => "enum"
  | .listType => "list_type"
  | .tupleType => "tuple_type"
  | .dictType => "dict_type"
  | .tooShort => "too_short"
  | .tooLong => "too_long"
  | .unionTagNotFound => "union_tag_not_found"
  | .unionTagInvalid => "union_tag_invalid"
  | .modelType => "model_type"
  | .modelAttributesType => "model_attributes_type"
  | .datetimeType => "datetime_type"
  | .datetimeParsing => "datetime_parsing"
  | .datetimeFromDateParsing => "datetime_from_date_parsing"
  | .value text => "value_error (Value error, " ++ text ++ ")"

/-- A fault and the path of keys and positions that leads to it. -/
structure Problem where
  path : List String
  fault : Fault
  deriving DecidableEq, Repr

namespace Problem

/-- The problem as one clause of a report. -/
def text (problem : Problem) : String :=
  ".".intercalate problem.path ++ ": " ++ problem.fault.word

/-- All problems as one report. -/
def report (problems : List Problem) : String :=
  "; ".intercalate (problems.map text)

end Problem

/-- A value that passed every check, or the problems that were found. -/
inductive Checked (α : Type) where
  | valid (value : α)
  | invalid (problems : List Problem)
  deriving DecidableEq, Repr

namespace Checked

variable {α β : Type}

/-- Applies a function to a valid value. -/
def map (f : α → β) : Checked α → Checked β
  | .valid value => .valid (f value)
  | .invalid problems => .invalid problems

/-- Both checks are made; the problems of the first come first. -/
def ap : Checked (α → β) → Checked α → Checked β
  | .valid f, .valid value => .valid (f value)
  | .valid _, .invalid problems => .invalid problems
  | .invalid problems, .valid _ => .invalid problems
  | .invalid problems, .invalid more => .invalid (problems ++ more)

instance : Functor Checked where
  map := map

instance : Applicative Checked where
  pure := .valid
  seq f value := ap f (value ())

/-- A further check that is made only of a valid value. -/
def andThen (check : α → Checked β) : Checked α → Checked β
  | .valid value => check value
  | .invalid problems => .invalid problems

/-- Keeps the value of the first check if the second finds nothing. -/
def guardedBy (checked : Checked α) (guard : Checked Unit) : Checked α :=
  ap (checked.map fun value _ => value) guard

/-- Places every problem below one more step of the path. -/
def under (step : String) : Checked α → Checked α
  | .valid value => .valid value
  | .invalid problems =>
      .invalid (problems.map fun problem => { problem with path := step :: problem.path })

/-- A single fault at the place being checked. -/
def fail (fault : Fault) : Checked α :=
  .invalid [⟨[], fault⟩]

/-- The valid value, if there is one. -/
def toOption : Checked α → Option α
  | .valid value => some value
  | .invalid _ => none

/-- Checks every member of a list, each below its position. -/
def listFrom (check : β → Checked α) : (position : Nat) → List β → Checked (List α)
  | _, [] => .valid []
  | position, item :: rest =>
      ap (((check item).under (toString position)).map List.cons)
        (listFrom check (position + 1) rest)

@[simp]
theorem map_valid (f : α → β) (value : α) : map f (.valid value) = .valid (f value) :=
  rfl

@[simp]
theorem ap_valid (f : α → β) (value : α) : ap (.valid f) (.valid value) = .valid (f value) :=
  rfl

@[simp]
theorem under_valid (step : String) (value : α) :
    under step (.valid value) = .valid value :=
  rfl

@[simp]
theorem andThen_valid (check : α → Checked β) (value : α) :
    andThen check (.valid value) = check value :=
  rfl

end Checked

end Eaves
