import Eaves.Address.Fault
import Eaves.Number.Binary64
import Eaves.Text.Numeral
import Eaves.Problem
import Eaves.Word

/-!
# Failures

Why an operation gives no result, as causes; the wording is derived.  Verdicts
that are part of a design's life (a spacing that does not fit, a design that
lights nothing) are no failures but values of their own.
-/

namespace Eaves

/-- The two formats of configuration documents. -/
inductive DocumentFormat where
  | json
  | yaml
  deriving DecidableEq, Repr

/-- What a file operation can run into. -/
inductive FileFault where
  /-- There is no such file. -/
  | absent (path : String)
  /-- A directory stands where a file is expected. -/
  | isDirectory (path : String)
  /-- A file stands where a directory is expected. -/
  | notDirectory (path : String)
  /-- Something stands where a directory is to be made. -/
  | exists (path : String)
  /-- A directory stands where a file is to be moved to. -/
  | moveOntoDirectory (source target : String)
  /-- A name on the way is longer than names can be. -/
  | nameTooLong (path : String)
  deriving DecidableEq, Repr

/-- The wording of a file fault. -/
def FileFault.message : FileFault → String
  | .absent path => "[Errno 2] No such file or directory: " ++ Text.quoted path
  | .isDirectory path => "[Errno 21] Is a directory: " ++ Text.quoted path
  | .notDirectory path => "[Errno 20] Not a directory: " ++ Text.quoted path
  | .exists path => "[Errno 17] File exists: " ++ Text.quoted path
  | .moveOntoDirectory source target =>
      "[Errno 21] Is a directory: " ++ Text.quoted source ++ " -> " ++ Text.quoted target
  | .nameTooLong path => "[Errno 36] File name too long: " ++ Text.quoted path

/-- Why an operation gives no result. -/
inductive Failure where
  /-- A number left its range. -/
  | number (fault : Number.NumberFault)
  /-- A text is no number. -/
  | numeral (fault : Text.NumeralFault)
  /-- Data does not fit its record. -/
  | invalid (problems : List Problem)
  /-- A colour is not written in six hexadecimal digits. -/
  | notSixHexDigits (text : String)
  /-- A word is not in a vocabulary. -/
  | unknownWord (word title : String)
  /-- No device effect has the number. -/
  | unknownEffect (id : Int)
  /-- No prompt has been parsed yet. -/
  | noDesign
  /-- No device is attached. -/
  | noTransport
  /-- No design is stored under the key. -/
  | unknownDesign (id : String)
  /-- A user or design id cannot be a file name. -/
  | unsafeKey (what key : String)
  /-- A configuration file is absent. -/
  | noConfigFile (path : String)
  /-- A file name's ending names no document format. -/
  | unsupportedFormat (suffix : String)
  /-- A document cannot be parsed. -/
  | invalidDocument (format : DocumentFormat) (path : String)
  /-- A document is no mapping at its top level. -/
  | notMapping (path : String)
  /-- A configuration is given as something that is none. -/
  | wrongConfig (given : String)
  /-- No log level has the name. -/
  | unknownLogLevel (name : String)
  /-- An answer is not written as a question and an option. -/
  | malformedAnswer (text : String)
  /-- Log arguments do not fit their message. -/
  | logArguments (reason : String)
  /-- A log message or layout is not written as one. -/
  | logTemplate (reason : String)
  /-- A log message names an argument that is not given. -/
  | noLogArgument (key : String)
  /-- An instant is outside the calendar. -/
  | yearOutOfRange (year : Int)
  /-- The file system refuses an operation. -/
  | file (fault : FileFault)
  /-- A list has no such position. -/
  | noPosition
  /-- A text is the address of nothing. -/
  | address (fault : AddressFault)
  /-- The scheme of an address is not named. -/
  | untypedAddress (text : String)
  deriving DecidableEq, Repr

/-- The wording of a failure. -/
def Failure.message : Failure → String
  | .number fault => fault.message
  | .numeral fault => fault.message
  | .invalid problems => Problem.report problems
  | .notSixHexDigits text => "Expected 6 hex digits, got " ++ Text.quoted text
  | .unknownWord word title => Text.quoted word ++ " is not a valid " ++ title
  | .unknownEffect id => "Unknown effect id: " ++ toString id
  | .noDesign => "No design parsed yet; call parse() first"
  | .noTransport => "No device transport configured"
  | .unknownDesign id => Text.quoted id
  | .unsafeKey what key => "Invalid " ++ what ++ ": " ++ Text.quoted key
  | .noConfigFile path => "Config file does not exist: " ++ path
  | .unsupportedFormat suffix => "Unsupported config format: " ++ suffix
  | .invalidDocument .json path => "Invalid JSON in " ++ path
  | .invalidDocument .yaml path => "Invalid YAML in " ++ path
  | .notMapping path => "Expected a mapping at the top level of " ++ path
  | .wrongConfig given => "Expected AppConfig, Path, str, or None; got " ++ given
  | .unknownLogLevel name => "Unknown log level: " ++ name
  | .malformedAnswer text => "Expected QUESTION=OPTION, got " ++ Text.quoted text
  | .logArguments reason => reason
  | .logTemplate reason => reason
  | .noLogArgument key => Text.quoted key
  | .yearOutOfRange year => "year " ++ toString year ++ " is out of range"
  | .file fault => fault.message
  | .noPosition => "list index out of range"
  | .address fault => fault.message
  | .untypedAddress text => "unknown url type: " ++ Text.quoted text

/-- An operation that gives a result or fails. -/
abbrev Outcome (α : Type) := Except Failure α

/-- A number operation as one that may fail for any cause. -/
def liftNumber {α : Type} : Except Number.NumberFault α → Outcome α :=
  Except.mapError .number

/-- A numeral read as an operation that may fail for any cause. -/
def liftNumeral {α : Type} : Except Text.NumeralFault α → Outcome α :=
  Except.mapError .numeral

/-- A check as an operation that fails with its problems. -/
def Checked.toOutcome {α : Type} : Checked α → Outcome α
  | .valid value => .ok value
  | .invalid problems => .error (.invalid problems)

/-- A word of a vocabulary, or the refusal of it. -/
def Vocabulary.ofWord {α : Type} [Vocabulary α] (text : String) : Outcome α :=
  match Vocabulary.ofWord? text with
  | some member => .ok member
  | none => .error (.unknownWord text (Vocabulary.title α))

end Eaves
