import Eaves.Document.Node
import Eaves.Files.Tree
import Eaves.Record.Settings
import Eaves.Record.Strip
import Eaves.Text.Lowercase
import Eaves.Value.Json

/-!
# Configuration documents

A configuration is a mapping in a JSON or a YAML file; the ending of the file's name
says which.  An empty document is an empty mapping.  Settings have defaults, so their
file may be absent; a roofline has none.
-/

namespace Eaves

/-- A file operation as one that may fail for any cause. -/
def liftFile {α : Type} : FileOutcome α → Outcome α :=
  Except.mapError .file

/-- The format that a file name's ending stands for. -/
def DocumentFormat.ofPath (path : Path) : Outcome DocumentFormat :=
  let ending := String.ofList (Text.lower path.ending.toList)
  if ending == ".json" then .ok .json
  else if ending == ".yaml" || ending == ".yml" then .ok .yaml
  else .error (.unsupportedFormat ending)

/-- The word for a format. -/
def DocumentFormat.word : DocumentFormat → String
  | .json => "json"
  | .yaml => "yaml"

/-- The value that a text in a format holds. -/
def DocumentFormat.parse? : DocumentFormat → String → Option Value
  | .json, text => Json.parse? text
  | .yaml, text => Yaml.parse? text

/-- Refuses a value with a whole number of more digits than numbers are read with. -/
def checkDigits (value : Value) : Outcome Unit :=
  match value.wholes.find? fun n => decide (Number.tenTo Text.digitLimit ≤ n.natAbs) with
  | some n => .error (.numeral (.tooManyDigits (toString n.natAbs).length))
  | none => .ok ()

/-- The entries of a configuration. -/
def loadEntries (tree : FileTree) (path : Path) : Outcome Entries := do
  if !(← liftFile (tree.isPresent path)) then throw (.noConfigFile path.text)
  else
    let format ← DocumentFormat.ofPath path
    let text ← liftFile (tree.read path)
    match format.parse? text with
    | none => throw (.invalidDocument format path.text)
    | some value =>
        checkDigits value
        match value with
        | .null => return []
        | .object es => return es
        | _ => throw (.notMapping path.text)

/-- The file that settings are read from where none is named. -/
def settingsPath : Path := ["glowline.yaml"]

/-- The settings in a file; the defaults where it is absent. -/
def loadSettings (tree : FileTree) (path : Option Path) : Outcome AppSettings := do
  let path := path.getD settingsPath
  if !(← liftFile (tree.isPresent path)) then return {}
  else (AppSettings.read (.object (← loadEntries tree path))).toOutcome

/-- The roofline in a file. -/
def loadRoofline (tree : FileTree) (path : Path) : Outcome Roofline := do
  (Roofline.read (.object (← loadEntries tree path))).toOutcome

end Eaves
