import Eaves.Text.Search

/-!
# Switches

A command line is a list of words and switches.  A switch has a long name after two
dashes, or a short one after a single dash; a long name may be cut short as long as
only one switch starts so, and a value may be attached by an equals sign.  Two dashes
alone end the switches.  A start that several switches share is a mistake wherever it
stands.  Asking for help stops the reading at once, and so does the first other
mistake; what nobody asked for is remembered as surplus.
-/

namespace Eaves.Command

/-- What a switch does. -/
inductive Use where
  | flag
  /-- It takes a value, one of the choices if there are any. -/
  | value (choices : List String)
  /-- It asks for help. -/
  | help
  deriving DecidableEq, Repr

/-- A switch. -/
structure Switch where
  /-- The long name, without its dashes. -/
  name : String
  short : Option Char := none
  use : Use
  deriving DecidableEq, Repr

/-- Why a command line asks for nothing to be done. -/
inductive Halt where
  | help
  | refused
  deriving DecidableEq, Repr

/-! ## Kinds of arguments -/

/-- What is attached to the name of a switch. -/
inductive Attached where
  | nothing
  /-- A value after an equals sign. -/
  | assigned (value : String)
  /-- More letters behind a short name. -/
  | letters (cs : List Char)
  deriving DecidableEq, Repr

/-- What an argument is. -/
inductive Argument where
  | word
  | switch (switch : Switch) (attached : Attached)
  /-- It looks like a switch, but none is called so. -/
  | unknown
  /-- Several switches start so. -/
  | ambiguous
  deriving DecidableEq, Repr

namespace Switch

/-- The written long name. -/
def written (switch : Switch) : List Char :=
  '-' :: '-' :: switch.name.toList

/-- Whether a text is one of the names of a switch. -/
def isNamed (cs : List Char) (switch : Switch) : Bool :=
  cs == switch.written || switch.short.any fun c => cs == ['-', c]

/-- An argument cut at its first equals sign. -/
def cutAssigned (cs : List Char) : Option (List Char × List Char) :=
  let name := cs.takeWhile (· ≠ '=')
  if name.length < cs.length then some (name, cs.drop (name.length + 1)) else none

/-- Whether a text is a negative number. -/
def isNegativeNumber : List Char → Bool
  | '-' :: cs =>
      let whole := cs.takeWhile Char.isDigit
      match cs.drop whole.length with
      | [] => !whole.isEmpty
      | '.' :: fraction => !fraction.isEmpty && fraction.all Char.isDigit
      | _ => false
  | _ => false

/-- The switches that the start of an argument may mean, with what is attached. -/
def startingSo (switches : List Switch) (cs : List Char) : List (Switch × Attached) :=
  match cs with
  | '-' :: '-' :: _ =>
      let (name, attached) : List Char × Attached :=
        match cutAssigned cs with
        | some (name, value) => (name, .assigned (String.ofList value))
        | none => (cs, .nothing)
      (switches.filter fun switch => name.isPrefixOf switch.written).map (·, attached)
  | '-' :: c :: rest =>
      (switches.filter fun switch => switch.short == some c).map (·, .letters rest)
  | _ => []

/-- The switch that an argument names in full, with what is attached. -/
def inFull? (switches : List Switch) (cs : List Char) : Option (Switch × Attached) :=
  match switches.find? (isNamed cs) with
  | some switch => some (switch, .nothing)
  | none => do
      let (name, value) ← cutAssigned cs
      let switch ← switches.find? (isNamed name)
      return (switch, .assigned (String.ofList value))

/-- What an argument is, where no switch is named in full. -/
def classifyOther (switches : List Switch) (cs : List Char) : Argument :=
  match startingSo switches cs with
  | [(switch, attached)] => .switch switch attached
  | _ :: _ :: _ => .ambiguous
  | [] => if isNegativeNumber cs || cs.contains ' ' then .word else .unknown

/-- What an argument is. -/
def classify (switches : List Switch) (argument : String) : Argument :=
  match argument.toList with
  | '-' :: c :: cs =>
      match inFull? switches ('-' :: c :: cs) with
      | some (switch, attached) => .switch switch attached
      | none => classifyOther switches ('-' :: c :: cs)
  | _ => .word

/-- Whether some argument before two dashes is a start that several switches share. -/
def anyAmbiguous (switches : List Switch) : List String → Bool
  | [] => false
  | argument :: rest =>
      argument != "--" && (classify switches argument == .ambiguous || anyAmbiguous switches rest)

end Switch

/-! ## Hearing a command line -/

/-- What has been heard of a command line. -/
structure Heard where
  /-- The switches that were given, with their values, in order. -/
  given : List (String × String) := []
  /-- The word that was given. -/
  word : Option String := none
  /-- Whether there was something nobody asked for. -/
  surplus : Bool := false
  /-- Whether the last argument was the word. -/
  afterWord : Bool := false
  deriving DecidableEq, Repr

namespace Heard

/-- Whether a flag was given. -/
def hasFlag (heard : Heard) (name : String) : Bool :=
  heard.given.any fun entry => entry.1 == name

/-- All values that were given to a switch, in order. -/
def values (heard : Heard) (name : String) : List String :=
  (heard.given.filter fun entry => entry.1 == name).map Prod.snd

/-- The value that was last given to a switch. -/
def value? (heard : Heard) (name : String) : Option String :=
  (heard.values name).getLast?

/-- A switch is heard, with its value. -/
def withGiven (heard : Heard) (switch : Switch) (value : String) : Heard :=
  { heard with given := heard.given ++ [(switch.name, value)], afterWord := false }

/-- Something is heard that nobody asked for. -/
def withSurplus (heard : Heard) : Heard :=
  { heard with surplus := true, afterWord := false }

/-- A word is heard; there is room for one. -/
def withWord (heard : Heard) (word : String) : Heard :=
  match heard.word with
  | none => { heard with word := some word, afterWord := true }
  | some _ => heard.withSurplus

/-- A value is given to a switch, if it may have it. -/
def giveValue (heard : Heard) (switch : Switch) (value : String) : Except Halt Heard :=
  match switch.use with
  | .value choices =>
      if choices.isEmpty || choices.contains value then .ok (heard.withGiven switch value)
      else .error .refused
  | .flag | .help => .error .refused

/-- A switch is heard that takes no value. -/
def giveFlag (heard : Heard) (switch : Switch) : Except Halt Heard :=
  match switch.use with
  | .flag => .ok (heard.withGiven switch "")
  | .help => .error .help
  | .value _ => .error .refused

/-- The switches that letters behind a short name are the short names of; the first letter that
is none makes the rest surplus, but a dash or an equals sign is a mistake. -/
def scanLetters (switches : List Switch) : List Char → Except Halt (List Switch × Bool)
  | [] => .ok ([], false)
  | c :: cs =>
      if c = '-' ∨ c = '=' then .error .refused
      else
        match switches.find? fun switch => switch.short == some c with
        | none => .ok ([], true)
        | some switch => (scanLetters switches cs).map fun found => (switch :: found.1, found.2)

/-- A switch and the letters behind its short name are heard. -/
def giveLetters (heard : Heard) (switches : List Switch) (switch : Switch) (cs : List Char) :
    Except Halt Heard :=
  match switch.use with
  | .value _ => heard.giveValue switch (String.ofList cs)
  | .flag | .help => do
      let (more, surplus) ← scanLetters switches cs
      let heard ← (switch :: more).foldlM giveFlag heard
      return if surplus then heard.withSurplus else heard

/-- What is heard once two dashes have ended the switches. -/
def afterDashes (heard : Heard) (words : List String) : Heard :=
  match heard.word, words with
  | none, _ => words.foldl withWord heard
  | some _, words =>
      if heard.afterWord && words.isEmpty then heard else heard.withSurplus

/-- Hears arguments one by one.  `waiting` is a switch whose value comes next.  Where the word is
a command, what follows it is not heard but handed back. -/
def hearFrom (switches : List Switch) (isCommand : Bool) :
    Heard → (waiting : Option Switch) → List String → Except Halt (Heard × List String)
  | heard, none, [] => .ok (heard, [])
  | _, some _, [] => .error .refused
  | heard, waiting, argument :: rest =>
      if argument == "--" then
        match waiting, isCommand with
        | some _, _ | none, true => .error .refused
        | none, false => .ok (heard.afterDashes rest, [])
      else
        match Switch.classify switches argument, waiting with
        | .ambiguous, _ => .error .refused
        | .word, some switch => do
            hearFrom switches isCommand (← heard.giveValue switch argument) none rest
        | _, some _ => .error .refused
        | .word, none =>
            if isCommand then .ok (heard.withWord argument, rest)
            else hearFrom switches isCommand (heard.withWord argument) none rest
        | .unknown, none => hearFrom switches isCommand heard.withSurplus none rest
        | .switch switch (.assigned value), none => do
            hearFrom switches isCommand (← heard.giveValue switch value) none rest
        | .switch switch (.letters cs), none => do
            hearFrom switches isCommand (← heard.giveLetters switches switch cs) none rest
        | .switch switch .nothing, none =>
            match switch.use with
            | .value _ => hearFrom switches isCommand heard (some switch) rest
            | .flag | .help => do
                hearFrom switches isCommand (← heard.giveFlag switch) none rest

/-- Hears a command line. -/
def hear (switches : List Switch) (isCommand : Bool) (arguments : List String) :
    Except Halt (Heard × List String) :=
  if Switch.anyAmbiguous switches arguments then .error .refused
  else hearFrom switches isCommand {} none arguments

end Heard

end Eaves.Command
