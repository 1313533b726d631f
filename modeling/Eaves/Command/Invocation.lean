import Eaves.Command.Switch
import Eaves.Session.Show

/-!
# Invocations

What a command line asks for: which files to work with, and one of three tasks.  Two
of them make a payload, and are told alike how to settle what is open about the
design.
-/

namespace Eaves.Command

/-- How a payload is to be made of a prompt. -/
structure Order where
  prompt : String
  /-- Answers to questions, as they were written. -/
  answers : List String := []
  /-- Whether every open question is answered by its recommended option. -/
  acceptsRecommended : Bool := false
  form : PayloadForm := .auto
  deriving DecidableEq, Repr

/-- What is to be done. -/
inductive Task where
  /-- Show what a prompt asks for; as data, or as a table with the open questions. -/
  | parse (prompt : String) (asData : Bool)
  /-- Make a payload, write it to a file or show it, and perhaps save the design. -/
  | compile (order : Order) (out save : Option String)
  /-- Make a payload and deliver it. -/
  | send (order : Order) (host : Option String)
  deriving DecidableEq, Repr

/-- What a command line asks for. -/
structure Invocation where
  roofline : String
  settings : Option String := none
  /-- The directory of saved designs. -/
  store : String := "designs"
  verbose : Bool := false
  task : Task
  deriving DecidableEq, Repr

/-! ## Switches -/

/-- The switch that asks for help. -/
def helpSwitch : Switch := ⟨"help", some 'h', .help⟩

/-- The switches before the command. -/
def commonSwitches : List Switch := [
  helpSwitch, ⟨"roofline", none, .value []⟩, ⟨"config", none, .value []⟩,
  ⟨"store", none, .value []⟩, ⟨"verbose", some 'v', .flag⟩]

/-- The switches of showing a prompt. -/
def parseSwitches : List Switch := [helpSwitch, ⟨"json", none, .flag⟩]

/-- The forms of payload by their names. -/
def formNames : List String :=
  (Vocabulary.members (α := PayloadForm)).map Vocabulary.word

/-- The switches of making a payload. -/
def orderSwitches : List Switch := [
  helpSwitch, ⟨"answer", none, .value []⟩, ⟨"accept-recommended", none, .flag⟩,
  ⟨"format", none, .value formNames⟩]

/-- The switches of writing a payload. -/
def compileSwitches : List Switch :=
  orderSwitches ++ [⟨"out", none, .value []⟩, ⟨"save", none, .value []⟩]

/-- The switches of delivering a payload. -/
def sendSwitches : List Switch :=
  orderSwitches ++ [⟨"host", none, .value []⟩]

/-! ## Reading -/

/-- The order that was heard for a prompt. -/
def orderOf (prompt : String) (heard : Heard) : Order :=
  { prompt := prompt
    answers := heard.values "answer"
    acceptsRecommended := heard.hasFlag "accept-recommended"
    form := ((heard.value? "format").bind Vocabulary.ofWord?).getD .auto }

/-- Hears the arguments behind a command, which include a prompt; the truth value says whether
there was surplus. -/
def hearPrompt (switches : List Switch) (arguments : List String) :
    Except Halt (String × Heard) := do
  let (heard, _) ← Heard.hear switches false arguments
  match heard.word with
  | some prompt => return (prompt, heard)
  | none => throw .refused

/-- The task that a command and its arguments ask for, and whether there was surplus. -/
def readTask (command : String) (arguments : List String) : Except Halt (Task × Bool) := do
  match command with
  | "parse" =>
      let (prompt, heard) ← hearPrompt parseSwitches arguments
      return (.parse prompt (heard.hasFlag "json"), heard.surplus)
  | "compile" =>
      let (prompt, heard) ← hearPrompt compileSwitches arguments
      return (.compile (orderOf prompt heard) (heard.value? "out") (heard.value? "save"),
        heard.surplus)
  | "send" =>
      let (prompt, heard) ← hearPrompt sendSwitches arguments
      return (.send (orderOf prompt heard) (heard.value? "host"), heard.surplus)
  | _ => throw .refused

/-- What a command line asks for.  A roofline has to be named, and there may be no surplus. -/
def Invocation.read (arguments : List String) : Except Halt Invocation := do
  let (heard, rest) ← Heard.hear commonSwitches true arguments
  match heard.word with
  | none => throw .refused
  | some command =>
      let (task, surplus) ← readTask command rest
      match heard.value? "roofline" with
      | none => throw .refused
      | some roofline =>
          if heard.surplus || surplus then throw .refused
          else
            return {
              roofline := roofline
              settings := heard.value? "config"
              store := (heard.value? "store").getD "designs"
              verbose := heard.hasFlag "verbose"
              task := task }

end Eaves.Command
