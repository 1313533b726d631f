import Eaves.Command.Invocation
import Eaves.Command.Report
import Eaves.Record.Design
import Eaves.Session.Keep

/-!
# Running commands

A command ends with a status: nought when what was asked for is done, one for a
mistake that is told to the user, two when a design needs an answer or lights nothing,
or when the command line itself is refused.
-/

namespace Eaves.Command

open Act

/-! ## Sessions -/

/-- The speaker that sessions speak as. -/
def sessionSpeaker : String := "glowline.core.session"

/-- The session after an operation, when it succeeds. -/
def proceed {α : Type} (result : SessionResult α) : Act (Session × α) :=
  match result with
  | (session, .ok value) => return (session, value)
  | (_, .error failure) => throw ⟨failure, ""⟩

/-- The settings of an invocation; a verbose one notes everything. -/
def settingsFor (invocation : Invocation) : Act AppSettings := do
  let path := invocation.settings.map Path.ofText
  let settings ← ofOutcome "AppConfig" (loadSettings (← get).tree path)
  if invocation.verbose then
    return { settings with logging := { settings.logging with level := "DEBUG" } }
  else return settings

/-- Opens the session of an invocation: settings first, then the journal, then the roofline. -/
def openSession (invocation : Invocation) : Act Session := do
  let settings ← settingsFor invocation
  openJournal settings.logging
  let path := Path.ofText invocation.roofline
  let roofline ← ofOutcome "RooflineConfiguration" (loadRoofline (← get).tree path)
  note "glowline.core.config.loader" .debug
    ("Loaded roofline " ++ roofline.id ++ ": " ++ toString roofline.segments.length ++
      " segments, " ++ toString roofline.total ++ " pixels")
  note sessionSpeaker .debug
    ("Session initialized: roofline=" ++ roofline.id ++ ", pixels=" ++ toString roofline.total)
  return { roofline := roofline, settings := settings }

/-- Takes a prompt in. -/
def takePrompt (session : Session) (prompt : String) : Act (Session × Intent) := do
  let (session, intent) ← proceed (session.parse prompt)
  note sessionSpeaker .info
    ("Parsed " ++ toString intent.layers.length ++ " layer(s), " ++
      toString session.questions.length ++ " open question(s)")
  return (session, intent)

/-! ## Settling what is open -/

/-- The question and the option that a text names: what stands before and behind its first
equals sign, both not empty, without blanks around them. -/
def readAnswer (text : String) : Outcome (String × String) :=
  match Switch.cutAssigned text.toList with
  | some (question, option) =>
      if question.isEmpty || option.isEmpty then .error (.malformedAnswer text)
      else .ok (String.ofList (Text.trim question), String.ofList (Text.trim option))
  | none => .error (.malformedAnswer text)

/-- Answers with one more; it takes the place of an earlier one to the same question. -/
def putAnswer (answers : Answers) (question option : String) : Answers :=
  (answers.filter fun answer => answer.1 != question) ++ [(question, .chosen option)]

/-- The answers that texts name. -/
def readAnswers (texts : List String) : Outcome Answers :=
  texts.foldlM (fun answers text => (readAnswer text).map fun (question, option) =>
    putAnswer answers question option) []

/-- The most rounds of taking recommended options. -/
def maxRounds : Nat := 5

/-- Takes the recommended options of open questions, for a number of rounds. -/
def acceptRounds : Nat → Session → Act Session
  | 0, session => return session
  | rounds + 1, session =>
      if session.questions.isEmpty then return session
      else do
        let (session, _) ← proceed (session.answer session.recommendations)
        acceptRounds rounds session

/-- Shows questions. -/
def askUser (questions : List Question) : Act Unit :=
  (questions.flatMap questionLines).forM say

/-- Takes a prompt in and settles what is open about it, as far as an order says. -/
def settle (session : Session) (order : Order) : Act Session := do
  let (session, _) ← takePrompt session order.prompt
  let answers ← ofOutcome "" (readAnswers order.answers)
  let session ←
    if answers.isEmpty then pure session
    else do
      let (session, _) ← proceed (session.answer answers)
      pure session
  if order.acceptsRecommended then acceptRounds maxRounds session else return session

/-! ## Payloads -/

/-- Shows what a composition came to, and gives its payload if it shows something. -/
def showComposition (result : Composition) : Act (Option Payload) := do
  result.warnings.forM fun warning => say ("[yellow]Warning:[/yellow] " ++ warning)
  match result.success, result.payload with
  | true, some payload =>
      say ("[green]Compiled[/green] " ++ toString result.groups.length ++ " LED group(s)")
      return some payload
  | _, _ =>
      say (mistakeLine (result.error.getD "None"))
      result.suggestions.forM fun suggestion => say ("  - " ++ suggestion)
      return none

/-- The session and the payload of an order; no payload where something is still open or nothing
is lit. -/
def makePayload (session : Session) (order : Order) : Act (Session × Option Payload) := do
  let session ← settle session order
  if session.questions.isEmpty then
    let (session, result) ← proceed (session.compose order.form)
    if !result.success then
      note sessionSpeaker .warning ("Compilation failed: " ++ result.error.getD "None")
    return (session, ← showComposition result)
  else
    say "[yellow]The design needs clarification:[/yellow]"
    askUser session.questions
    say "\nAnswer with --answer QUESTION=OPTION or use --accept-recommended"
    return (session, none)

/-- How payloads are laid out in files. -/
def payloadStyle : Json.Style := { indented := true }

/-- Writes a payload to a file, or shows it. -/
def writePayload (payload : Payload) : Option String → Act Unit
  | none => display (.data (.object payload.toEntries))
  | some out => do
      let path := Path.ofText out
      setTree (← ofFiles ((← get).tree.makeDirectory path.parent))
      let document := Json.render payloadStyle (.object payload.toEntries)
      setTree (← ofFiles ((← get).tree.write path document))
      say ("[green]Payload written to[/green] " ++ path.text)

/-! ## Tasks -/

/-- Saves the design of a session in a directory. -/
def saveDesign (session : Session) (store id : String) : Act Unit := do
  let (repository, outcome) := session.save (.directory (← get).tree (Path.ofText store)) id ""
  match repository with
  | .directory tree _ => setTree tree
  | .memory _ => pure ()
  let _ ← ofOutcome "SavedDesign" outcome
  note sessionSpeaker .debug ("Saved design " ++ id)
  say ("[green]Saved design[/green] " ++ id)

/-- Shows what a prompt asks for. -/
def parseTask (session : Session) (prompt : String) (asData : Bool) : Act Nat := do
  let (session, intent) ← takePrompt session prompt
  if asData then display (.data intent.toValue)
  else
    display (designTable intent)
    if session.questions.isEmpty then say "[green]No clarification needed[/green]"
    else askUser session.questions
  return 0

/-- Makes a payload, writes it, and perhaps saves the design. -/
def compileTask (session : Session) (store : String) (order : Order) (out save : Option String) :
    Act Nat := do
  match ← makePayload session order with
  | (_, none) => return 2
  | (session, some payload) =>
      writePayload payload out
      let id := save.getD ""
      if !id.isEmpty then saveDesign session store id
      return 0

/-- The root address of the controller: the host that is named, else the one of the settings. -/
def rootAddress (device : DeviceSettings) (host : Option String) : Option String :=
  match host.filter fun host => !host.isEmpty with
  | some host => some (addressOf host)
  | none => device.baseUrl

/-- Makes a payload and delivers it; without a controller nothing is made. -/
def sendTask (session : Session) (order : Order) (host : Option String) : Act Nat := do
  match rootAddress session.settings.device host with
  | none =>
      say (mistakeLine "No device host; pass --host or set device.host")
      return 1
  | some root =>
      match ← makePayload session order with
      | (_, none) => return 2
      | (session, some payload) =>
          if ← Act.deliver root session.settings.device.retry payload then
            say ("[green]Sent to[/green] " ++ root)
            return 0
          else
            say (mistakeLine ("Device at " ++ root ++ " did not accept the payload"))
            return 1

/-- Does what an invocation asks for. -/
def perform (invocation : Invocation) : Act Nat := do
  let session ← openSession invocation
  match invocation.task with
  | .parse prompt asData => parseTask session prompt asData
  | .compile order out save => compileTask session invocation.store order out save
  | .send order host => sendTask session order host

/-- The status of a command line that asks for nothing to be done. -/
def Halt.status : Halt → Nat
  | .help => 0
  | .refused => 2

/-- Runs a command line at a desk: the desk after it, and the status or a failure that is none of
the user's. -/
def run (arguments : List String) (desk : Desk) : Desk × Outcome Nat :=
  match Invocation.read arguments with
  | .error halt => (desk, .ok halt.status)
  | .ok invocation =>
      match (perform invocation).run { desk with journal := none } with
      | (.ok status, desk) => (desk, .ok status)
      | (.error stop, desk) =>
          if isForUser stop.failure then
            ({ desk with shown := desk.shown ++ [.line stop.line] }, .ok 1)
          else (desk, .error stop.failure)

end Eaves.Command
