import Eaves.Proofs.Command.Handing
import Eaves.Proofs.Session.Reloaded

/-!
# What the status of a command says

A command that makes a payload goes through stages: it opens a session, makes its
payload, hands the payload over and keeps the design.  Where one stage stops, none
follows.  So the status tells how far the command came: two means that it has no
payload, and then nothing but the journal was kept; nought means that all stages were
gone through.

The other way round, a command that went through all of them ends with nought.  What
could still stop it is the note about the saved design, and the journal's file, which
was begun when the session was opened, can be written to wherever a save succeeds.

An empty id asks for no design to be kept, though it is given.
-/

namespace Eaves.Command

open Act
open Outcome
open DirectoryStore (SaveStep runSteps saveSteps recordPath)

variable {file : Option String} {desk after composed handed : Desk} {session settled : Session}
  {order : Order} {payload : Payload} {invocation : Invocation} {out save : Option String}
  {arguments : List String} {outcome : Outcome Nat}

/-! ## What a command line comes to -/

/-- The order of a task that makes a payload. -/
def Task.order? : Task → Option Order
  | .parse .. => none
  | .compile order _ _ | .send order _ => some order

/-- At a desk, an invocation comes to a payload for its order: a session is opened, and settling
the order and composing give a session with the payload. -/
def Invocation.Composes (invocation : Invocation) (order : Order) (desk : Desk)
    (settled : Session) (payload : Payload) (composed : Desk) : Prop :=
  ∃ session opened, (openSession invocation).run { desk with journal := none } =
      (.ok session, opened) ∧
    (makePayload session order).run opened = (.ok (settled, some payload), composed)

/-- The steps in the files that hand a payload over: a directory is made for it and it is written,
or a record with it and its design is saved. -/
inductive Invocation.HandingStep (invocation : Invocation) (settled : Session) (payload : Payload) :
    SaveStep → Prop
  | directory {order : Order} {name : String} {save : Option String} :
      invocation.task = .compile order (some name) save →
        invocation.HandingStep settled payload (.makeDirectory (Path.ofText name).parent)
  | document {order : Order} {name : String} {save : Option String} :
      invocation.task = .compile order (some name) save →
        invocation.HandingStep settled payload (.write (.ofText name) (document payload))
  | record {order : Order} {out : Option String} {id : String} {record : SavedDesign}
      {path : Path} {step : SaveStep} :
      invocation.task = .compile order out (some id) → settled.record id "" = .ok record →
      settled.intent = some record.intent → record.payload = some payload.toEntries →
      recordPath (.ofText invocation.store) record.userId record.id = .ok path →
      step ∈ saveSteps path record → invocation.HandingStep settled payload step

/-- What handing a payload over does, besides keeping the journal. -/
def Scope.handing (invocation : Invocation) (file : Option String) (settled : Session)
    (payload : Payload) : Scope where
  files step := (Scope.journal file).files step ∨ invocation.HandingStep settled payload step
  data value := value = .object payload.toEntries ∧
    ∃ order save, invocation.task = .compile order none save
  requests request := request.payload = payload ∧ ∃ order host, invocation.task = .send order host

/-- The design of a session is kept under an id that is given; an empty one keeps nothing. -/
inductive Keeps (invocation : Invocation) (file : Option String) (settled : Session) :
    Option String → Desk → Desk → Prop
  | unasked {handed : Desk} : Keeps invocation file settled none handed handed
  | unnamed {handed : Desk} : Keeps invocation file settled (some "") handed handed
  | saved {id : String} {handed after : Desk} {tree : FileTree} {record : SavedDesign} : id ≠ "" →
      settled.save (.directory handed.tree (.ofText invocation.store)) id "" =
        (.directory tree (.ofText invocation.store), .ok record) →
      { handed with tree := tree }.Reaches (.journal file) after →
      Keeps invocation file settled (some id) handed after

theorem Scope.journal_within_handing (invocation : Invocation) (file : Option String)
    (settled : Session) (payload : Payload) :
    (Scope.journal file).Within (.handing invocation file settled payload) :=
  ⟨fun _ => .inl, fun _ => False.elim, fun _ => False.elim⟩

/-! ## Up to the payload -/

/-- What is so once an invocation has its payload. -/
structure Invocation.HasPayload (invocation : Invocation) (desk : Desk) (settled : Session)
    (payload : Payload) (composed : Desk) : Prop where
  journals : composed.JournalsTo (journalFile invocation desk)
  reaches : desk.Reaches (.journal (journalFile invocation desk)) composed
  hasFile : ∀ name, journalFile invocation desk = some name →
    composed.tree.HasFile (.ofText name)
  ofDesign : settled.IsPayloadOfDesign payload
  isLast : settled.last.bind Composition.payload = some payload

theorem reaches_of_opened {opened : Desk} {result : Except Stop Session}
    (ran : (openSession invocation).run { desk with journal := none } = (result, opened)) :
    opened.JournalsTo (journalFile invocation desk) ∧
      desk.Reaches (.journal (journalFile invocation desk)) opened := by
  obtain ⟨journals, reaches, -⟩ := openSession_spec rfl ran
  exact ⟨journals, (Desk.Reaches.of_journal none).trans reaches⟩

/-- Before a payload is handed over, nothing but the journal is kept. -/
theorem reaches_of_made {opened : Desk} {result : Except Stop (Session × Option Payload)}
    (isOpen : (openSession invocation).run { desk with journal := none } = (.ok session, opened))
    (made : (makePayload session order).run opened = (result, composed)) :
    composed.JournalsTo (journalFile invocation desk) ∧
      desk.Reaches (.journal (journalFile invocation desk)) composed := by
  obtain ⟨journals, reaches⟩ := reaches_of_opened isOpen
  obtain ⟨journalsAfter, further⟩ := (staysIn_makePayload session order).reaches journals made
  exact ⟨journalsAfter, reaches.trans further⟩

theorem Invocation.Composes.hasPayload
    (composes : invocation.Composes order desk settled payload composed) :
    invocation.HasPayload desk settled payload composed := by
  rcases composes with ⟨session, opened, isOpen, made⟩
  obtain ⟨journals, -, hasFile⟩ := openSession_spec rfl isOpen
  obtain ⟨-, further⟩ := (staysIn_makePayload session order).reaches journals made
  obtain ⟨journalsAfter, reaches⟩ := reaches_of_made isOpen made
  obtain ⟨ofDesign, isLast⟩ := makePayload_eq_ok made
  refine ⟨journalsAfter, reaches, ?_, ofDesign, isLast⟩
  intro name isTo
  exact further.hasFile_of_journal (hasFile ⟨session, rfl⟩ name isTo)

/-! ## From the payload on -/

/-- What compiling does once it has its payload. -/
def handOver (settled : Session) (store : String) (payload : Payload) (out save : Option String) :
    Act Nat := do
  writePayload payload out
  let id := save.getD ""
  if !id.isEmpty then saveDesign settled store id
  return 0

/-- What sending does once it has its payload. -/
def sendOver (settled : Session) (payload : Payload) (root : String) : Act Nat := do
  if ← Act.deliver root settled.settings.device.retry payload then
    say ("[green]Sent to[/green] " ++ root)
    return 0
  else
    say (mistakeLine ("Device at " ++ root ++ " did not accept the payload"))
    return 1

theorem staysIn_handOver {order : Order}
    (isTask : invocation.task = .compile order out save)
    (isLast : settled.last.bind Composition.payload = some payload) :
    (handOver settled invocation.store payload out save).StaysIn file
      (.handing invocation file settled payload) := by
  have keeps := Scope.journal_within_handing invocation file settled payload
  refine (staysIn_writePayload ?_ ?_ ?_).bind fun _ => ?_
  · rintro rfl
    exact ⟨rfl, order, save, isTask⟩
  · rintro name rfl
    exact .inr (.directory isTask)
  · rintro name rfl
    exact .inr (.document isTask)
  · dsimp only
    cases save with
    | none => exact staysIn_pure 0
    | some id =>
        split
        · refine (staysIn_saveDesign keeps ?_).bind fun _ => staysIn_pure 0
          intro record path step recorded isPath mem
          obtain ⟨isIntent, isPayload⟩ := Session.record_eq_ok recorded
          rw [isLast] at isPayload
          exact .inr (.record isTask recorded isIntent isPayload isPath mem)
        · exact staysIn_pure 0

theorem staysIn_sendOver {order : Order} {host : Option String}
    (isTask : invocation.task = .send order host) (root : String) :
    (sendOver settled payload root).StaysIn file (.handing invocation file settled payload) := by
  have keeps := Scope.journal_within_handing invocation file settled payload
  have sends (address : Address) :
      (Scope.handing invocation file settled payload).requests ⟨address, payload⟩ :=
    ⟨rfl, order, host, isTask⟩
  refine (staysIn_deliver keeps sends root _).bind fun accepted => ?_
  split <;> exact (staysIn_say _).bind fun _ => staysIn_pure _

theorem HandsOver.journals (handsOver : HandsOver payload out composed handed)
    (journals : composed.JournalsTo file) : handed.JournalsTo file := by
  cases out with
  | none =>
      cases handsOver
      exact journals
  | some name =>
      rcases handsOver with ⟨_, _, -, -, rfl⟩
      exact journals

/-- A file stays a file where a payload is handed over. -/
theorem HandsOver.hasFile (handsOver : HandsOver payload out composed handed) {path : Path}
    (hasFile : composed.tree.HasFile path) : handed.tree.HasFile path := by
  cases out with
  | none =>
      cases handsOver
      exact hasFile
  | some name =>
      rcases handsOver with ⟨made, written, isMade, isWritten, rfl⟩
      exact (hasFile.makeDirectory isMade).write isWritten

/-- Compiling ends with a status only once the payload is handed over and the design is kept, and
the status is nought. -/
theorem handOver_eq_ok (journals : composed.JournalsTo file) {status : Nat}
    (ran : (handOver settled invocation.store payload out save).run composed =
      (.ok status, after)) :
    status = 0 ∧ ∃ handed, HandsOver payload out composed handed ∧
      Keeps invocation file settled save handed after := by
  unfold handOver at ran
  rcases run_bind_eq_ok_iff.mp ran with ⟨⟨⟩, handed, written, ran⟩
  have handsOver := writePayload_eq_ok_iff.mp written
  dsimp only at ran
  cases save with
  | none =>
      cases ran
      exact ⟨rfl, _, handsOver, .unasked⟩
  | some id =>
      by_cases isEmpty : id = ""
      · subst isEmpty
        cases ran
        exact ⟨rfl, _, handsOver, .unnamed⟩
      · rw [if_pos (by simpa using isEmpty)] at ran
        rcases run_bind_eq_ok_iff.mp ran with ⟨⟨⟩, ended, saved, given⟩
        cases given
        obtain ⟨tree, record, saves, noted⟩ :=
          saveDesign_eq_ok (handsOver.journals journals) saved
        exact ⟨rfl, handed, handsOver, .saved isEmpty saves noted⟩

/-- Where the payload is handed over and the design can be kept, compiling ends with nought. -/
theorem exists_handOver_run (journals : composed.JournalsTo file)
    (hasFile : ∀ name, file = some name → composed.tree.HasFile (.ofText name))
    (handsOver : HandsOver payload out composed handed)
    (keeps : Keeps invocation file settled save handed after) :
    ∃ ended, (handOver settled invocation.store payload out save).run composed =
      (.ok 0, ended) := by
  unfold handOver
  rw [run_bind_of_ok (writePayload_eq_ok_iff.mpr handsOver)]
  cases keeps with
  | unasked => exact ⟨_, rfl⟩
  | unnamed => exact ⟨_, rfl⟩
  | saved named saves noted =>
      rename_i id tree record
      obtain ⟨ended, ran⟩ := exists_saveDesign_run (handsOver.journals journals)
        (fun name isTo => handsOver.hasFile (hasFile name isTo)) saves
      dsimp only [Option.getD_some]
      rw [if_pos (by simpa using named), run_bind_of_ok ran]
      exact ⟨ended, rfl⟩

/-- Sending ends with nought exactly if the controller accepts one of the requests. -/
theorem sendOver_eq_ok_iff {root : String} {result : Except Stop Nat}
    (ran : (sendOver settled payload root).run composed = (result, after)) :
    (∀ status, result = .ok status → status ≠ 2) ∧
      (result = .ok 0 ↔ ∃ number, composed.requests.length ≤ number ∧
        number < after.requests.length ∧ (composed.replies number).Accepts) := by
  unfold sendOver at ran
  rw [run_bind] at ran
  rcases delivered : (Act.deliver root settled.settings.device.retry payload).run composed with
    ⟨stop | accepted, reached⟩
  · rw [delivered] at ran
    cases ran
    rw [← deliver_eq_true_iff delivered]
    exact ⟨nofun, nofun, nofun⟩
  · rw [delivered] at ran
    have accepts := deliver_eq_true_iff delivered
    cases accepted with
    | true =>
        cases ran
        exact ⟨by rintro _ ⟨⟩; nofun, iff_of_true rfl (accepts.mp rfl)⟩
    | false =>
        cases ran
        exact ⟨by rintro _ ⟨⟩; nofun, iff_of_false nofun (mt accepts.mpr nofun)⟩

/-! ## Whole runs -/

/-- An act ends before anything is handed over: nothing but the journal was kept, and the status is
not nought. -/
def EndsBefore (invocation : Invocation) (desk : Desk) (ran : Except Stop Nat × Desk) : Prop :=
  desk.Reaches (.journal (journalFile invocation desk)) ran.2 ∧ ran.1 ≠ .ok 0

/-- What follows on making a payload is not come to, or it goes on from the payload. -/
theorem made_cases {opened : Desk} {next : Session × Option Payload → Act Nat}
    (isOpen : (openSession invocation).run { desk with journal := none } = (.ok session, opened))
    (nothing : ∀ own, next (own, none) = return 2) :
    EndsBefore invocation desk ((makePayload session order >>= next).run opened) ∨
    ∃ settled payload composed, invocation.Composes order desk settled payload composed ∧
      (makePayload session order >>= next).run opened =
        (next (settled, some payload)).run composed := by
  rcases made : (makePayload session order).run opened with
    ⟨stop | ⟨settled, none | payload⟩, composed⟩
  · rw [run_bind, made]
    exact .inl ⟨(reaches_of_made isOpen made).2, nofun⟩
  · rw [run_bind_of_ok made, nothing]
    exact .inl ⟨(reaches_of_made isOpen made).2, nofun⟩
  · rw [run_bind_of_ok made]
    exact .inr ⟨settled, payload, composed, ⟨session, opened, isOpen, made⟩, rfl⟩

/-- Compiling ends before anything is handed over, or goes on from a payload. -/
theorem compile_cases {order : Order} (isTask : invocation.task = .compile order out save)
    (desk : Desk) :
    EndsBefore invocation desk ((perform invocation).run { desk with journal := none }) ∨
    ∃ settled payload composed, invocation.Composes order desk settled payload composed ∧
      (perform invocation).run { desk with journal := none } =
        (handOver settled invocation.store payload out save).run composed := by
  unfold perform compileTask
  simp only [isTask]
  rcases isOpen : (openSession invocation).run { desk with journal := none } with
    ⟨stop | session, opened⟩
  · rw [run_bind, isOpen]
    exact .inl ⟨(reaches_of_opened isOpen).2, nofun⟩
  · rw [run_bind_of_ok isOpen]
    exact made_cases isOpen fun _ => rfl

/-- From a payload, compiling goes on. -/
theorem compile_of_composes {order : Order} (isTask : invocation.task = .compile order out save)
    (composes : invocation.Composes order desk settled payload composed) :
    (perform invocation).run { desk with journal := none } =
      (handOver settled invocation.store payload out save).run composed := by
  rcases composes with ⟨session, opened, isOpen, made⟩
  unfold perform compileTask
  simp only [isTask]
  rw [run_bind_of_ok isOpen, run_bind_of_ok made]
  rfl

/-- Sending ends before anything is handed over, or goes on from a payload to an address. -/
theorem send_cases {order : Order} {host : Option String}
    (isTask : invocation.task = .send order host) (desk : Desk) :
    EndsBefore invocation desk ((perform invocation).run { desk with journal := none }) ∨
    ∃ settled payload composed, invocation.Composes order desk settled payload composed ∧
      ∃ root, (perform invocation).run { desk with journal := none } =
        (sendOver settled payload root).run composed := by
  unfold perform sendTask
  simp only [isTask]
  rcases isOpen : (openSession invocation).run { desk with journal := none } with
    ⟨stop | session, opened⟩
  · rw [run_bind, isOpen]
    exact .inl ⟨(reaches_of_opened isOpen).2, nofun⟩
  · rw [run_bind_of_ok isOpen]
    cases rootAddress session.settings.device host with
    | none => exact .inl ⟨(reaches_of_opened isOpen).2.trans (.of_shown nofun), nofun⟩
    | some root =>
        refine (made_cases isOpen fun _ => rfl).imp_right ?_
        rintro ⟨settled, payload, composed, composes, goesOn⟩
        exact ⟨settled, payload, composed, composes, root, goesOn⟩

/-- A run ends as its command does; a command that stops is told of in a line, at most. -/
theorem run_cases (read : Invocation.read arguments = .ok invocation)
    (ran : run arguments desk = (after, outcome)) :
    ∃ result ended, (perform invocation).run { desk with journal := none } = (result, ended) ∧
      (∀ status, status ≠ 1 → (outcome = .ok status ↔ result = .ok status)) ∧
      (∀ status, result = .ok status → ended = after) ∧
      ended.requests = after.requests ∧
      ∀ scope : Scope, ended.Reaches scope after := by
  unfold run at ran
  rw [read] at ran
  dsimp only at ran
  rcases performed : (perform invocation).run { desk with journal := none } with
    ⟨stop | status, ended⟩
  · rw [performed] at ran
    dsimp only at ran
    split at ran
    · cases ran
      refine ⟨_, _, rfl, fun status apart => iff_of_false ?_ nofun, nofun, rfl,
        fun scope => .of_shown nofun⟩
      rintro ⟨⟩
      exact apart rfl
    · cases ran
      exact ⟨_, _, rfl, fun status apart => iff_of_false nofun nofun, nofun, rfl,
        fun scope => .refl scope _⟩
  · rw [performed] at ran
    cases ran
    refine ⟨_, _, rfl, fun own _ => ⟨fun same => ?_, fun same => ?_⟩, fun _ _ => rfl, rfl,
      fun scope => .refl scope _⟩
    · cases same
      rfl
    · cases same
      rfl

/-! ## What the status says -/

/-- Whatever a run did with a payload, it did with one that it composed of a design of which
nothing is open. -/
def HandsOnlyComposed (invocation : Invocation) (order : Order) (desk after : Desk) : Prop :=
  desk.Reaches (.journal (journalFile invocation desk)) after ∨
    ∃ settled payload composed, invocation.Composes order desk settled payload composed ∧
      settled.IsPayloadOfDesign payload ∧
      desk.Reaches (.handing invocation (journalFile invocation desk) settled payload) after

/-- A run composes a payload, hands it over and keeps the design. -/
def IsDelivered (invocation : Invocation) (order : Order) (out save : Option String)
    (desk after : Desk) : Prop :=
  ∃ settled payload composed handed, invocation.Composes order desk settled payload composed ∧
    settled.IsPayloadOfDesign payload ∧ HandsOver payload out composed handed ∧
    Keeps invocation (journalFile invocation desk) settled save handed after

/-- A run composes a payload, and the controller accepts a request with it. -/
def IsAccepted (invocation : Invocation) (order : Order) (desk after : Desk) : Prop :=
  ∃ settled payload composed number address,
    invocation.Composes order desk settled payload composed ∧
    settled.IsPayloadOfDesign payload ∧ desk.requests.length ≤ number ∧
    after.requests[number]? = some ⟨address, payload⟩ ∧ (desk.replies number).Accepts

theorem compile_status (read : Invocation.read arguments = .ok invocation)
    (isTask : invocation.task = .compile order out save)
    (ran : run arguments desk = (after, outcome)) :
    (outcome = .ok 2 → desk.Reaches (.journal (journalFile invocation desk)) after) ∧
      HandsOnlyComposed invocation order desk after ∧
      (outcome = .ok 0 ↔ IsDelivered invocation order out save desk after) := by
  obtain ⟨result, ended, performed, same, ends, -, further⟩ := run_cases read ran
  -- a run is determined by its start, so whichever payload was delivered is the one it comes to
  have done : IsDelivered invocation order out save desk after → outcome = .ok 0 := by
    rintro ⟨settled, payload, composed, handed, composes, -, handsOver, keeps⟩
    obtain ⟨journals, -, hasFile, -, -⟩ := composes.hasPayload
    obtain ⟨reached, ranOn⟩ := exists_handOver_run journals hasFile handsOver keeps
    rw [compile_of_composes isTask composes, ranOn] at performed
    cases performed
    exact (same 0 (by decide)).mpr rfl
  rcases compile_cases isTask desk with
    before | ⟨settled, payload, composed, composes, goesOn⟩
  · rw [performed] at before
    rcases before with ⟨reaches, notDone⟩
    have reachesAfter := reaches.trans (further _)
    exact ⟨fun _ => reachesAfter, .inl reachesAfter,
      fun isNought => absurd ((same 0 (by decide)).mp isNought) notDone, done⟩
  · obtain ⟨journals, reaches, -, ofDesign, isLast⟩ := composes.hasPayload
    rw [goesOn] at performed
    refine ⟨fun isTwo => ?_, .inr ⟨settled, payload, composed, composes, ofDesign, ?_⟩,
      fun isNought => ?_, done⟩
    · rw [(same 2 (by decide)).mp isTwo] at performed
      cases (handOver_eq_ok journals performed).1
    · obtain ⟨-, onwards⟩ := (staysIn_handOver isTask isLast).reaches journals performed
      exact (reaches.mono (Scope.journal_within_handing ..)).trans (onwards.trans (further _))
    · have isOk := (same 0 (by decide)).mp isNought
      cases ends 0 isOk
      rw [isOk] at performed
      obtain ⟨-, handed, handsOver, keeps⟩ := handOver_eq_ok journals performed
      exact ⟨settled, payload, composed, handed, composes, ofDesign, handsOver, keeps⟩

theorem send_status {host : Option String} (read : Invocation.read arguments = .ok invocation)
    (isTask : invocation.task = .send order host)
    (ran : run arguments desk = (after, outcome)) :
    (outcome = .ok 2 → desk.Reaches (.journal (journalFile invocation desk)) after) ∧
      HandsOnlyComposed invocation order desk after ∧
      (outcome = .ok 0 ↔ IsAccepted invocation order desk after) := by
  obtain ⟨result, ended, performed, same, -, sameRequests, further⟩ := run_cases read ran
  rcases send_cases isTask desk with
    before | ⟨settled, payload, composed, composes, root, goesOn⟩
  · rw [performed] at before
    rcases before with ⟨reaches, notDone⟩
    have reachesAfter := reaches.trans (further _)
    refine ⟨fun _ => reachesAfter, .inl reachesAfter,
      iff_of_false (mt (same 0 (by decide)).mp notDone) ?_⟩
    rintro ⟨_, _, _, number, _, -, -, made, isRequest, -⟩
    rw [reachesAfter.requests_of_journal] at isRequest
    exact absurd (List.getElem?_eq_some_iff.mp isRequest).1 (Nat.not_lt.mpr made)
  · obtain ⟨journals, reaches, -, ofDesign, -⟩ := composes.hasPayload
    rw [goesOn] at performed
    obtain ⟨-, onwards⟩ := (staysIn_sendOver isTask root).reaches journals performed
    obtain ⟨notTwo, accepts⟩ := sendOver_eq_ok_iff performed
    rw [reaches.requests_of_journal, reaches.replies_eq, sameRequests] at accepts
    refine ⟨fun isTwo => ?_, .inr ⟨settled, payload, composed, composes, ofDesign, ?_⟩, ?_⟩
    · exact absurd rfl (notTwo 2 ((same 2 (by decide)).mp isTwo))
    · exact (reaches.mono (Scope.journal_within_handing ..)).trans (onwards.trans (further _))
    · rw [same 0 (by decide), accepts]
      constructor
      · rintro ⟨number, made, inTime, accepted⟩
        have isRequest := List.getElem?_eq_getElem inTime
        have isSince : composed.requests.length ≤ number := by
          rwa [reaches.requests_of_journal]
        have isOf : after.requests[number].payload = payload :=
          ((onwards.trans (further _)).allowed_of_getElem? isSince isRequest).1
        refine ⟨settled, payload, composed, number, after.requests[number].address, composes,
          ofDesign, made, ?_, accepted⟩
        rw [isRequest, ← isOf]
      · rintro ⟨_, _, _, number, _, -, -, made, isRequest, accepted⟩
        exact ⟨number, made, (List.getElem?_eq_some_iff.mp isRequest).1, accepted⟩

/-- A desk with a strip of four lights described in a file, and a controller. -/
def fourLightsDesk : Desk where
  tree := ⟨[(["r.json"], .file
    "\x7b\"id\":\"r\",\"name\":\"R\",\"segments\":[\x7b\"id\":\"a\",\"name\":\"A\",\"pixel_count\":4\x7d]\x7d")]⟩
  replies _ := .status 200 none

/-- An order for gold. -/
def goldOrder : Order where
  prompt := "gold"

/-- Compiles gold, and gives an empty id to save it under. -/
def unnamedGold : List String :=
  ["--roofline", "r.json", "compile", "gold", "--save", ""]

theorem read_unnamedGold : Invocation.read unnamedGold =
    .ok { roofline := "r.json", task := .compile goldOrder none (some "") } := by
  have view : ((Invocation.read unnamedGold).map id).toOption =
      some { roofline := "r.json", task := .compile goldOrder none (some "") } := by
    decide +kernel
  obtain ⟨invocation, read, rfl⟩ := exists_ok_of_toOption view
  exact read

/-- The command line ends with nought, and leaves the files as they were. -/
theorem view_unnamedGold :
    (match run unnamedGold fourLightsDesk with
      | (after, outcome) => (outcome.toOption, decide (after.tree = fourLightsDesk.tree))) =
        (some 0, true) := by
  decide +kernel

theorem run_unnamedGold : ∃ after, run unnamedGold fourLightsDesk = (after, .ok 0) ∧
    after.tree = fourLightsDesk.tree := by
  have view := view_unnamedGold
  generalize run unnamedGold fourLightsDesk = ended at view ⊢
  rcases ended with ⟨after, failure | status⟩
  · cases (Prod.mk.inj view).1
  · obtain ⟨isNought, sameTree⟩ := Prod.mk.inj view
    cases isNought
    exact ⟨after, rfl, of_decide_eq_true sameTree⟩

end Eaves.Command
