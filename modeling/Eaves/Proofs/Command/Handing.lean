import Eaves.Proofs.Command.Making
import Eaves.Proofs.Store.Records

/-!
# Handing a payload over

A payload is shown, written to a file or sent to a controller, and its design may be
saved.  Each of these acts takes the steps that it is for, keeps the journal and does
nothing else; and each succeeds exactly where the files take what is written, or where
the controller accepts one of the requests.
-/

namespace Eaves

open Outcome

/-! ## Saving in a directory -/

namespace Session

/-- A save in a directory comes to nothing, or takes its steps as far as they are not refused. -/
theorem save_directory_cases (session : Session) (tree : FileTree) (root : Path)
    (id name : String) :
    (∃ failure, session.save (.directory tree root) id name =
      (.directory tree root, .error failure)) ∨
    ∃ record path left outcome, session.record id name = .ok record ∧
      DirectoryStore.recordPath root record.userId record.id = .ok path ∧
      DirectoryStore.runSteps tree (DirectoryStore.saveSteps path record) = (left, outcome) ∧
      session.save (.directory tree root) id name =
        (.directory left root, (liftFile outcome).map fun _ => record) := by
  unfold save
  cases session.record id name with
  | error failure => exact .inl ⟨failure, rfl⟩
  | ok record =>
      dsimp only [Repository.save, DirectoryStore.save]
      cases isPath : DirectoryStore.recordPath root record.userId record.id with
      | error failure => exact .inl ⟨failure, rfl⟩
      | ok path =>
          rcases ran : DirectoryStore.runSteps tree (DirectoryStore.saveSteps path record) with
            ⟨left, outcome⟩
          exact .inr ⟨record, path, left, outcome, rfl, isPath, ran, by
            dsimp only
            rw [ran]⟩

end Session

namespace Command

open Act
open DirectoryStore (SaveStep runSteps saveSteps recordPath)

variable {scope : Scope} {file : Option String} {desk after : Desk} {session settled : Session}
  {order : Order} {payload : Payload} {invocation : Invocation} {out : Option String}

/-! ## What is written -/

/-- The text of a payload's file. -/
def document (payload : Payload) : String :=
  Json.render payloadStyle (.object payload.toEntries)

theorem writePayload_some (payload : Payload) (name : String) :
    writePayload payload (some name) = (do
      changeTree fun tree => tree.makeDirectory (Path.ofText name).parent
      changeTree fun tree => tree.write (.ofText name) (document payload)
      say ("[green]Payload written to[/green] " ++ (Path.ofText name).text)) := by
  unfold writePayload changeTree
  simp only [bind_assoc]
  rfl

/-- A payload is shown, or written to a file in a directory that is made for it. -/
def HandsOver (payload : Payload) (out : Option String) (desk after : Desk) : Prop :=
  match out with
  | none => after = { desk with shown := desk.shown ++ [.data (.object payload.toEntries)] }
  | some name => ∃ made written, desk.tree.makeDirectory (Path.ofText name).parent = .ok made ∧
      made.write (.ofText name) (document payload) = .ok written ∧
      after = { desk with
        tree := written
        shown := desk.shown ++
          [.line ("[green]Payload written to[/green] " ++ (Path.ofText name).text)] }

theorem changeTree_eq_ok_iff {change : FileTree → FileOutcome FileTree} :
    (changeTree change).run desk = (.ok (), after) ↔
      ∃ tree, change desk.tree = .ok tree ∧ after = { desk with tree := tree } := by
  rw [changeTree_run]
  cases change desk.tree with
  | error fault => exact ⟨nofun, by rintro ⟨_, ⟨⟩, _⟩⟩
  | ok tree =>
      constructor
      · rintro ⟨⟩
        exact ⟨tree, rfl, rfl⟩
      · rintro ⟨_, ⟨⟩, rfl⟩
        rfl

/-- Writing a payload succeeds exactly if the payload is handed over. -/
theorem writePayload_eq_ok_iff :
    (writePayload payload out).run desk = (.ok (), after) ↔ HandsOver payload out desk after := by
  cases out with
  | none =>
      constructor
      · rintro ⟨⟩
        rfl
      · rintro rfl
        rfl
  | some name =>
      rw [writePayload_some, run_bind_eq_ok_iff]
      constructor
      · rintro ⟨_, middle, makes, rest⟩
        rcases run_bind_eq_ok_iff.mp rest with ⟨_, last, writes, shows⟩
        rcases changeTree_eq_ok_iff.mp makes with ⟨made, isMade, rfl⟩
        rcases changeTree_eq_ok_iff.mp writes with ⟨written, isWritten, rfl⟩
        cases shows
        exact ⟨made, written, isMade, isWritten, rfl⟩
      · rintro ⟨made, written, isMade, isWritten, rfl⟩
        refine ⟨(), _, changeTree_eq_ok_iff.mpr ⟨made, isMade, rfl⟩, ?_⟩
        rw [run_bind_of_ok (changeTree_eq_ok_iff.mpr ⟨written, isWritten, rfl⟩)]
        rfl

theorem staysIn_writePayload
    (shows : out = none → scope.data (.object payload.toEntries))
    (makes : ∀ name, out = some name → scope.files (.makeDirectory (Path.ofText name).parent))
    (writes : ∀ name, out = some name → scope.files (.write (.ofText name) (document payload))) :
    (writePayload payload out).StaysIn file scope := by
  cases out with
  | none =>
      refine staysIn_display ?_
      rintro _ ⟨⟩
      exact shows rfl
  | some name =>
      rw [writePayload_some]
      refine (staysIn_changeTree (.makeDirectory _) (fun _ => rfl) (makes name rfl)).bind
        fun _ => ?_
      refine (staysIn_changeTree (.write _ _) (fun _ => rfl) (writes name rfl)).bind fun _ => ?_
      exact staysIn_say _

/-! ## What is saved -/

/-- Saving a design changes the files as the save in its directory does; then it is noted. -/
theorem saveDesign_run (session : Session) (store id : String) (desk : Desk) {left : FileTree}
    {outcome : Outcome SavedDesign}
    (saves : session.save (.directory desk.tree (.ofText store)) id "" =
      (.directory left (.ofText store), outcome)) :
    (saveDesign session store id).run desk = (do
      let _ ← ofOutcome "SavedDesign" outcome
      note sessionSpeaker .debug ("Saved design " ++ id)
      say ("[green]Saved design[/green] " ++ id) : Act Unit).run { desk with tree := left } := by
  unfold saveDesign
  rw [get_bind_run, saves]
  rfl

theorem staysIn_saveDesign (isWithin : (Scope.journal file).Within scope)
    {store id : String} (saves : ∀ record path step, session.record id "" = .ok record →
      recordPath (.ofText store) record.userId record.id = .ok path →
      step ∈ saveSteps path record → scope.files step) :
    (saveDesign session store id).StaysIn file scope := by
  intro desk journals
  have rest (outcome : Outcome SavedDesign) : (do
      let _ ← ofOutcome "SavedDesign" outcome
      note sessionSpeaker .debug ("Saved design " ++ id)
      say ("[green]Saved design[/green] " ++ id) : Act Unit).StaysIn file scope :=
    (staysIn_ofOutcome _ _).bind fun _ =>
      ((staysIn_note _ _ _).mono isWithin).bind fun _ => staysIn_say _
  rcases session.save_directory_cases desk.tree (.ofText store) id "" with
    ⟨failure, failed⟩ | ⟨record, path, left, outcome, recorded, isPath, ran, saved⟩
  · rw [saveDesign_run session store id desk failed]
    exact rest _ desk journals
  · rw [saveDesign_run session store id desk saved]
    rcases DirectoryStore.exists_done_of_runSteps ran with ⟨done, isPrefix, runsDone⟩
    have reaches : desk.Reaches scope { desk with tree := left } :=
      .of_tree runsDone fun step mem =>
        saves record path step recorded isPath (isPrefix.subset mem)
    have ends := rest ((liftFile outcome).map fun _ => record) { desk with tree := left } journals
    exact ⟨ends.1, reaches.trans ends.2⟩

/-- Where saving a design succeeds, its directory took it, and then the save was noted. -/
theorem saveDesign_eq_ok (journals : desk.JournalsTo file) {store id : String}
    (ran : (saveDesign session store id).run desk = (.ok (), after)) :
    ∃ tree record, session.save (.directory desk.tree (.ofText store)) id "" =
        (.directory tree (.ofText store), .ok record) ∧
      { desk with tree := tree }.Reaches (.journal file) after := by
  obtain ⟨tree, outcome, saves⟩ : ∃ tree outcome,
      session.save (.directory desk.tree (.ofText store)) id "" =
        (.directory tree (.ofText store), outcome) := by
    rcases session.save_directory_cases desk.tree (.ofText store) id "" with
      ⟨failure, failed⟩ | ⟨record, path, left, outcome, -, -, -, saved⟩
    · exact ⟨_, _, failed⟩
    · exact ⟨_, _, saved⟩
  rw [saveDesign_run session store id desk saves] at ran
  rcases run_bind_eq_ok_iff.mp ran with ⟨record, _, given, noted⟩
  rcases ofOutcome_eq_ok_iff.mp given with ⟨rfl, rfl⟩
  refine ⟨tree, record, saves, ?_⟩
  have rest : (do
      note sessionSpeaker .debug ("Saved design " ++ id)
      say ("[green]Saved design[/green] " ++ id) : Act Unit).StaysIn file (.journal file) :=
    (staysIn_note _ _ _).bind fun _ => staysIn_say _
  have journalsToo : { desk with tree := tree }.JournalsTo file := journals
  exact (rest.reaches journalsToo noted).2

/-- Where its directory takes a design, saving it succeeds: the save can be noted. -/
theorem exists_saveDesign_run (journals : desk.JournalsTo file)
    (hasFile : ∀ name, file = some name → desk.tree.HasFile (.ofText name))
    {store id : String} {tree : FileTree} {record : SavedDesign}
    (saves : session.save (.directory desk.tree (.ofText store)) id "" =
      (.directory tree (.ofText store), .ok record)) :
    ∃ after, (saveDesign session store id).run desk = (.ok (), after) := by
  have canNote : { desk with tree := tree }.CanNote file := by
    intro name isTo
    rcases session.save_directory_cases desk.tree (.ofText store) id "" with
      ⟨failure, failed⟩ | ⟨own, path, left, outcome, -, -, ran, saved⟩
    · rw [failed] at saves
      cases saves
    · rw [saved, Prod.mk.injEq] at saves
      rcases saves with ⟨⟨⟩, succeeded⟩
      rcases map_eq_ok_iff.mp succeeded with ⟨⟨⟩, isDone, -⟩
      rw [DirectoryStore.liftFile_eq_ok_iff.mp isDone] at ran
      exact DirectoryStore.takes_of_saveSteps (hasFile name isTo) ran
  have journalsToo : { desk with tree := tree }.JournalsTo file := journals
  obtain ⟨noted, ran⟩ := exists_note_run journalsToo canNote sessionSpeaker .debug
    ("Saved design " ++ id)
  rw [saveDesign_run session store id desk saves]
  have given : (ofOutcome "SavedDesign" (.ok record)).run { desk with tree := tree } =
      (.ok record, { desk with tree := tree }) := rfl
  rw [run_bind_of_ok given, run_bind_of_ok ran]
  exact ⟨_, rfl⟩

/-! ## What is sent -/

/-- A delivery stops before its first request, or it ends. -/
theorem deliver_cases (root : String) (policy : RetryPolicy) (payload : Payload) (desk : Desk) :
    (∃ stop, (Act.deliver root policy payload).run desk = (.error stop, desk)) ∨
      ∃ address delivery, Address.state root = .ok address ∧
        Eaves.deliver policy address desk.nextPick desk.nextReply = .ok delivery := by
  unfold Act.deliver
  cases read : Address.state root with
  | error failure => exact .inl ⟨_, rfl⟩
  | ok address =>
      cases delivered : Eaves.deliver policy address desk.nextPick desk.nextReply with
      | ok delivery => exact .inr ⟨address, delivery, rfl, delivered⟩
      | error failure =>
          have given : (ofOutcome "" (.ok address)).run desk = (.ok address, desk) := rfl
          have stops : (ofOutcome "" (Eaves.deliver policy address desk.nextPick
              desk.nextReply)).run desk = (.error ⟨failure, ""⟩, desk) := by
            rw [delivered]
            rfl
          refine .inl ⟨⟨failure, ""⟩, ?_⟩
          rw [run_bind_of_ok given, get_bind_run]
          dsimp only
          unfold Desk.nextPick Desk.nextReply at stops
          rw [run_bind, stops]

theorem staysIn_deliver (isWithin : (Scope.journal file).Within scope)
    (sends : ∀ address, scope.requests ⟨address, payload⟩) (root : String) (policy : RetryPolicy) :
    (Act.deliver root policy payload).StaysIn file scope := by
  intro desk journals
  rcases deliver_cases root policy payload desk with
    ⟨stop, stopped⟩ | ⟨address, delivery, read, delivered⟩
  · rw [stopped]
    exact ⟨journals, .refl scope desk⟩
  · rw [deliver_run_eq read delivered payload]
    have rest : (do
        if !delivery.accepted then
          note "glowline.core.transport.http" .warning
            (refusalText root delivery.requests (desk.nextReply delivery.requests))
        return delivery.accepted : Act Bool).StaysIn file scope := by
      split
      · exact ((staysIn_note _ _ _).mono isWithin).bind fun _ => staysIn_pure _
      · exact staysIn_pure _
    have ends := rest (desk.sent ⟨address, payload⟩ delivery) journals
    exact ⟨ends.1, (Desk.Reaches.of_sent (sends address) delivery).trans ends.2⟩

/-- A delivery succeeds exactly if the controller accepts one of its requests. -/
theorem deliver_eq_true_iff {root : String} {policy : RetryPolicy} {result : Except Stop Bool}
    (ran : (Act.deliver root policy payload).run desk = (result, after)) :
    result = .ok true ↔ ∃ number, desk.requests.length ≤ number ∧
      number < after.requests.length ∧ (desk.replies number).Accepts := by
  rcases deliver_cases root policy payload desk with
    ⟨stop, stopped⟩ | ⟨address, delivery, read, delivered⟩
  · rw [stopped] at ran
    cases ran
    constructor
    · nofun
    · rintro ⟨number, made, inTime, -⟩
      exact absurd inTime (Nat.not_lt.mpr made)
  · obtain ⟨_, _, ranToo, requests, -, accepts, -⟩ := deliver_run read delivered payload
    rw [ran] at ranToo
    cases ranToo
    rw [accepts, accepted_iff_of_deliverFrom delivered, requests, List.length_append,
      List.length_replicate]
    constructor
    · rintro ⟨more, inTime, accepted⟩
      refine ⟨desk.requests.length + more, by omega, by omega, ?_⟩
      rwa [Desk.nextReply, show desk.requests.length + (1 + more) - 1 = desk.requests.length + more
        by omega] at accepted
    · rintro ⟨number, made, inTime, accepted⟩
      refine ⟨number - desk.requests.length, by omega, ?_⟩
      rwa [Desk.nextReply, show desk.requests.length + (1 + (number - desk.requests.length)) - 1 =
        number by omega]

end Command

end Eaves
