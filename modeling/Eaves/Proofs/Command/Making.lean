import Eaves.Command.Run
import Eaves.Proofs.Command.Scope
import Eaves.Proofs.Session.Run

/-!
# Before a payload is handed over

Until a command has its payload, it does nothing but keep its journal: it reads the
settings and the roofline, takes the prompt in, settles what is open and composes the
design.  Where it has a payload then, that is the payload of a composition that shows
the design, and nothing about the design is open.
-/

namespace Eaves.Command

open Act

variable {α β : Type} {scope : Scope} {file : Option String} {desk middle after : Desk}
  {session settled : Session} {order : Order} {payload : Payload} {invocation : Invocation}

/-! ## What acts give -/

theorem Act.run_bind_eq_ok_iff {act : Act α} {next : α → Act β} {value : β} :
    (act >>= next).run desk = (.ok value, after) ↔
      ∃ first middle, act.run desk = (.ok first, middle) ∧
        (next first).run middle = (.ok value, after) := by
  rw [run_bind]
  rcases act.run desk with ⟨stop | first, middle⟩
  · exact ⟨nofun, by rintro ⟨_, _, ⟨⟩, _⟩⟩
  · exact ⟨fun ran => ⟨first, middle, rfl, ran⟩, by rintro ⟨_, _, ⟨⟩, ran⟩; exact ran⟩

theorem Act.run_bind_of_ok {act : Act α} {next : α → Act β} {value : α}
    (ran : act.run desk = (.ok value, middle)) :
    (act >>= next).run desk = (next value).run middle := by
  rw [run_bind, ran]

theorem Act.ofOutcome_eq_ok_iff {record : String} {outcome : Outcome α} {value : α} :
    (ofOutcome record outcome).run desk = (.ok value, after) ↔
      outcome = .ok value ∧ desk = after := by
  rw [ofOutcome_run]
  cases outcome with
  | error failure => exact ⟨nofun, by rintro ⟨⟨⟩, _⟩⟩
  | ok own =>
      constructor
      · rintro ⟨⟩
        exact ⟨rfl, rfl⟩
      · rintro ⟨⟨⟩, rfl⟩
        rfl

theorem proceed_run (result : SessionResult α) (desk : Desk) :
    (proceed result).run desk = match result with
      | (session, .ok value) => (.ok (session, value), desk)
      | (_, .error failure) => (.error ⟨failure, ""⟩, desk) := by
  rcases result with ⟨session, failure | value⟩ <;> rfl

theorem staysIn_proceed (result : SessionResult α) : (proceed result).StaysIn file scope := by
  refine .of_same fun desk => ?_
  rw [proceed_run]
  rcases result with ⟨session, failure | value⟩ <;> rfl

/-! ## Opening a session -/

/-- The file that the journal of an invocation goes to. -/
def journalFile (invocation : Invocation) (desk : Desk) : Option String :=
  match loadSettings desk.tree (invocation.settings.map Path.ofText) with
  | .ok settings => Journal.Setup.file settings.logging
  | .error _ => none

theorem settingsFor_run (invocation : Invocation) (desk : Desk) :
    (settingsFor invocation).run desk =
      match loadSettings desk.tree (invocation.settings.map Path.ofText) with
      | .ok settings =>
          (.ok (if invocation.verbose then
            { settings with logging := { settings.logging with level := "DEBUG" } }
            else settings), desk)
      | .error failure => (.error ⟨failure, "AppConfig"⟩, desk) := by
  unfold settingsFor
  dsimp only
  rw [get_bind_run, run_bind, ofOutcome_run]
  cases loadSettings desk.tree (invocation.settings.map Path.ofText) with
  | error failure => rfl
  | ok settings =>
      dsimp only [Except.mapError]
      split <;> rfl

/-- Reading the settings touches nothing, and a verbose journal goes where it would go else. -/
theorem settingsFor_cases (invocation : Invocation) (desk : Desk) :
    (∃ stop, (settingsFor invocation).run desk = (.error stop, desk)) ∨
      ∃ settings, (settingsFor invocation).run desk = (.ok settings, desk) ∧
        Journal.Setup.file settings.logging = journalFile invocation desk := by
  rw [settingsFor_run, journalFile]
  cases loadSettings desk.tree (invocation.settings.map Path.ofText) with
  | error failure => exact .inl ⟨_, rfl⟩
  | ok settings =>
      refine .inr ⟨_, rfl, ?_⟩
      split <;> rfl

theorem staysIn_openJournal (settings : LogSettings) :
    (openJournal settings).StaysIn (Journal.Setup.file settings)
      (.journal (Journal.Setup.file settings)) := by
  unfold openJournal
  refine (staysIn_ofOutcome _ _).bind fun level => ?_
  dsimp only
  refine StaysIn.bind ?_ fun _ => (staysIn_ofOutcome _ _).bind fun form desk _ => ?_
  · cases Journal.Setup.file settings with
    | none => exact staysIn_pure ()
    | some name => exact staysIn_append name ""
  · refine ⟨?_, .of_journal _⟩
    rintro setup ⟨⟩ outlet mem
    rw [List.mem_singleton.mp mem]

theorem hasFile_of_append {path : Path} {text : String}
    (appended : (append path text).run desk = (.ok (), after)) : after.tree.HasFile path := by
  rcases append_run path text desk with ⟨content, ran⟩
  rw [ran, changeTree_run] at appended
  cases writes : desk.tree.write path content with
  | error fault =>
      rw [writes] at appended
      cases appended
  | ok left =>
      rw [writes] at appended
      cases appended
      exact FileTree.hasFile_of_write writes

/-- The file of a journal that is set up has been begun. -/
theorem hasFile_of_openJournal {settings : LogSettings}
    (opened : (openJournal settings).run desk = (.ok (), after)) {name : String}
    (isTo : Journal.Setup.file settings = some name) : after.tree.HasFile (.ofText name) := by
  unfold openJournal at opened
  rcases run_bind_eq_ok_iff.mp opened with ⟨level, _, -, opened⟩
  rcases run_bind_eq_ok_iff.mp opened with ⟨⟨⟩, begun, begins, opened⟩
  rcases run_bind_eq_ok_iff.mp opened with ⟨form, _, formed, opened⟩
  rcases ofOutcome_eq_ok_iff.mp formed with ⟨-, rfl⟩
  cases opened
  rw [isTo] at begins
  have isBegun : begun.tree.HasFile (.ofText name) := hasFile_of_append begins
  exact isBegun

/-- Opening a session keeps its journal, and does nothing else; and where a session is open, the
file of its journal is there. -/
theorem openSession_spec (unopened : desk.journal = none) {result : Except Stop Session}
    (opened : (openSession invocation).run desk = (result, after)) :
    after.JournalsTo (journalFile invocation desk) ∧
      desk.Reaches (.journal (journalFile invocation desk)) after ∧
      ((∃ session, result = .ok session) → ∀ name, journalFile invocation desk = some name →
        after.tree.HasFile (.ofText name)) := by
  have nowhere : desk.JournalsTo (journalFile invocation desk) := by
    intro setup isSetup
    rw [unopened] at isSetup
    cases isSetup
  unfold openSession at opened
  rcases settingsFor_cases invocation desk with ⟨stop, ran⟩ | ⟨settings, ran, isTo⟩
  · rw [run_bind, ran] at opened
    cases opened
    exact ⟨nowhere, .refl _ desk, by rintro ⟨_, ⟨⟩⟩⟩
  · rw [run_bind_of_ok ran] at opened
    rw [← isTo] at nowhere ⊢
    rcases begun : (openJournal settings.logging).run desk with ⟨stop | ⟨⟨⟩⟩, middle⟩
    · rw [run_bind, begun] at opened
      cases opened
      obtain ⟨journals, reaches⟩ := (staysIn_openJournal settings.logging).reaches nowhere begun
      exact ⟨journals, reaches, by rintro ⟨_, ⟨⟩⟩⟩
    · obtain ⟨journals, reaches⟩ := (staysIn_openJournal settings.logging).reaches nowhere begun
      rw [run_bind_of_ok begun] at opened
      have ends : after.JournalsTo (Journal.Setup.file settings.logging) ∧
          middle.Reaches (.journal (Journal.Setup.file settings.logging)) after := by
        refine StaysIn.reaches ?_ journals opened
        refine StaysIn.bind (.of_same fun _ => rfl) fun _ => ?_
        refine (staysIn_ofOutcome _ _).bind fun roofline => ?_
        exact (staysIn_note _ _ _).bind fun _ => (staysIn_note _ _ _).bind fun _ => staysIn_pure _
      refine ⟨ends.1, reaches.trans ends.2, ?_⟩
      intro _ name isName
      exact ends.2.hasFile_of_journal (hasFile_of_openJournal begun isName)

/-! ## Settling what is open -/

theorem staysIn_takePrompt (session : Session) (prompt : String) :
    (takePrompt session prompt).StaysIn file (.journal file) := by
  refine (staysIn_proceed _).bind fun taken => ?_
  exact (staysIn_note _ _ _).bind fun _ => staysIn_pure _

theorem staysIn_acceptRounds (rounds : Nat) (session : Session) :
    (acceptRounds rounds session).StaysIn file scope := by
  induction rounds generalizing session with
  | zero => exact staysIn_pure session
  | succ rounds ih =>
      rw [acceptRounds]
      split
      · exact staysIn_pure session
      · exact (staysIn_proceed _).bind fun answered => ih answered.1

theorem staysIn_settle (session : Session) (order : Order) :
    (settle session order).StaysIn file (.journal file) := by
  refine (staysIn_takePrompt session order.prompt).bind fun taken => ?_
  refine (staysIn_ofOutcome _ _).bind fun answers => ?_
  have accepted (answered : Session) :
      (if order.acceptsRecommended then acceptRounds maxRounds answered
        else pure answered : Act Session).StaysIn file (.journal file) := by
    split
    · exact staysIn_acceptRounds maxRounds answered
    · exact staysIn_pure answered
  dsimp only
  split
  · exact (staysIn_pure _).bind accepted
  · refine (staysIn_proceed _).bind fun answered => ?_
    exact (staysIn_pure _).bind accepted

/-! ## Composing -/

theorem staysIn_showComposition (result : Composition) :
    (showComposition result).StaysIn file scope := by
  refine (staysIn_forM fun _ _ => staysIn_say _).bind fun _ => ?_
  split
  · exact (staysIn_say _).bind fun _ => staysIn_pure _
  · refine (staysIn_say _).bind fun _ => ?_
    exact (staysIn_forM fun _ _ => staysIn_say _).bind fun _ => staysIn_pure _

/-- Making a payload keeps the journal, and does nothing else. -/
theorem staysIn_makePayload (session : Session) (order : Order) :
    (makePayload session order).StaysIn file (.journal file) := by
  refine (staysIn_settle session order).bind fun settled => ?_
  split
  · refine (staysIn_proceed _).bind fun composed => ?_
    have shown : (do
        return (composed.1, ← showComposition composed.2) :
          Act (Session × Option Payload)).StaysIn file (.journal file) :=
      (staysIn_showComposition _).bind fun _ => staysIn_pure _
    dsimp only
    split
    · exact (staysIn_note _ _ _).bind fun _ => shown
    · exact shown
  · refine (staysIn_say _).bind fun _ => ?_
    refine (staysIn_forM fun _ _ => staysIn_say _).bind fun _ => ?_
    exact (staysIn_say _).bind fun _ => staysIn_pure _

/-- Only the payload of a composition that shows the design is given on. -/
theorem payload_of_showComposition {result : Composition}
    (shown : (showComposition result).run desk = (.ok (some payload), after)) :
    result.payload = some payload := by
  unfold showComposition at shown
  rcases run_bind_eq_ok_iff.mp shown with ⟨⟨⟩, warned, -, shown⟩
  split at shown
  · rename_i own _ isPayload
    rcases run_bind_eq_ok_iff.mp shown with ⟨⟨⟩, _, -, given⟩
    cases given
    exact isPayload
  · rcases run_bind_eq_ok_iff.mp shown with ⟨⟨⟩, _, -, shown⟩
    rcases run_bind_eq_ok_iff.mp shown with ⟨⟨⟩, _, -, given⟩
    cases given

/-- A payload that is made is that of a composition that shows the design, with nothing open, and
the session keeps it as its last. -/
theorem makePayload_eq_ok
    (made : (makePayload session order).run desk = (.ok (settled, some payload), after)) :
    settled.IsPayloadOfDesign payload ∧
      settled.last.bind Composition.payload = some payload := by
  unfold makePayload at made
  rcases run_bind_eq_ok_iff.mp made with ⟨answered, _, -, made⟩
  split at made
  · rcases run_bind_eq_ok_iff.mp made with ⟨⟨own, result⟩, composedAt, ran, made⟩
    obtain ⟨isComposition, rfl⟩ : answered.composed order.form = .ok result ∧
        own = { answered with last := some result } := by
      rw [proceed_run, Session.compose] at ran
      cases composed : answered.composed order.form <;> rw [composed] at ran <;> cases ran
      exact ⟨rfl, rfl⟩
    obtain ⟨shownAt, given⟩ : ∃ shownAt, (do
        return ({ answered with last := some result }, ← showComposition result) :
          Act (Session × Option Payload)).run shownAt = (.ok (settled, some payload), after) := by
      dsimp only at made
      split at made
      · rcases run_bind_eq_ok_iff.mp made with ⟨⟨⟩, noted, -, shown⟩
        exact ⟨noted, shown⟩
      · exact ⟨composedAt, made⟩
    rcases run_bind_eq_ok_iff.mp given with ⟨_, _, shown, pair⟩
    cases pair
    have hasPayload := payload_of_showComposition shown
    exact ⟨Session.isPayloadOfDesign_of_composed isComposition hasPayload, hasPayload⟩
  · rcases run_bind_eq_ok_iff.mp made with ⟨⟨⟩, _, -, made⟩
    rcases run_bind_eq_ok_iff.mp made with ⟨⟨⟩, _, -, made⟩
    rcases run_bind_eq_ok_iff.mp made with ⟨⟨⟩, _, -, given⟩
    cases given

end Eaves.Command
