import Eaves.Proofs.Device.Delivery
import Eaves.Proofs.Store.Steps

/-!
# What an act may do

An act reaches a desk from another one by steps in the files, by what it shows and by
requests.  A scope says which of these it may take, and an act stays in a scope if it
does nothing else, wherever it stops.  The smallest scope that matters is that of the
journal: lines are shown, and one file is written to.

The journal never stops an act once it is set up: its file was begun then, and while
the file stays in its place it can be written to.
-/

namespace Eaves.Command

open DirectoryStore (SaveStep runSteps)

/-- What may be done: steps in the files, data that is shown, and requests.  Lines and tables may
always be shown. -/
structure Scope where
  files : SaveStep → Prop
  data : Value → Prop
  requests : Request → Prop

namespace Scope

/-- What keeping a journal in a file does; without a file, its lines are shown. -/
def journal (file : Option String) : Scope where
  files step := ∃ name content, file = some name ∧ step = .write (.ofText name) content
  data _ := False
  requests _ := False

/-- Whatever one scope allows, another one allows as well. -/
structure Within (scope wider : Scope) : Prop where
  files : ∀ step, scope.files step → wider.files step
  data : ∀ value, scope.data value → wider.data value
  requests : ∀ request, scope.requests request → wider.requests request

end Scope

variable {scope wider : Scope} {desk middle after : Desk} {file : Option String}

/-! ## From desk to desk -/

/-- A desk is reached from another one by doing only what a scope allows. -/
structure Desk.Reaches (scope : Scope) (desk after : Desk) : Prop where
  files : ∃ steps, runSteps desk.tree steps = (after.tree, .ok ()) ∧
    ∀ step ∈ steps, scope.files step
  shown : ∃ records, after.shown = desk.shown ++ records ∧
    ∀ value, .data value ∈ records → scope.data value
  requests : ∃ made, after.requests = desk.requests ++ made ∧
    ∀ request ∈ made, scope.requests request
  replies_eq : after.replies = desk.replies

namespace Desk.Reaches

theorem of_tree {tree : FileTree} {steps : List SaveStep}
    (runs : runSteps desk.tree steps = (tree, .ok ()))
    (allowed : ∀ step ∈ steps, scope.files step) :
    desk.Reaches scope { desk with tree := tree } :=
  ⟨⟨steps, runs, allowed⟩, ⟨[], by simp⟩, ⟨[], by simp⟩, rfl⟩

theorem of_shown {record : Record} (allowed : ∀ value, record = .data value → scope.data value) :
    desk.Reaches scope { desk with shown := desk.shown ++ [record] } := by
  refine ⟨⟨[], rfl, by simp⟩, ⟨[record], rfl, ?_⟩, ⟨[], by simp⟩, rfl⟩
  intro value mem
  exact allowed value (List.mem_singleton.mp mem).symm

theorem of_sent {request : Request} (allowed : scope.requests request) (delivery : Delivery) :
    desk.Reaches scope (desk.sent request delivery) := by
  refine ⟨⟨[], rfl, by simp⟩, ⟨[], by simp [Desk.sent]⟩, ⟨_, rfl, ?_⟩, rfl⟩
  intro made mem
  rw [List.eq_of_mem_replicate mem]
  exact allowed

/-- A journal that is set up is no step of its own. -/
theorem of_journal (journal : Option Journal.Setup) :
    desk.Reaches scope { desk with journal := journal } :=
  ⟨⟨[], rfl, by simp⟩, ⟨[], by simp⟩, ⟨[], by simp⟩, rfl⟩

theorem refl (scope : Scope) (desk : Desk) : desk.Reaches scope desk :=
  of_journal desk.journal

theorem trans (first : desk.Reaches scope middle) (second : middle.Reaches scope after) :
    desk.Reaches scope after := by
  rcases first with ⟨⟨steps, runs, allowed⟩, ⟨records, shown, given⟩, ⟨made, requested, asked⟩,
    replied⟩
  rcases second with ⟨⟨more, runsMore, allowedMore⟩, ⟨others, shownMore, givenMore⟩,
    ⟨later, requestedMore, askedMore⟩, repliedMore⟩
  refine ⟨⟨steps ++ more, DirectoryStore.runSteps_append runs runsMore, ?_⟩,
    ⟨records ++ others, ?_, ?_⟩, ⟨made ++ later, ?_, ?_⟩, repliedMore.trans replied⟩
  · exact fun step mem => (List.mem_append.mp mem).elim (allowed step) (allowedMore step)
  · rw [shownMore, shown, List.append_assoc]
  · exact fun value mem => (List.mem_append.mp mem).elim (given value) (givenMore value)
  · rw [requestedMore, requested, List.append_assoc]
  · exact fun request mem => (List.mem_append.mp mem).elim (asked request) (askedMore request)

theorem mono (reaches : desk.Reaches scope after) (isWithin : scope.Within wider) :
    desk.Reaches wider after := by
  rcases reaches with ⟨⟨steps, runs, allowed⟩, ⟨records, shown, given⟩, ⟨made, requested, asked⟩,
    replied⟩
  exact ⟨⟨steps, runs, fun step mem => isWithin.files step (allowed step mem)⟩,
    ⟨records, shown, fun value mem => isWithin.data value (given value mem)⟩,
    ⟨made, requested, fun request mem => isWithin.requests request (asked request mem)⟩, replied⟩

/-- Every request that was made since is allowed. -/
theorem allowed_of_getElem? (reaches : desk.Reaches scope after) {number : Nat} {request : Request}
    (isSince : desk.requests.length ≤ number) (isRequest : after.requests[number]? = some request) :
    scope.requests request := by
  rcases reaches.requests with ⟨made, requested, asked⟩
  rw [requested, List.getElem?_append_right isSince] at isRequest
  exact asked request (List.mem_of_getElem? isRequest)

/-- Keeping a journal asks nothing of the controller. -/
theorem requests_of_journal (reaches : desk.Reaches (.journal file) after) :
    after.requests = desk.requests := by
  rcases reaches.requests with ⟨made, requested, asked⟩
  rw [requested, List.eq_nil_iff_forall_not_mem.mpr asked, List.append_nil]

/-- Keeping a journal changes what stands at the place of its file, and nothing else. -/
theorem node?_of_journal (reaches : desk.Reaches (.journal file) after) (path : Path) :
    after.tree.node? path = desk.tree.node? path ∨
      ∃ name, file = some name ∧ desk.tree.locate (.ofText name) = .ok path := by
  rcases reaches.files with ⟨steps, runs, allowed⟩
  cases file with
  | none =>
      have noSteps : steps = [] := by
        refine List.eq_nil_iff_forall_not_mem.mpr fun step mem => ?_
        rcases allowed step mem with ⟨_, _, ⟨⟩, _⟩
      subst noSteps
      have sameTree : desk.tree = after.tree := congrArg Prod.fst runs
      exact .inl (by rw [sameTree])
  | some name =>
      have writes : ∀ step ∈ steps, ∃ content, step = .write (.ofText name) content := by
        intro step mem
        rcases allowed step mem with ⟨_, content, ⟨⟩, isWrite⟩
        exact ⟨content, isWrite⟩
      exact (DirectoryStore.node?_of_writes writes runs path).imp_right
        fun here => ⟨name, rfl, here⟩

/-- Keeping a journal, a file stays a file. -/
theorem hasFile_of_journal {path : Path} (reaches : desk.Reaches (.journal file) after)
    (hasFile : desk.tree.HasFile path) : after.tree.HasFile path := by
  rcases reaches.files with ⟨steps, runs, allowed⟩
  refine DirectoryStore.hasFile_of_runSteps (fun step mem => ?_) hasFile runs
  rcases allowed step mem with ⟨_, _, -, rfl⟩
  trivial

end Desk.Reaches

/-! ## Acts that stay in a scope -/

/-- The journal of a desk goes to a file, or is shown where there is none. -/
def Desk.JournalsTo (file : Option String) (desk : Desk) : Prop :=
  ∀ setup, desk.journal = some setup → ∀ outlet ∈ setup.outlets, outlet.file = file

/-- The file of the journal, if it has one, can be written to. -/
def Desk.CanNote (file : Option String) (desk : Desk) : Prop :=
  ∀ name, file = some name → desk.tree.Takes (.ofText name)

namespace Act

variable {α β : Type} {act : Act α}

/-- An act that only does what a scope allows, whether it stops early or not, at a desk whose
journal goes to a file; and the journal goes there still. -/
def StaysIn (file : Option String) (scope : Scope) (act : Act α) : Prop :=
  ∀ desk : Desk, desk.JournalsTo file →
    (act.run desk).2.JournalsTo file ∧ desk.Reaches scope (act.run desk).2

theorem StaysIn.reaches (staysIn : act.StaysIn file scope) (journals : desk.JournalsTo file)
    {result : Except Stop α} (ran : act.run desk = (result, after)) :
    after.JournalsTo file ∧ desk.Reaches scope after := by
  have ends := staysIn desk journals
  rwa [ran] at ends

theorem StaysIn.of_same (same : ∀ desk : Desk, (act.run desk).2 = desk) :
    act.StaysIn file scope := by
  intro desk journals
  rw [same]
  exact ⟨journals, .refl scope desk⟩

theorem staysIn_pure (value : α) : (pure value : Act α).StaysIn file scope :=
  .of_same fun _ => rfl

theorem ofOutcome_run (record : String) (outcome : Outcome α) (desk : Desk) :
    (ofOutcome record outcome).run desk =
      (outcome.mapError fun failure => ⟨failure, record⟩, desk) := by
  cases outcome <;> rfl

theorem staysIn_ofOutcome (record : String) (outcome : Outcome α) :
    (ofOutcome record outcome).StaysIn file scope :=
  .of_same fun desk => by rw [ofOutcome_run]

theorem StaysIn.bind (staysIn : act.StaysIn file scope) {next : α → Act β}
    (nextStaysIn : ∀ value, (next value).StaysIn file scope) :
    (act >>= next).StaysIn file scope := by
  intro desk journals
  obtain ⟨journalsAfter, reaches⟩ := staysIn desk journals
  rw [run_bind]
  rcases ran : act.run desk with ⟨stop | value, after⟩ <;> rw [ran] at journalsAfter reaches
  · exact ⟨journalsAfter, reaches⟩
  · obtain ⟨journalsEnd, further⟩ := nextStaysIn value after journalsAfter
    exact ⟨journalsEnd, reaches.trans further⟩

theorem StaysIn.mono (staysIn : act.StaysIn file scope) (isWithin : scope.Within wider) :
    act.StaysIn file wider := by
  intro desk journals
  obtain ⟨journalsAfter, reaches⟩ := staysIn desk journals
  exact ⟨journalsAfter, reaches.mono isWithin⟩

theorem staysIn_forM {members : List α} {each : α → Act Unit}
    (staysIn : ∀ member ∈ members, (each member).StaysIn file scope) :
    (members.forM each).StaysIn file scope := by
  induction members with
  | nil => exact staysIn_pure ()
  | cons member rest ih =>
      apply (staysIn member List.mem_cons_self).bind
      exact fun _ => ih fun other mem => staysIn other (List.mem_cons_of_mem _ mem)

theorem staysIn_display {record : Record}
    (allowed : ∀ value, record = .data value → scope.data value) :
    (display record).StaysIn file scope :=
  fun _ journals => ⟨journals, .of_shown allowed⟩

theorem staysIn_say (text : String) : (say text).StaysIn file scope :=
  staysIn_display (by nofun)

/-! ## Files -/

/-- Changes the files by an operation that may be refused. -/
def changeTree (change : FileTree → FileOutcome FileTree) : Act Unit := do
  setTree (← ofFiles (change (← get).tree))

theorem changeTree_run (change : FileTree → FileOutcome FileTree) (desk : Desk) :
    (changeTree change).run desk = match change desk.tree with
      | .ok tree => (.ok (), { desk with tree := tree })
      | .error fault => (.error ⟨.file fault, ""⟩, desk) := by
  change (ofFiles (change desk.tree) >>= setTree).run desk = _
  rw [run_bind, ofFiles, ofOutcome_run]
  cases change desk.tree <;> rfl

theorem staysIn_changeTree {change : FileTree → FileOutcome FileTree} (step : SaveStep)
    (isStep : ∀ tree, step.run tree = change tree) (allowed : scope.files step) :
    (changeTree change).StaysIn file scope := by
  intro desk journals
  rw [changeTree_run]
  cases changes : change desk.tree with
  | error fault => exact ⟨journals, .refl scope desk⟩
  | ok tree =>
      have ran : step.run desk.tree = .ok tree := (isStep desk.tree).trans changes
      refine ⟨journals, .of_tree (DirectoryStore.runSteps_singleton ran) ?_⟩
      simpa using allowed

/-! ## The journal -/

theorem get_bind_run (next : Desk → Act α) (desk : Desk) :
    (get >>= next : Act α).run desk = (next desk).run desk :=
  rfl

/-- Text is added to a file by writing the file. -/
theorem append_run (path : Path) (text : String) (desk : Desk) :
    ∃ content, (append path text).run desk =
      (changeTree fun tree => tree.write path content).run desk := by
  unfold append changeTree
  simp only [get_bind_run]
  exact ⟨_, rfl⟩

theorem staysIn_append (name text : String) :
    (append (.ofText name) text).StaysIn (some name) (.journal (some name)) := by
  intro desk journals
  rcases append_run (.ofText name) text desk with ⟨content, ran⟩
  rw [ran]
  have allowed : (Scope.journal (some name)).files (.write (.ofText name) content) :=
    ⟨name, content, rfl, rfl⟩
  exact staysIn_changeTree _ (fun _ => rfl) allowed desk journals

theorem staysIn_putLine (outlet : Journal.Outlet) (text : String) :
    (putLine outlet text).StaysIn outlet.file (.journal outlet.file) := by
  unfold putLine
  cases outlet.file with
  | some name => exact staysIn_append name text
  | none =>
      dsimp only
      split
      · exact staysIn_pure ()
      · exact staysIn_display (by nofun)

/-- Making a note stays in the journal. -/
theorem staysIn_note (speaker : String) (gravity : Journal.Gravity) (text : String) :
    (note speaker gravity text).StaysIn file (.journal file) := by
  intro desk journals
  unfold note
  rw [get_bind_run]
  split
  · exact staysIn_pure () desk journals
  · rename_i setup isSetup
    refine staysIn_forM (fun outlet mem => ?_) desk journals
    have isTo : outlet.file = file := journals setup isSetup outlet mem
    have staysIn := staysIn_putLine outlet (setup.lines outlet
      [{ gravity := gravity, speaker := speaker, text := text, created := desk.now }])
    rwa [isTo] at staysIn

/-! ## Notes that are made -/

/-- What lets each act of a sequence succeed, and is kept by it, lets all of them succeed. -/
theorem exists_forM_run {Holds : Desk → Prop} {members : List α} {each : α → Act Unit}
    (succeeds : ∀ member ∈ members, ∀ desk, Holds desk →
      ∃ after, (each member).run desk = (.ok (), after) ∧ Holds after)
    {desk : Desk} (holds : Holds desk) :
    ∃ after, (members.forM each).run desk = (.ok (), after) ∧ Holds after := by
  induction members generalizing desk with
  | nil => exact ⟨desk, rfl, holds⟩
  | cons member rest ih =>
      obtain ⟨next, ran, holdsNext⟩ := succeeds member List.mem_cons_self desk holds
      obtain ⟨after, ranRest, holdsAfter⟩ :=
        ih (fun other mem => succeeds other (List.mem_cons_of_mem _ mem)) holdsNext
      refine ⟨after, ?_, holdsAfter⟩
      change ((each member) >>= fun _ => rest.forM each).run desk = _
      rw [run_bind, ran]
      exact ranRest

theorem exists_putLine_run {outlet : Journal.Outlet} (text : String)
    (canNote : desk.CanNote outlet.file) :
    ∃ after, (putLine outlet text).run desk = (.ok (), after) ∧ after.CanNote outlet.file := by
  unfold putLine
  cases isTo : outlet.file with
  | none =>
      dsimp only
      split
      · exact ⟨desk, rfl, by nofun⟩
      · exact ⟨_, rfl, by nofun⟩
  | some name =>
      have takes := canNote name isTo
      rcases append_run (.ofText name) text desk with ⟨content, ran⟩
      rcases takes.exists_write content with ⟨left, writes⟩
      rw [changeTree_run, writes] at ran
      refine ⟨_, ran, ?_⟩
      rintro other ⟨⟩
      exact takes.write writes

/-- A note is made wherever the file of the journal can be written to. -/
theorem exists_note_run (journals : desk.JournalsTo file) (canNote : desk.CanNote file)
    (speaker : String) (gravity : Journal.Gravity) (text : String) :
    ∃ after, (note speaker gravity text).run desk = (.ok (), after) := by
  unfold note
  rw [get_bind_run]
  split
  · exact ⟨desk, rfl⟩
  · rename_i setup isSetup
    refine (exists_forM_run (fun outlet mem other holds => ?_) canNote).imp fun _ => And.left
    have isTo : outlet.file = file := journals setup isSetup outlet mem
    rw [← isTo] at holds ⊢
    exact exists_putLine_run _ holds

end Act

end Eaves.Command
