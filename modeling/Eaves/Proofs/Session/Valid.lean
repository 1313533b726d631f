import Eaves.Proofs.Record.Form
import Eaves.Proofs.Session.Kept

/-!
# Designs stay valid

Answers and checks change a design without reading it anew, so nothing checks the
fields they set.  Nothing has to: whatever is asked for, answered or loaded, the data
of the design has the form that its records promise, and reading it anew would accept
it and give the same design.  The same holds of the groups that merging puts together.
-/

namespace Eaves

open Outcome

variable {intent settled : Intent} {questions : List Question} {answers : Answers}

/-- A design whose data has its form, and which reading that data would give again. -/
structure Intent.IsValid (intent : Intent) : Prop where
  form : Intent.form intent.toValue
  accepted : Intent.read intent.toValue = .valid intent

theorem Intent.isValid_iff : intent.IsValid ↔ intent.IsRecordable :=
  ⟨fun isValid => form_toValue_iff.mp isValid.form,
    fun recordable => ⟨form_toValue_iff.mpr recordable, read_toValue recordable⟩⟩

/-! ## Groups -/

namespace Group

/-- A group that merging gives starts where one of its groups starts, and ends where one ends. -/
theorem exists_ends_of_mem_fuseFrom {current group : Group} {rest : List Group}
    (mem : group ∈ fuseFrom current rest) :
    (∃ begins ∈ current :: rest, group.first = begins.first) ∧
      ∃ ends ∈ current :: rest, group.last = ends.last := by
  induction rest generalizing current with
  | nil =>
      rw [List.mem_singleton.mp mem]
      exact ⟨⟨current, .head _, rfl⟩, current, .head _, rfl⟩
  | cons next rest ih =>
      rw [fuseFrom] at mem
      split at mem
      · rename_i continues
        rcases ih mem with ⟨⟨begins, beginsMem, first⟩, ends, endsMem, last⟩
        constructor
        · rcases List.mem_cons.mp beginsMem with rfl | later
          · exact ⟨current, .head _, first⟩
          · exact ⟨begins, .tail _ (.tail _ later), first⟩
        · rcases List.mem_cons.mp endsMem with rfl | later
          · exact ⟨next, .tail _ (.head _), last⟩
          · exact ⟨ends, .tail _ (.tail _ later), last⟩
      · rcases List.mem_cons.mp mem with rfl | later
        · exact ⟨⟨group, .head _, rfl⟩, group, .head _, rfl⟩
        · rcases ih later with ⟨⟨begins, beginsMem, first⟩, ends, endsMem, last⟩
          exact ⟨⟨begins, .tail _ beginsMem, first⟩, ends, .tail _ endsMem, last⟩

theorem exists_ends_of_mem_merge {groups : List Group} {group : Group}
    (mem : group ∈ merge groups) :
    (∃ begins ∈ groups, group.first = begins.first) ∧
      ∃ ends ∈ groups, group.last = ends.last := by
  have kept : ∀ other, other ∈ sorted groups ↔ other ∈ groups := fun _ => List.mem_mergeSort
  simp only [← kept]
  unfold merge fuse at mem
  split at mem
  · cases mem
  · rename_i shape
    rw [shape]
    exact exists_ends_of_mem_fuseFrom mem

end Group

/-! ## Sessions -/

namespace Session

variable {session start : Session}

/-- The design of a session, if there is one, is valid. -/
def HoldsValid (session : Session) : Prop :=
  ∀ intent, session.intent = some intent → intent.IsValid

/-- An operation that brings nothing but valid designs: one that is handed in is, and so are those
in memory.  Of files nothing is asked. -/
def Operation.BringsValid : Operation → Prop
  | .take (.design intent) => intent.IsValid
  | .take (.stored (.memory store) _) => ∀ design ∈ store.designs, design.intent.IsValid
  | _ => True

/-- A design that a document holds is valid, whatever the document. -/
theorem isValid_ofDocument {text : String} {design : SavedDesign}
    (holds : SavedDesign.ofDocument? text = some design) : design.intent.IsValid := by
  rcases Option.bind_eq_some_iff.mp holds with ⟨value, -, rest⟩
  split at rest
  · have isRead : SavedDesign.read value = .valid design := by
      revert rest
      cases SavedDesign.read value <;> simp [Checked.toOption]
    rcases Reader.of_strictRecord isRead with ⟨es, fields⟩
    rcases Checked.seq_eq_valid_iff.mp fields with ⟨_, savedAt, fields, -, shape⟩
    rcases Checked.seq_eq_valid_iff.mp fields with ⟨_, payload, fields, -, shape⟩
    rcases Checked.seq_eq_valid_iff.mp fields with ⟨_, rooflineId, fields, -, shape⟩
    rcases Checked.seq_eq_valid_iff.mp fields with ⟨_, intent, fields, isIntent, shape⟩
    rcases Checked.seq_eq_valid_iff.mp fields with ⟨_, name, fields, -, shape⟩
    rcases Checked.seq_eq_valid_iff.mp fields with ⟨_, userId, fields, -, shape⟩
    rcases Checked.map_eq_valid_iff.mp fields with ⟨id, -, shape⟩
    subst_vars
    unfold Reader.required at isIntent
    split at isIntent
    · exact Intent.isValid_iff.mpr
        (Intent.isRecordable_of_read (Checked.under_eq_valid_iff.mp isIntent))
    · cases isIntent
  · cases rest

/-- What is loaded from a directory is what some document holds. -/
theorem exists_document_of_load {tree : FileTree} {root : Path} {userId id : String}
    {design : SavedDesign} (loaded : DirectoryStore.load tree root userId id = .ok (some design)) :
    ∃ text, SavedDesign.ofDocument? text = some design := by
  rcases bind_eq_ok_iff.mp loaded with ⟨path, -, rest⟩
  split at rest
  · rename_i text _
    exact ⟨text, Except.ok.inj rest⟩
  · cases rest
  · cases rest

theorem isValid_stored {repository : Repository} {id : String}
    (brings : (Operation.take (.stored repository id)).BringsValid)
    (isStored : session.stored repository id = .ok intent) : intent.IsValid := by
  rcases bind_eq_ok_iff.mp isStored with ⟨found, loaded, rest⟩
  cases found with
  | none => cases rest
  | some design =>
      rw [pure_eq_ok_iff] at rest
      subst rest
      cases repository with
      | memory store =>
          exact brings design (List.mem_of_find?_eq_some (Except.ok.inj loaded))
      | directory tree root =>
          rcases exists_document_of_load loaded with ⟨text, holds⟩
          exact isValid_ofDocument holds

/-- What is taken in is valid before it is checked. -/
theorem isValid_brought (holds : session.HoldsValid) {source : Source}
    (brings : (Operation.take source).BringsValid)
    (isBrought : session.brought source = .ok intent) : intent.IsValid := by
  cases source with
  | prompt text =>
      rcases bind_eq_ok_iff.mp isBrought with ⟨parsed, isParsed, shape⟩
      rw [pure_eq_ok_iff] at shape
      subst shape
      have recordable := (Prompt.isKeepable_parse isParsed).recordable
      exact Intent.isValid_iff.mpr ⟨recordable.confidence, recordable.stops⟩
  | answers answers =>
      rcases answered_eq_ok_iff.mp isBrought with ⟨own, isOwn, settles⟩
      exact Intent.isValid_iff.mpr ((Intent.isValid_iff.mp (holds own isOwn)).settle settles)
  | design own =>
      cases isBrought
      exact brings
  | stored repository id => exact isValid_stored brings isBrought

theorem HoldsValid.run (holds : session.HoldsValid) {operations : List Operation}
    (brings : ∀ operation ∈ operations, operation.BringsValid) :
    (session.run operations).HoldsValid := by
  refine holds_run (fun isValid raises => ?_) (fun holdsNow => isValid_brought holdsNow) holds
    brings
  exact Intent.isValid_iff.mpr (isRecordable_withRaised (Intent.isValid_iff.mp isValid) raises)

end Session

/-- Whatever a prompt asks for is valid, whatever the text, the roofline and the settings.  So is
what answers leave of a valid design, and what a session holds after operations that bring nothing
but valid designs, in any order and with any outcome.  Groups are merged into groups that start at
zero or later, where one of them starts, and end no earlier than they start, where one of them
ends. -/
theorem values_stay_valid :
    (∀ text roofline settings intent, Prompt.parse text roofline settings = .ok intent →
      intent.IsValid) ∧
    (∀ intent answers questions settled, intent.IsValid →
      Intent.settle intent answers questions = .ok settled → settled.IsValid) ∧
    (∀ start operations intent, Session.HoldsValid start →
      (∀ operation ∈ operations, Session.Operation.BringsValid operation) →
      (start.run operations).intent = some intent → intent.IsValid) ∧
    ∀ groups, ∀ group ∈ Group.merge groups, Group.form group.toValue ∧
      (∃ begins ∈ groups, group.first = begins.first) ∧
        ∃ ends ∈ groups, group.last = ends.last := by
  refine ⟨?_, ?_, ?_, ?_⟩
  · intro text roofline settings intent parsed
    exact Intent.isValid_iff.mpr (Prompt.isKeepable_parse parsed).recordable
  · intro intent answers questions settled isValid settles
    exact Intent.isValid_iff.mpr ((Intent.isValid_iff.mp isValid).settle settles)
  · intro start operations intent holds brings reached
    exact holds.run brings intent reached
  · intro groups group mem
    exact ⟨group.form_toValue, Group.exists_ends_of_mem_merge mem⟩

/-- A question about the speed of the first layer. -/
def howFast : Question :=
  { id := "speed_0", kind := .speed, wording := "How fast should it move?", offers := []
    layerId := some "layer_0" }

/-- An option of the user's own, beyond every level. -/
def tooFast : Answers :=
  [("speed_0", .own { id := "own", label := "As fast as can be", value := .int 999 })]

/-- A design of one layer that moves. -/
def oneMoving : Intent :=
  { layers := [{ id := "layer_0", name := "Chase", motion := some { kind := .chase } }] }

theorem speeds_oneMoving :
    ((oneMoving.settle tooFast [howFast]).map fun settled =>
      settled.layers.map fun layer => layer.motion.map Motion.speed).toOption =
        some [some 255] := by
  decide +kernel

/-- Two groups that touch, and agree in colour. -/
def twoTouching : List Group :=
  [⟨0, 3, .pureWhite, by decide⟩, ⟨4, 5, .pureWhite, by decide⟩]

theorem merge_twoTouching :
    Group.merge twoTouching = [⟨0, 5, .pureWhite, by decide⟩] := by
  have inOrder : Group.sorted twoTouching = twoTouching :=
    List.mergeSort_of_pairwise (by decide)
  rw [Group.merge, inOrder]
  rfl

theorem values_stay_valid_tooFast :
    ∃ parsed settled reached,
      Prompt.parse "red chase" (some Session.freshSession.roofline)
        Session.freshSession.settings.parsing = .ok parsed ∧ parsed.IsValid ∧
      oneMoving.settle tooFast [howFast] = .ok settled ∧ settled.IsValid ∧
      (settled.layers.map fun layer => layer.motion.map Motion.speed) = [some 255] ∧
      (Session.freshSession.run Session.redChase).intent = some reached ∧ reached.IsValid ∧
      ∃ group ∈ Group.merge twoTouching, group.first = 0 ∧ group.last = 5 ∧
        Group.form group.toValue := by
  obtain ⟨reached, raises, -⟩ := exists_ok_of_toOption Session.kinds_redChase
  rcases bind_eq_ok_iff.mp raises with ⟨asked, understood, raises⟩
  rcases bind_eq_ok_iff.mp understood with ⟨parsed, isParsed, -⟩
  have isReached : (Session.freshSession.run Session.redChase).intent = some reached := by
    rw [Session.redChase, Session.run, List.foldl_cons, List.foldl_nil, Session.step,
      Session.take_eq, Session.brought, understood]
    exact Session.intent_adopt raises
  have holds : Session.freshSession.HoldsValid := by
    intro other isOther
    cases isOther
  have brings : ∀ operation ∈ Session.redChase, operation.BringsValid := by
    intro operation mem
    rw [List.mem_singleton.mp mem]
    trivial
  obtain ⟨settled, settles, speeds⟩ := exists_ok_of_toOption speeds_oneMoving
  have isMovingValid : oneMoving.IsValid := by
    refine Intent.isValid_iff.mpr ⟨Number.Binary64.isUnit_zero, ?_⟩
    intro layer mem stop stopMem
    rw [List.mem_singleton.mp mem] at stopMem
    cases stopMem
  have mem : (⟨0, 5, .pureWhite, by decide⟩ : Group) ∈ Group.merge twoTouching := by
    rw [merge_twoTouching]
    exact List.mem_singleton_self _
  obtain ⟨ofPrompts, ofAnswers, ofRuns, ofGroups⟩ := values_stay_valid
  exact ⟨parsed, settled, reached, isParsed, ofPrompts _ _ _ _ isParsed, settles,
    ofAnswers _ _ _ _ isMovingValid settles, speeds, isReached,
    ofRuns _ _ _ holds brings isReached, _, mem, rfl, rfl, (ofGroups _ _ mem).1⟩

end Eaves
