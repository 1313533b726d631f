import Eaves.Proofs.Record.Document
import Eaves.Proofs.Session.Prompted
import Eaves.Proofs.Store.Agreement

/-!
# Designs that are loaded

A design is saved in a directory while some of it is still open, and loaded later.  The
record has the choices of the flags as plain data, so the design that comes back is the
plain one.  Nothing is left for the checks to add to its flags, and its questions are
asked anew: the same questions in the same order, with the same options, but of a shade
and of a spacing rule there is nothing to see any more.
-/

namespace Eaves

open Outcome
open FileTree (Site)

variable {kind : AmbiguityKind} {value : Value} {flag : Ambiguity} {intent : Intent}
  {kept : SavedDesign} {id name : String}

/-! ## What a record keeps of the design -/

theorem Value.IsFor.isHeld_plain (isFor : value.IsFor kind) : value.plain.IsHeld := by
  cases isFor with
  | zone zone => exact zone.isHeld_toValue
  | color color => exact color.isHeld_toValue
  | spacing rule => exact rule.isHeld_toValue
  | _ => trivial

theorem Value.IsFor.written_plain (isFor : value.IsFor kind) :
    value.plain.written = value.plain := by
  cases isFor with
  | zone zone => exact zone.written_toValue
  | color color => exact color.written_toValue
  | spacing rule => exact rule.written_toValue
  | _ => rfl

theorem Ambiguity.IsTyped.isHeld_plain (typed : flag.IsTyped) : flag.toValue.plain.IsHeld := by
  have choices : AreHeld (plainItems (flag.choices.map Choice.toValue)) := by
    rw [plainItems_eq_map, List.map_map]
    refine areHeld_map fun choice mem => ?_
    obtain ⟨bare, isFor⟩ := typed choice mem
    simp [Choice.toValue, bare, Value.ofOption, isFor.isHeld_plain]
  simp [toValue, Value.ofWord, choices, Value.isHeld_plain_ofText?]

/-- A document keeps a typed flag as plain data. -/
theorem Ambiguity.IsTyped.kept_eq (typed : flag.IsTyped) : flag.kept = flag.plain := by
  have choices : flag.choices.map Choice.kept = flag.choices.map Choice.plain := by
    refine List.map_congr_left fun choice mem => ?_
    obtain ⟨bare, isFor⟩ := typed choice mem
    rw [Choice.kept, Choice.plain, isFor.written_plain, bare]
    rfl
  rw [kept, plain, choices]

namespace Intent.IsPrompted

/-- A document can hold a design that is made of prompts and answers, -/
theorem isHeld_plain (prompted : intent.IsPrompted) : intent.toValue.plain.IsHeld := by
  have layers : AreHeld (plainItems (intent.layers.map Layer.toValue)) := by
    rw [plainItems_map fun layer _ => layer.plain_toValue]
    refine areHeld_map fun layer mem => Layer.isHeld_toValue ?_
    simp [prompted.noStops layer mem]
  have flags : AreHeld (plainItems (intent.ambiguities.map Ambiguity.toValue)) := by
    rw [plainItems_eq_map, List.map_map]
    exact areHeld_map fun flag mem => (prompted.flags flag mem).isHeld_plain
  have settings : intent.settings.toValue.plain.IsHeld := intent.settings.isHeld_toValue
  simp [toValue, layers, flags, settings, prompted.confidence]

/-- and keeps it as plain data. -/
theorem kept_eq (prompted : intent.IsPrompted) : intent.kept = intent.plain := by
  have flags : intent.ambiguities.map Ambiguity.kept = intent.ambiguities.map Ambiguity.plain :=
    List.map_congr_left fun flag mem => (prompted.flags flag mem).kept_eq
  rw [kept, plain, flags]

end Intent.IsPrompted

namespace Session

variable {session other : Session} {repository : Repository} {site : Site} {tree : FileTree}

/-! ## What comes back -/

/-- A session of the same user, on the same roofline and with the same settings. -/
structure IsSetUpAs (other session : Session) : Prop where
  roofline_eq : other.roofline = session.roofline
  settings_eq : other.settings = session.settings
  userId_eq : other.userId = session.userId

namespace IsSetUpAs

theorem refl (session : Session) : session.IsSetUpAs session :=
  ⟨rfl, rfl, rfl⟩

theorem symm (setUp : other.IsSetUpAs session) : session.IsSetUpAs other :=
  ⟨setUp.roofline_eq.symm, setUp.settings_eq.symm, setUp.userId_eq.symm⟩

theorem adopt (setUp : other.IsSetUpAs session) (intent : Intent) :
    (other.adopt intent).1.IsSetUpAs session := by
  unfold Session.adopt
  split
  · exact setUp
  · split <;> exact ⟨setUp.roofline_eq, setUp.settings_eq, setUp.userId_eq⟩

theorem compose (setUp : other.IsSetUpAs session) (form : PayloadForm) :
    (other.compose form).1.IsSetUpAs session := by
  unfold Session.compose
  split
  · exact ⟨setUp.roofline_eq, setUp.settings_eq, setUp.userId_eq⟩
  · exact setUp

end IsSetUpAs

/-- Whatever is done with a session, it stays set up as it was. -/
theorem isSetUpAs_run (start : Session) (operations : List Operation) :
    (start.run operations).IsSetUpAs start :=
  run_induction (fun session => session.IsSetUpAs start) (fun _ => True)
    (fun setUp _ _ => setUp.adopt _) (fun setUp => setUp.compose _) (.refl start)
    fun _ _ => trivial

/-- What is saved of a design that is made of prompts and answers can be read from its document. -/
theorem isLasting_record (recorded : session.record id name = .ok kept)
    (recordable : kept.intent.IsRecordable) (prompted : kept.intent.IsPrompted)
    (short : ∀ n ∈ kept.toValue.plain.wholes, n.natAbs < Number.tenTo Text.digitLimit) :
    kept.IsLasting := by
  refine ⟨recordable, ?_, short⟩
  have intent := prompted.isHeld_plain
  have payload : (Value.ofOption .object kept.payload).plain.IsHeld := by
    rw [(record_eq_ok recorded).2]
    cases session.last.bind Composition.payload with
    | none => trivial
    | some payload =>
        simp only [Option.map_some, Value.ofOption, Value.plain_object, payload.plain_toEntries]
        exact payload.isHeld_toEntries
  simp [SavedDesign.toValue, intent, payload, Value.isHeld_plain_ofText?]

/-- The checks add nothing to a checked design that has become plain data. -/
theorem withRaised_plain (covers : session.Covers intent) (setUp : other.IsSetUpAs session) :
    other.withRaised intent.plain = .ok intent.plain := by
  obtain ⟨validation, validated, covered⟩ := covers
  have validatedToo :
      Check.validate intent.plain other.roofline other.settings.checks = .ok validation := by
    rw [setUp.roofline_eq, setUp.settings_eq]
    exact validated
  have merged :
      mergeFlags intent.plain.ambiguities validation.flags = intent.plain.ambiguities := by
    refine mergeFlags_eq_self fun flag mem => ?_
    obtain ⟨own, ownMem, sameKind, sameLayer⟩ := covered flag mem
    exact ⟨own.plain, List.mem_map_of_mem ownMem, sameKind, sameLayer⟩
  rw [withRaised, validatedToo, ok_bind, merged]
  rfl

/-- A record is kept under the id that it is saved under, for the user of the session. -/
theorem keys_of_record (recorded : session.record id name = .ok kept) :
    kept.id = id ∧ kept.userId = session.userId := by
  rcases bind_eq_ok_iff.mp recorded with ⟨intent, -, rest⟩
  rcases bind_eq_ok_iff.mp rest with ⟨checked, -, shape⟩
  rw [pure_eq_ok_iff] at shape
  subst shape
  exact ⟨rfl, rfl⟩

/-- What is saved in a directory is in the directory afterwards. -/
theorem save_directory_eq_ok {root : Path}
    (saved : session.save (.directory tree root) id name = (repository, .ok kept)) :
    session.record id name = .ok kept ∧ ∃ left, repository = .directory left root ∧
      DirectoryStore.save tree root kept = (left, .ok ()) := by
  have recorded : session.record id name = .ok kept :=
    record_of_save (congrArg Prod.snd saved)
  refine ⟨recorded, ?_⟩
  simp only [save, recorded, Repository.save, Prod.mk.injEq] at saved
  rcases saved with ⟨rfl, succeeded⟩
  rcases map_eq_ok_iff.mp succeeded with ⟨_, isDone, -⟩
  exact ⟨_, rfl, Prod.ext rfl isDone⟩

/-- What is saved in a directory is loaded from it for the same user, as a document keeps it. -/
theorem stored_of_save (stands : site.StandsIn tree) (proper : tree.IsProper)
    (saved : session.save (.directory tree site.root) id name = (repository, .ok kept))
    (lasting : kept.IsLasting) (setUp : other.IsSetUpAs session) :
    other.stored repository id = .ok kept.intent.kept := by
  obtain ⟨recorded, left, rfl, saves⟩ := save_directory_eq_ok saved
  obtain ⟨sameId, owner⟩ := keys_of_record recorded
  obtain ⟨userKey, designKey, replaced⟩ := DirectoryStore.replaced_of_save stands proper saves
  have loads : Repository.load (.directory left site.root) other.userId id =
      .ok (some kept.kept) := by
    rw [setUp.userId_eq, ← owner, ← sameId, Repository.load, replaced.load_eq,
      DirectoryStore.ofDocument?_of_isKey userKey designKey lasting]
  rw [stored, loads]
  rfl

/-! ## The questions about it -/

/-- Questions that have nothing to show any more are the same data as before exactly if they had
nothing to show. -/
theorem map_unshown_eq_iff (questions : List Question) :
    questions.map (fun question => question.unshown.toValue.plain) =
        questions.map (fun question => question.toValue.plain) ↔
      ∀ question ∈ questions, ∀ offer ∈ question.offers, offer.ShowsNothing := by
  rw [List.map_inj_left]
  exact forall₂_congr fun question _ => question.plain_toValue_unshown_iff

theorem exists_load_of_save (made : session.MadeByPrompts) (stands : site.StandsIn tree)
    (proper : tree.IsProper)
    (saved : session.save (.directory tree site.root) id name = (repository, .ok kept))
    (short : ∀ n ∈ kept.toValue.plain.wholes, n.natAbs < Number.tenTo Text.digitLimit)
    (setUp : other.IsSetUpAs session) :
    ∃ after, other.load repository id = (after, .ok kept.intent.plain) ∧
      after.questions.map (fun question => question.toValue.plain) =
        session.questions.map (fun question => question.unshown.toValue.plain) := by
  obtain ⟨recorded, -⟩ := save_directory_eq_ok saved
  have isIntent := (record_eq_ok recorded).1
  have prompted := made.isPrompted isIntent
  have lasting := isLasting_record recorded (made.isRecordable isIntent) prompted short
  have stored : other.stored repository id = .ok kept.intent.plain := by
    rw [← prompted.kept_eq]
    exact stored_of_save stands proper saved lasting setUp
  have raises := withRaised_plain (made.covers isIntent) setUp
  have asked := made.asked isIntent
  obtain ⟨questions, askedToo⟩ := Intent.exists_ask_plain asked
  have sameSubject : other.subject kept.intent.plain =
      ⟨kept.intent.plain, some session.roofline, session.settings.checks⟩ := by
    rw [subject, setUp.roofline_eq, setUp.settings_eq]
  refine ⟨{ other with intent := some kept.intent.plain, questions, last := none }, ?_,
    map_plain_toValue_ask prompted.flags asked askedToo rfl fun _ => rfl⟩
  rw [load, stored]
  dsimp only
  rw [adopt, raises]
  dsimp only
  rw [sameSubject, askedToo]

/-- A record that a directory accepts is saved in it. -/
theorem exists_save {shelf : Shelf} (recorded : session.record id name = .ok kept)
    (mirrors : DirectoryStore.Mirrors site tree shelf)
    (takes : DirectoryStore.Takes site.root kept) :
    ∃ repository, session.save (.directory tree site.root) id name = (repository, .ok kept) := by
  rcases mirrors.save takes with ⟨left, saves, -⟩
  refine ⟨.directory left site.root, ?_⟩
  simp only [save, recorded, Repository.save, saves]
  rfl

/-! ## A shade that is left open -/

/-- A session with a prompt whose shade is left open. -/
def redSession : Session :=
  freshSession.run [.take (.prompt "red")]

theorem madeByPrompts_redSession : redSession.MadeByPrompts := by
  have share : (Number.Binary64.finite 1).IsShare := ⟨1, rfl, by decide, by decide⟩
  refine ⟨freshSession, [.take (.prompt "red")], ⟨rfl, rfl, rfl⟩, ⟨by decide, share, share⟩, ?_,
    rfl⟩
  intro operation mem
  rw [List.mem_singleton.mp mem]
  exact ⟨trivial, trivial⟩

/-- The three shades of red are shown, and what is saved has small numbers only. -/
theorem view_redSession :
    ((redSession.record "red" "").map fun kept =>
      (redSession.questions.map fun question =>
          question.offers.map fun offer => offer.swatches.isSome,
        kept.toValue.plain.wholes.all fun n => decide (n.natAbs < 10 ^ 3))).toOption =
      some ([[true, true, true]], true) := by
  decide +kernel

/-- The session is saved in an empty directory. -/
theorem exists_save_redSession : ∃ kept repository,
    redSession.save (.directory DirectoryStore.bareTree ["designs"]) "red" "" =
        (repository, .ok kept) ∧
      (∀ n ∈ kept.toValue.plain.wholes, n.natAbs < Number.tenTo Text.digitLimit) ∧
      (redSession.questions.map fun question =>
        question.offers.map fun offer => offer.swatches.isSome) = [[true, true, true]] := by
  obtain ⟨kept, recorded, view⟩ := exists_ok_of_toOption view_redSession
  obtain ⟨shown, few⟩ := Prod.mk.inj view
  have made := madeByPrompts_redSession
  have isIntent := (record_eq_ok recorded).1
  obtain ⟨sameId, owner⟩ := keys_of_record recorded
  have many : 10 ^ 3 ≤ Number.tenTo Text.digitLimit := Number.ten_pow_le_tenTo (by decide)
  have short : ∀ n ∈ kept.toValue.plain.wholes, n.natAbs < Number.tenTo Text.digitLimit := by
    intro n mem
    have small : n.natAbs < 10 ^ 3 := of_decide_eq_true (List.all_eq_true.mp few n mem)
    exact small.trans_le many
  have lasting := isLasting_record recorded (made.isRecordable isIntent) (made.isPrompted isIntent)
    short
  have isLocal : kept.userId = "local" := owner.trans (isSetUpAs_run freshSession _).userId_eq
  have takes : DirectoryStore.Takes DirectoryStore.designsSite.root kept := by
    refine ⟨?_, ?_, ?_, ?_, lasting⟩
    · rw [isLocal, sameId]
      exact ⟨⟨by decide, by decide⟩, ⟨by decide, by decide⟩, rfl⟩
    · rw [isLocal]
      rfl
    · rw [sameId]
      decide
    · rw [isLocal, sameId]
      rfl
  obtain ⟨repository, saved⟩ :=
    exists_save recorded (DirectoryStore.Mirrors.empty DirectoryStore.isVacant_bareTree) takes
  exact ⟨kept, repository, saved, short, shown⟩

/-- Options of which one has swatches do show something. -/
theorem not_showsNothing_of_swatches {questions : List Question} {shown : List Bool}
    (view : (questions.map fun question =>
      question.offers.map fun offer => offer.swatches.isSome) = [true :: shown]) :
    ¬ ∀ question ∈ questions, ∀ offer ∈ question.offers, offer.ShowsNothing := by
  intro nothing
  have inside : true :: shown ∈ questions.map fun question =>
      question.offers.map fun offer => offer.swatches.isSome := by
    rw [view]
    exact List.mem_singleton_self _
  rcases List.mem_map.mp inside with ⟨question, questionMem, own⟩
  have isShown : true ∈ question.offers.map fun offer => offer.swatches.isSome := by
    rw [own]
    exact List.mem_cons_self
  rcases List.mem_map.mp isShown with ⟨offer, mem, isSome⟩
  rw [(nothing question questionMem offer mem).swatches_eq] at isSome
  cases isSome

end Session

end Eaves
