import Eaves.Proofs.Answer.Alike
import Eaves.Proofs.Session.Adoption

/-!
# Answers one at a time

Answers may be applied together, or one after another with the questions asked anew in
between.  Asked anew, the question about a flag has a new number, as flags in front of
it are gone, and its options are worked out for a changed design; but they mean what
they meant, and the option chosen changes the same layers in the same way.  So both
ways lead to the same layers, flags and settings, or fail for the same reason.

One thing can come between: after an answer there may be no asking anew.  An option can
put a layer on a zone whose lights cannot be counted, and the question about any flag
of that layer counts them.  It takes a strip with more lights than the number format
can count; without a roofline, or within bounds, the questions can always be asked.
-/

namespace Eaves

open Outcome

/-! ## Flags that have moved up -/

namespace Settle

variable {flags : List Ambiguity} {flag : Ambiguity} {gone : List Nat} {position : Nat}

/-- The number of positions in front of one that are not gone. -/
def openBefore (gone : List Nat) (position : Nat) : Nat :=
  (List.range position).countP fun i => !gone.contains i

/-- Flags numbered from a start, without those at positions that are gone. -/
def kept (gone : List Nat) (start : Nat) (flags : List Ambiguity) : List Ambiguity :=
  ((flags.zipIdx start).filter fun flag => !gone.contains flag.2).map Prod.fst

theorem remaining_eq_kept (flags : List Ambiguity) (gone : List Nat) :
    remaining flags gone = kept gone 0 flags :=
  rfl

theorem kept_append (gone : List Nat) (start : Nat) (front back : List Ambiguity) :
    kept gone start (front ++ back) =
      kept gone start front ++ kept gone (start + front.length) back := by
  rw [kept, List.zipIdx_append, List.filter_append, List.map_append]
  rfl

theorem kept_cons_of_notMem {start : Nat} (isOpen : start ∉ gone) (flag : Ambiguity)
    (flags : List Ambiguity) :
    kept gone start (flag :: flags) = flag :: kept gone (start + 1) flags := by
  rw [kept, List.zipIdx_cons, List.filter_cons_of_pos (by simpa using isOpen)]
  rfl

theorem kept_cons_of_mem {start : Nat} (isGone : start ∈ gone) (flag : Ambiguity)
    (flags : List Ambiguity) :
    kept gone start (flag :: flags) = kept gone (start + 1) flags := by
  rw [kept, List.zipIdx_cons, List.filter_cons_of_neg (by simpa using isGone)]
  rfl

/-- Only the positions of the flags themselves matter. -/
theorem kept_congr {other : List Nat} {start : Nat}
    (same : ∀ i, start ≤ i → i < start + flags.length → (i ∈ gone ↔ i ∈ other)) :
    kept gone start flags = kept other start flags := by
  rw [kept, kept]
  congr 1
  apply List.filter_congr
  intro placed mem
  have first := List.le_snd_of_mem_zipIdx mem
  have last := List.snd_lt_add_of_mem_zipIdx mem
  rw [Bool.eq_iff_iff, Bool.not_eq_true', Bool.not_eq_true', ← Bool.not_eq_true,
    ← Bool.not_eq_true, List.contains_iff_mem, List.contains_iff_mem, same _ first last]

theorem kept_nil (start : Nat) (flags : List Ambiguity) : kept [] start flags = flags := by
  rw [kept, List.filter_eq_self.mpr (by simp), List.zipIdx_map_fst]

/-- As many flags are kept in front of a position as there are positions that are not gone. -/
theorem length_kept (gone : List Nat) (flags : List Ambiguity) :
    (kept gone 0 flags).length = openBefore gone flags.length := by
  rw [kept, List.length_map, ← List.countP_eq_length_filter, openBefore, List.range_eq_range',
    ← List.zipIdx_map_snd 0 flags, List.countP_map]
  rfl

theorem exists_split (placed : flags[position]? = some flag) :
    ∃ front back, flags = front ++ flag :: back ∧ front.length = position := by
  rcases List.getElem?_eq_some_iff.mp placed with ⟨inside, isFlag⟩
  refine ⟨flags.take position, flags.drop (position + 1), ?_, ?_⟩
  · rw [← isFlag, ← List.drop_eq_getElem_cons inside, List.take_append_drop]
  · rw [List.length_take]
    omega

/-- An open flag has moved up to behind the open ones in front of it. -/
theorem getElem?_remaining (placed : flags[position]? = some flag) (isOpen : position ∉ gone) :
    (remaining flags gone)[openBefore gone position]? = some flag := by
  obtain ⟨front, back, rfl, rfl⟩ := exists_split placed
  rw [remaining_eq_kept, kept_append, zero_add, kept_cons_of_notMem isOpen, ← length_kept]
  simp

/-- Taking an open flag from those that remain is taking it from all of them. -/
theorem remaining_remaining (placed : flags[position]? = some flag) (isOpen : position ∉ gone) :
    remaining (remaining flags gone) [openBefore gone position] =
      remaining flags (position :: gone) := by
  obtain ⟨front, back, rfl, rfl⟩ := exists_split placed
  have before : kept (front.length :: gone) 0 front = kept gone 0 front :=
    kept_congr fun i _ below => by
      rw [List.mem_cons, or_iff_right (by omega)]
  have behind : kept (front.length :: gone) (front.length + 1) back =
      kept gone (front.length + 1) back :=
    kept_congr fun i above _ => by
      rw [List.mem_cons, or_iff_right (by omega)]
  have without : ∀ before behind : List Ambiguity,
      kept [before.length] 0 (before ++ flag :: behind) = before ++ behind := by
    intro before behind
    have inFront : kept [before.length] 0 before = kept [] 0 before :=
      kept_congr fun i _ below => by
        rw [List.mem_singleton]
        simp only [List.not_mem_nil, iff_false]
        omega
    have further : kept [before.length] (before.length + 1) behind =
        kept [] (before.length + 1) behind :=
      kept_congr fun i above _ => by
        rw [List.mem_singleton]
        simp only [List.not_mem_nil, iff_false]
        omega
    rw [kept_append, zero_add, kept_cons_of_mem (List.mem_singleton_self _), inFront, further,
      kept_nil, kept_nil]
  rw [remaining_eq_kept, remaining_eq_kept, remaining_eq_kept, kept_append, zero_add,
    kept_cons_of_notMem isOpen, ← length_kept, without, kept_append, zero_add,
    kept_cons_of_mem List.mem_cons_self, before, behind]

/-! ## Options that are given -/

variable {answers : Answers} {questions : List Question}

/-- The questions that answers give an option, each with its option. -/
def given (answers : Answers) (questions : List Question) : List (Question × Offer) :=
  questions.filterMap fun question => (chosen? answers question).map fun offer => (question, offer)

/-- Answers to questions are the options given, applied one after another. -/
theorem foldlM_applyOne (flags : List Ambiguity) (answers : Answers) (questions : List Question)
    (start : Progress) :
    questions.foldlM (applyOne flags answers) start =
      (given answers questions).foldlM (fun progress pair =>
        applyOffer flags progress pair.1 pair.2) start := by
  induction questions generalizing start with
  | nil => rfl
  | cons question rest ih =>
      rw [List.foldlM_cons, applyOne, given, List.filterMap_cons]
      cases chosen? answers question with
      | none =>
          rw [ok_bind]
          exact ih start
      | some offer =>
          dsimp only [Option.map_some]
          rw [List.foldlM_cons]
          congr 1
          funext next
          exact ih next

/-- An option for a question about an open flag changes the layers for that flag, and settles
it. -/
theorem applyOffer_of_isAbout {question : Question} (about : question.IsAbout (flag, position))
    (placed : flags[position]? = some flag) (few : flags.length ≤ 10 ^ Text.digitLimit)
    {progress : Progress} (isOpen : position ∉ progress.settled) (offer : Offer) :
    applyOffer flags progress question offer =
      (change progress.layers question offer (some flag)).map fun layers =>
        { progress with layers := layers, settled := position :: progress.settled } := by
  have inside := (List.getElem?_eq_some_iff.mp placed).1
  have settles : question.kind.settlesFlags = true := by
    rw [about.kind_eq]
    exact settlesFlags_question flag.kind
  have fits : isOpenFor flags progress.settled question position = true :=
    isOpenFor_iff.mpr ⟨flag, placed, isOpen, about.layerId_eq.symm, about.kind_eq.symm⟩
  have matched : flagFor? flags progress.settled question = .ok (some position) := by
    rw [flagFor?, about.id_eq, position?_questionId _ (by omega), ok_bind, Option.filter_some,
      if_pos fits]
    rfl
  rw [applyOffer, if_pos settles, matched, ok_bind]
  dsimp only
  rw [placed]
  cases change progress.layers question offer (some flag) <;> rfl

end Settle

/-! ## Picks -/

/-- An option picked for the question about a flag: the flag's kind and position, and the id of the
option. -/
structure Pick where
  kind : AmbiguityKind
  position : Nat
  option : String

namespace Pick

/-- The pick as an answer. -/
def answer (pick : Pick) : String × Answer :=
  (questionId pick.kind pick.position, .chosen pick.option)

/-- The pick for the same flag when flags at some positions are gone. -/
def without (pick : Pick) (gone : List Nat) : Pick :=
  { pick with position := Settle.openBefore gone pick.position }

end Pick

/-- Picks for some of the questions, in the order of asking, each of an option that is offered. -/
def ArePicks (questions : List Question) (picks : List Pick) : Prop :=
  ∃ chosen : List Question, chosen.Sublist questions ∧
    List.Forall₂ (fun question pick => question.id = pick.answer.1 ∧
      ∃ offer ∈ question.offers, offer.id = pick.option) chosen picks

namespace Intent

/-- The design after one pick: questions about it are asked, and one of them is answered. -/
def settleOne (roofline : Option Roofline) (settings : CheckSettings) (intent : Intent)
    (pick : Pick) : Outcome Intent := do
  let questions ← ask intent.ambiguities ⟨intent, roofline, settings⟩
  intent.settle [pick.answer] questions

/-- The design after picks, one after another.  Picks are numbered by the flags there were to begin
with; flags at the positions `gone` have been settled since. -/
def settleInTurn (roofline : Option Roofline) (settings : CheckSettings) :
    Intent → (gone : List Nat) → List Pick → Outcome Intent
  | intent, _, [] => .ok intent
  | intent, gone, pick :: rest => do
      let next ← intent.settleOne roofline settings (pick.without gone)
      settleInTurn roofline settings next (pick.position :: gone) rest

/-- Whenever it is one of the picks' turn, the questions can be asked. -/
def AsksInTurn (roofline : Option Roofline) (settings : CheckSettings) :
    Intent → (gone : List Nat) → List Pick → Prop
  | _, _, [] => True
  | intent, gone, pick :: rest =>
      ∃ questions, ask intent.ambiguities ⟨intent, roofline, settings⟩ = .ok questions ∧
        ∀ next, intent.settle [(pick.without gone).answer] questions = .ok next →
          AsksInTurn roofline settings next (pick.position :: gone) rest

/-- What answers decide: the layers, the flags that are left, and the settings. -/
def decided (intent : Intent) : List Layer × List Ambiguity × SceneSettings :=
  (intent.layers, intent.ambiguities, intent.settings)

end Intent

/-! ## Picks as options that are given -/

section Picked

variable {questions chosen : List Question} {answers : Answers} {picks : List Pick}

/-- What is kept under a key that no other entry has is found. -/
theorem lookup_of_mem {entries : Answers} (apart : (entries.map Prod.fst).Nodup) {key : String}
    {answer : Answer} (mem : (key, answer) ∈ entries) : entries.lookup key = some answer := by
  induction entries with
  | nil => cases mem
  | cons first rest ih =>
      rw [List.map_cons, List.nodup_cons] at apart
      rw [List.lookup_cons]
      rcases List.mem_cons.mp mem with here | later
      · rw [← here, beq_self_eq_true]
      · have elsewhere : (key == first.1) = false := by
          rw [beq_eq_false_iff_ne]
          intro same
          exact apart.1 (same ▸ List.mem_map_of_mem later)
        rw [elsewhere]
        exact ih apart.2 later

/-- Questions that are given no option can be left out. -/
theorem Settle.given_sublist (sublist : chosen.Sublist questions) (apart : questions.Nodup)
    (silent : ∀ question ∈ questions, question ∉ chosen → chosen? answers question = none) :
    given answers questions = given answers chosen := by
  induction sublist with
  | slnil => rfl
  | @cons chosen questions question sublist ih =>
      rw [List.nodup_cons] at apart
      have notChosen : question ∉ chosen := fun mem => apart.1 (sublist.subset mem)
      rw [given, List.filterMap_cons, silent question List.mem_cons_self notChosen]
      exact ih apart.2 fun other mem => silent other (List.mem_cons_of_mem _ mem)
  | @cons_cons chosen questions question sublist ih =>
      rw [List.nodup_cons] at apart
      have rest : given answers questions = given answers chosen := by
        apply ih apart.2
        intro other mem notChosen
        apply silent other (List.mem_cons_of_mem _ mem)
        rw [List.mem_cons, not_or]
        exact ⟨fun same => apart.1 (same ▸ mem), notChosen⟩
      rw [given, given, List.filterMap_cons, List.filterMap_cons]
      rw [given, given] at rest
      rw [rest]

/-- The ids of the questions that are picked for are those of the answers. -/
theorem ids_of_picks {Offered : Question → Pick → Prop}
    (related : List.Forall₂ (fun question pick => question.id = pick.answer.1 ∧
      Offered question pick) chosen picks) :
    chosen.map Question.id = (picks.map Pick.answer).map Prod.fst := by
  rw [List.map_map, ← List.forall₂_eq_eq_eq, List.forall₂_map_left_iff, List.forall₂_map_right_iff]
  exact related.imp fun _ _ each => each.1

/-- Picks give the questions they are for the options that they name. -/
theorem chosen?_of_picks (apart : (chosen.map Question.id).Nodup)
    (related : List.Forall₂ (fun question pick => question.id = pick.answer.1 ∧
      ∃ offer ∈ question.offers, offer.id = pick.option) chosen picks) :
    List.Forall₂ (fun question pick => question.id = pick.answer.1 ∧
      ∃ offer, Settle.chosen? (picks.map Pick.answer) question = some offer ∧
        question.offer? pick.option = some offer) chosen picks := by
  have answersApart : ((picks.map Pick.answer).map Prod.fst).Nodup := ids_of_picks related ▸ apart
  rw [List.forall₂_iff_zip] at related ⊢
  refine ⟨related.1, fun {question pick} together => ?_⟩
  rcases related.2 together with ⟨sameId, offer, offered, isNamed⟩
  have answered : (picks.map Pick.answer).lookup question.id = some (.chosen pick.option) := by
    rw [sameId]
    exact lookup_of_mem answersApart (List.mem_map_of_mem (List.of_mem_zip together).2)
  have isOffered : (question.offer? pick.option).isSome = true :=
    List.find?_isSome.mpr ⟨offer, offered, beq_iff_eq.mpr isNamed⟩
  rcases Option.isSome_iff_exists.mp isOffered with ⟨first, isFirst⟩
  refine ⟨sameId, first, ?_, isFirst⟩
  rw [Settle.chosen?, answered]
  exact isFirst

/-- Answers to some questions give the others no option. -/
theorem chosen?_eq_none (apart : (questions.map Question.id).Nodup)
    (sublist : chosen.Sublist questions) (sameIds : chosen.map Question.id = answers.map Prod.fst)
    {question : Question} (mem : question ∈ questions) (notChosen : question ∉ chosen) :
    Settle.chosen? answers question = none := by
  have unanswered : answers.lookup question.id = none := by
    rw [List.lookup_eq_none_iff]
    intro answer given
    rw [bne_iff_ne]
    intro sameId
    have named : question.id ∈ chosen.map Question.id := by
      rw [sameIds, sameId]
      exact List.mem_map_of_mem given
    rcases List.mem_map.mp named with ⟨other, otherMem, same⟩
    have isOther := List.inj_on_of_nodup_map apart (sublist.subset otherMem) mem same
    exact notChosen (isOther ▸ otherMem)
  rw [Settle.chosen?, unanswered]
  rfl

/-- Where every question is given an option, they are given theirs one by one. -/
theorem given_of_chosen? {Offered : Question → Offer → Pick → Prop}
    (found : List.Forall₂ (fun question pick => question.id = pick.answer.1 ∧
      ∃ offer, Settle.chosen? answers question = some offer ∧ Offered question offer pick)
      chosen picks) :
    (Settle.given answers chosen).map Prod.fst = chosen ∧
      List.Forall₂ (fun pair pick => pair.1.id = pick.answer.1 ∧ Offered pair.1 pair.2 pick)
        (Settle.given answers chosen) picks := by
  induction found with
  | nil => exact ⟨rfl, .nil⟩
  | @cons question pick _ _ first _ ih =>
      rcases first with ⟨sameId, offer, isChosen, offered⟩
      rw [Settle.given, List.filterMap_cons, isChosen]
      exact ⟨congrArg _ ih.1, .cons ⟨sameId, offered⟩ ih.2⟩

/-- Picks for some of the questions give those the options that they name, and no other question an
option. -/
theorem given_of_arePicks (apart : (questions.map Question.id).Nodup)
    (arePicks : ArePicks questions picks) :
    ((Settle.given (picks.map Pick.answer) questions).map Prod.fst).Sublist questions ∧
      List.Forall₂ (fun pair pick => pair.1.id = pick.answer.1 ∧
          pair.1.offer? pick.option = some pair.2)
        (Settle.given (picks.map Pick.answer) questions) picks := by
  rcases arePicks with ⟨chosen, sublist, related⟩
  have silent := fun question (mem : question ∈ questions) (notChosen : question ∉ chosen) =>
    chosen?_eq_none apart sublist (ids_of_picks related) mem notChosen
  have found := chosen?_of_picks (apart.sublist (sublist.map _)) related
  rcases given_of_chosen? found with ⟨sameQuestions, each⟩
  rw [Settle.given_sublist sublist (List.Nodup.of_map _ apart) silent, sameQuestions]
  exact ⟨sublist, each⟩

end Picked

/-! ## One pick -/

section Turn

variable {flags : List Ambiguity} {subject : Subject} {questions : List Question}
  {pair : Question × Offer} {pick : Pick} {flag : Ambiguity} {gone : List Nat}
  {roofline : Option Roofline} {settings : CheckSettings} {current : Intent}

/-- A question and an option for it, where the question is the one about the flag that a pick is
for, and the option is the one picked. -/
structure Pick.IsFor (flags : List Ambiguity) (subject : Subject) (pair : Question × Offer)
    (pick : Pick) (flag : Ambiguity) : Prop where
  placed : flags[pick.position]? = some flag
  asked : askOne subject pick.position flag = .ok pair.1
  offered : pair.1.offer? pick.option = some pair.2
  sameId : ∀ position, questionId pick.kind position = questionId flag.kind position

theorem mem_of_offer? {question : Question} {id : String} {offer : Offer}
    (found : question.offer? id = some offer) : offer ∈ question.offers ∧ offer.id = id := by
  have named := List.find?_some found
  rw [beq_iff_eq] at named
  exact ⟨List.mem_of_find?_eq_some found, named⟩

theorem exists_isFor (asked : ask flags subject = .ok questions) (mem : pair.1 ∈ questions)
    (sameId : pair.1.id = pick.answer.1) (offered : pair.1.offer? pick.option = some pair.2) :
    ∃ flag, pick.IsFor flags subject pair flag := by
  rcases exists_flag_of_mem_ask asked mem with ⟨flag, position, placed, askedOne⟩
  have ids : questionId flag.kind position = questionId pick.kind pick.position :=
    (isAbout_of_askOne askedOne).id_eq.symm.trans sameId
  have here := questionId_injective ids
  subst here
  exact ⟨flag, placed, askedOne, offered, questionId_congr ids.symm⟩

/-- Answering one question that is asked about a design changes the layers for its flag, and takes
the flag from those that are left. -/
theorem Intent.settle_single (few : current.ambiguities.length ≤ 10 ^ Text.digitLimit)
    (asked : ask current.ambiguities subject = .ok questions)
    (isFor : pick.IsFor current.ambiguities subject pair flag) :
    current.settle [pick.answer] questions =
      (Settle.change current.layers pair.1 pair.2 (some flag)).map fun layers =>
        { current with
          layers := layers
          ambiguities := Settle.remaining current.ambiguities [pick.position]
          confidence := Settle.raised current.confidence 1 } := by
  have apart := (ids_of_ask asked).2
  have about := isAbout_of_askOne isFor.asked
  have sameId : pair.1.id = pick.answer.1 := about.id_eq.trans (isFor.sameId _).symm
  rcases exists_askOne asked isFor.placed with ⟨question, mem, askedOne⟩
  have isPair : question = pair.1 := Except.ok.inj (askedOne.symm.trans isFor.asked)
  subst isPair
  have arePicks : ArePicks questions [pick] :=
    ⟨[pair.1], List.singleton_sublist.mpr mem,
      .cons ⟨sameId, pair.2, mem_of_offer? isFor.offered⟩ .nil⟩
  have isGiven : Settle.given [pick.answer] questions = [pair] := by
    obtain ⟨inside, each⟩ := given_of_arePicks apart arePicks
    rw [List.map_singleton] at inside each
    generalize Settle.given [pick.answer] questions = pairs at inside each
    cases each with
    | @cons other _ _ _ first rest =>
        cases rest
        rw [List.map_singleton, List.singleton_sublist] at inside
        have sameQuestion : other.1 = pair.1 :=
          List.inj_on_of_nodup_map apart inside mem (first.1.trans sameId.symm)
        have sameOffer : other.2 = pair.2 := by
          rw [sameQuestion, isFor.offered] at first
          exact (Option.some.inj first.2).symm
        rw [Prod.ext sameQuestion sameOffer]
  rw [settle, Settle.foldlM_applyOne, isGiven, List.foldlM_cons,
    Settle.applyOffer_of_isAbout about isFor.placed few List.not_mem_nil]
  cases Settle.change current.layers pair.1 pair.2 (some flag) <;> rfl

/-- Asked anew, the question about a flag that is still open means what it meant. -/
theorem Pick.IsFor.without (isFor : pick.IsFor flags subject pair flag)
    (isOpen : pick.position ∉ gone) (left : current.ambiguities = Settle.remaining flags gone)
    (asked : ask current.ambiguities ⟨current, subject.roofline, settings⟩ = .ok questions) :
    ∃ same, (pick.without gone).IsFor current.ambiguities ⟨current, subject.roofline, settings⟩
        same flag ∧
      pair.1.Alike same.1 ∧ pair.2.Alike same.2 := by
  have placed : current.ambiguities[(pick.without gone).position]? = some flag :=
    left ▸ Settle.getElem?_remaining isFor.placed isOpen
  rcases exists_askOne asked placed with ⟨question, -, askedOne⟩
  have sameStrip : subject.roofline = (Subject.mk current subject.roofline settings).roofline := rfl
  have alike := askOne_alike sameStrip (.refl flag) isFor.asked askedOne
  have options : Option.Rel Offer.Alike (pair.1.offer? pick.option) (question.offer? pick.option) :=
    Settle.offerFor?_alike alike (.chosen pick.option)
  rw [isFor.offered] at options
  generalize isOffer : question.offer? pick.option = found at options
  cases options with
  | some meansSame =>
      exact ⟨(question, _), ⟨placed, askedOne, isOffer, isFor.sameId⟩, alike, meansSame⟩

/-- When it is a pick's turn, its option changes the layers as it would have to begin with, and its
flag goes. -/
theorem Intent.settle_without (few : flags.length ≤ 10 ^ Text.digitLimit)
    (isFor : pick.IsFor flags subject pair flag) (isOpen : pick.position ∉ gone)
    (left : current.ambiguities = Settle.remaining flags gone)
    (asked : ask current.ambiguities ⟨current, subject.roofline, settings⟩ = .ok questions) :
    current.settle [(pick.without gone).answer] questions =
      (Settle.change current.layers pair.1 pair.2 (some flag)).map fun layers =>
        { current with
          layers := layers
          ambiguities := Settle.remaining flags (pick.position :: gone)
          confidence := Settle.raised current.confidence 1 } := by
  rcases isFor.without isOpen left asked with ⟨same, isForSame, alike, meansSame⟩
  have fewer : current.ambiguities.length ≤ 10 ^ Text.digitLimit := by
    have cut : (Settle.remaining flags gone).length ≤ flags.length := by
      rw [Settle.remaining, List.length_map]
      exact (List.length_filter_le _ _).trans_eq List.length_zipIdx
    rw [left]
    exact cut.trans few
  have settles : pair.1.kind.settlesFlags = true := by
    rw [(isAbout_of_askOne isFor.asked).kind_eq]
    exact Settle.settlesFlags_question flag.kind
  have changed := Settle.change_alike alike.kind_eq alike.layerId_eq settles meansSame
    (.some (.refl flag)) current.layers
  have oneLess : Settle.remaining current.ambiguities [(pick.without gone).position] =
      Settle.remaining flags (pick.position :: gone) := by
    rw [left]
    exact Settle.remaining_remaining isFor.placed isOpen
  rw [settle_single fewer asked isForSame, changed, oneLess]

/-! ## All picks -/

variable {pairs : List (Question × Offer)} {picks : List Pick}

/-- Picks for different questions are for flags at different positions. -/
theorem nodup_positions
    (each : List.Forall₂ (fun pair pick => ∃ flag, Pick.IsFor flags subject pair pick flag)
      pairs picks)
    (apart : (pairs.map Prod.fst).Nodup) : (picks.map Pick.position).Nodup := by
  induction each with
  | nil => exact List.nodup_nil
  | @cons pair pick pairs picks first rest ih =>
      rw [List.map_cons, List.nodup_cons] at apart ⊢
      refine ⟨?_, ih apart.2⟩
      intro samePlace
      rcases List.mem_map.mp samePlace with ⟨other, otherMem, isSame⟩
      rcases exists_partner rest.flip otherMem with ⟨otherPair, together, otherFlag, otherFor⟩
      rcases first with ⟨flag, isFor⟩
      have placed := otherFor.placed
      rw [isSame, isFor.placed, Option.some.injEq] at placed
      have asked := otherFor.asked
      rw [isSame, ← placed, isFor.asked, Except.ok.injEq] at asked
      apply apart.1
      rw [asked]
      exact List.mem_map_of_mem (List.of_mem_zip together).2

/-- As long as questions can be asked, picks that come one after another lead to what their options
lead to when they are applied together, from wherever some of them have led. -/
theorem settleInTurn_eq_foldlM (few : flags.length ≤ 10 ^ Text.digitLimit)
    (each : List.Forall₂ (fun pair pick => ∃ flag, Pick.IsFor flags subject pair pick flag)
      pairs picks)
    (apart : (picks.map Pick.position).Nodup) (areOpen : ∀ pick ∈ picks, pick.position ∉ gone)
    (left : current.ambiguities = Settle.remaining flags gone)
    (asks : current.AsksInTurn subject.roofline settings gone picks) :
    (current.settleInTurn subject.roofline settings gone picks).map Intent.decided =
      (pairs.foldlM (fun progress pair => Settle.applyOffer flags progress pair.1 pair.2)
        ⟨current.layers, current.settings, gone⟩).map fun done =>
          (done.layers, Settle.remaining flags done.settled, done.settings) := by
  induction each generalizing current gone with
  | nil =>
      have same : current.decided =
          (current.layers, Settle.remaining flags gone, current.settings) := by
        rw [Intent.decided, left]
      exact congrArg Except.ok same
  | @cons pair pick pairs picks first rest ih =>
      rcases first with ⟨flag, isFor⟩
      rcases asks with ⟨questions, asked, asksNext⟩
      rw [List.map_cons, List.nodup_cons] at apart
      have isOpen := areOpen pick List.mem_cons_self
      have turn := Intent.settle_without few isFor isOpen left asked
      rw [turn] at asksNext
      rw [Intent.settleInTurn, Intent.settleOne, asked, ok_bind, turn, List.foldlM_cons,
        Settle.applyOffer_of_isAbout (isAbout_of_askOne isFor.asked) isFor.placed few isOpen]
      cases changed : Settle.change current.layers pair.1 pair.2 (some flag) with
      | error failure => rfl
      | ok layers =>
          refine ih apart.2 ?_ rfl (asksNext _ (by rw [changed]; rfl))
          intro other mem gone
          rcases List.mem_cons.mp gone with here | earlier
          · exact apart.1 (here ▸ List.mem_map_of_mem mem)
          · exact areOpen other (List.mem_cons_of_mem _ mem) earlier

end Turn

/-! ## When questions can be asked anew -/

section Anew

variable {roofline : Option Roofline} {settings : CheckSettings} {intent : Intent}

/-- Questions can be asked at every turn if they can be asked about every design with some property
that answers keep. -/
theorem Intent.asksInTurn_of_keeps (Holds : Intent → Prop)
    (asks : ∀ intent, Holds intent →
      ∃ questions, ask intent.ambiguities ⟨intent, roofline, settings⟩ = .ok questions)
    (keeps : ∀ intent questions pick next, Holds intent →
      ask intent.ambiguities ⟨intent, roofline, settings⟩ = .ok questions →
      intent.settle [Pick.answer pick] questions = .ok next → Holds next)
    (holds : Holds intent) (gone : List Nat) (picks : List Pick) :
    intent.AsksInTurn roofline settings gone picks := by
  induction picks generalizing intent gone with
  | nil => trivial
  | cons pick rest ih =>
      rcases asks intent holds with ⟨questions, asked⟩
      exact ⟨questions, asked, fun next settles => ih (keeps _ _ _ _ holds asked settles) _⟩

/-- Whether a rule can be painted does not depend on colours. -/
theorem Spacing.exists_paint_of_paint {rule : Spacing} {canvas painted : Canvas}
    {range : PixelRange} {coloring : Coloring} {roofline : Option Roofline}
    (paints : rule.paint Number.Binary64 canvas range coloring roofline = .ok painted)
    (other : Coloring) :
    ∃ canvas', rule.paint Number.Binary64 canvas range other roofline = .ok canvas' := by
  unfold paint at paints ⊢
  cases rule with
  | pattern on off startLit =>
      dsimp only
      split <;> exact ⟨_, rfl⟩
  | equallySpaced count =>
      dsimp only at paints ⊢
      split at paints
      · rename_i none
        rw [if_pos none]
        exact ⟨_, rfl⟩
      · rename_i some
        rcases map_eq_ok_iff.mp paints with ⟨offsets, spread, -⟩
        rw [if_neg some, spread]
        exact ⟨_, rfl⟩
  | everyNth interval =>
      dsimp only
      split <;> exact ⟨_, rfl⟩
  | anchorsOnly => exact ⟨_, rfl⟩
  | continuous => exact ⟨_, rfl⟩

/-- Whether a choice can be shown does not depend on colours or brightness. -/
theorem exists_spacingOffer {coloring : Coloring} {n brightness : Int} {choice : Choice}
    {offer : Offer} (shown : spacingOffer coloring n brightness choice = .ok offer)
    (other : Coloring) (level : Int) : ∃ shown, spacingOffer other n level choice = .ok shown := by
  unfold spacingOffer at shown ⊢
  dsimp only at shown ⊢
  split at shown
  · rename_i rule isRule
    rcases bind_eq_ok_iff.mp shown with ⟨payload, rendered, -⟩
    suffices ∃ payload, Preview.ofSpacing rule other n level = .ok payload by
      rcases this with ⟨payload, rendered⟩
      rw [rendered, ok_bind]
      exact ⟨_, rfl⟩
    unfold Preview.ofSpacing at rendered ⊢
    split
    · exact ⟨_, rfl⟩
    · rename_i lit
      rw [if_neg lit] at rendered
      rcases bind_eq_ok_iff.mp rendered with ⟨canvas, painted, -⟩
      rcases Spacing.exists_paint_of_paint painted other with ⟨canvas', paintedToo⟩
      rw [paintedToo, ok_bind]
      exact ⟨_, rfl⟩
  · exact ⟨_, rfl⟩

/-- Without a roofline, whether a flag can be asked about does not depend on the design. -/
theorem Ambiguity.IsAskable.of_none {flag : Ambiguity}
    (askable : flag.IsAskable ⟨intent, none, settings⟩) (other : Intent) :
    flag.IsAskable ⟨other, none, settings⟩ := by
  rcases askable with ⟨worded, n, isWorded, -⟩
  have counted : ∀ intent : Intent, Subject.pixelCount ⟨intent, none, settings⟩ flag.layerId =
      .ok Preview.assumedPixels := fun _ => rfl
  suffices ∃ worded, wordingAndOffers ⟨other, none, settings⟩ flag = .ok worded by
    rcases this with ⟨worded, isWorded⟩
    exact ⟨worded, _, isWorded, counted other⟩
  unfold wordingAndOffers at isWorded ⊢
  generalize flag.kind = kind at isWorded ⊢
  cases kind with
  | zone => exact ⟨_, rfl⟩
  | color => exact ⟨_, rfl⟩
  | spacingImpossible =>
      dsimp only at isWorded ⊢
      rw [spacingOffers, counted, ok_bind] at isWorded ⊢
      rcases map_eq_ok_iff.mp isWorded with ⟨offers, offered, -⟩
      rcases bind_eq_ok_iff.mp offered with ⟨own, shown, -⟩
      obtain ⟨others, shownToo⟩ := mapM_succeeds fun choice (mem : choice ∈ flag.choices) => by
        rcases exists_partner (mapM_eq_ok_iff.mp shown) mem with ⟨offer, -, isShown⟩
        exact exists_spacingOffer isShown
          (((other.layer? flag.layerId).map Layer.coloring).getD {})
          (Subject.brightness ⟨other, none, settings⟩)
      dsimp only
      rw [shownToo, ok_bind]
      exact ⟨_, rfl⟩
  | direction => exact ⟨_, rfl⟩
  | conflict => exact ⟨_, rfl⟩
  | effect => exact ⟨_, rfl⟩

/-- Without a roofline, questions that can be asked at all can be asked at every turn. -/
theorem Intent.asksInTurn_none {questions : List Question}
    (asked : ask intent.ambiguities ⟨intent, none, settings⟩ = .ok questions) (gone : List Nat)
    (picks : List Pick) : intent.AsksInTurn none settings gone picks := by
  refine asksInTurn_of_keeps
    (fun intent => ∀ flag ∈ intent.ambiguities, flag.IsAskable ⟨intent, none, settings⟩)
    (fun _ => exists_ask_iff.mpr) ?_ (exists_ask_iff.mp ⟨questions, asked⟩) gone picks
  intro intent questions pick next askable _ settles flag mem
  exact (askable flag ((ambiguities_settle_sublist settles).subset mem)).of_none next

/-- Within bounds, questions can be asked at every turn. -/
theorem Intent.asksInTurn_of_isWithin {strip : Roofline} (small : strip.total < 2 ^ 53)
    (shares : settings.HasShares) (within : intent.IsWithin (2 ^ 120)) (gone : List Nat)
    (picks : List Pick) : intent.AsksInTurn (some strip) settings gone picks := by
  refine asksInTurn_of_keeps (Intent.IsWithin (2 ^ 120))
    (fun intent within => ask_succeeds within.zones small shares within.flags) ?_ within gone picks
  intro intent questions pick next within asked settles
  refine Session.isWithin_settle within ?_ settles
  refine Session.bringsListed_of_chosen? within.flags asked ?_
  intro answer mem own isOwn
  rw [List.mem_singleton.mp mem] at isOwn
  cases isOwn

end Anew

/-! ## Batches -/

namespace Intent

variable {intent : Intent} {roofline : Option Roofline} {settings : CheckSettings}
  {questions : List Question} {picks : List Pick}

/-- Some of the questions about a design are answered, each by an option that it offers.  Applied
together, the answers lead to the same layers, flags and settings as one after another, in the order
of asking, with the questions asked anew before each and the answer given to the question about the
same flag; or both fail for the same reason.  This holds as long as the questions can be asked anew:
without a roofline they always can, and with one within bounds.  There must not be more flags than
positions that an id of a question can be read back to. -/
theorem batch_decides_as_in_turn
    (asked : ask intent.ambiguities ⟨intent, roofline, settings⟩ = .ok questions)
    (few : intent.ambiguities.length ≤ 10 ^ Text.digitLimit) (arePicks : ArePicks questions picks) :
    (intent.AsksInTurn roofline settings [] picks →
      (intent.settleInTurn roofline settings [] picks).map decided =
        (intent.settle (picks.map Pick.answer) questions).map decided) ∧
    (roofline = none → intent.AsksInTurn roofline settings [] picks) ∧
    ∀ strip, roofline = some strip → strip.total < 2 ^ 53 → settings.HasShares →
      intent.IsWithin (2 ^ 120) → intent.AsksInTurn roofline settings [] picks := by
  refine ⟨fun asks => ?_, ?_, ?_⟩
  · rcases ids_of_ask asked with ⟨-, idsApart⟩
    rcases given_of_arePicks idsApart arePicks with ⟨inside, areGiven⟩
    have each : List.Forall₂ (fun pair pick =>
        ∃ flag, pick.IsFor intent.ambiguities ⟨intent, roofline, settings⟩ pair flag)
        (Settle.given (picks.map Pick.answer) questions) picks := by
      rw [List.forall₂_iff_zip] at areGiven ⊢
      refine ⟨areGiven.1, fun {pair pick} together => ?_⟩
      rcases areGiven.2 together with ⟨sameId, offered⟩
      have mem := inside.subset (List.mem_map_of_mem (List.of_mem_zip together).1)
      exact exists_isFor asked mem sameId offered
    have apart := nodup_positions each ((List.Nodup.of_map _ idsApart).sublist inside)
    have nothingGone : intent.ambiguities = Settle.remaining intent.ambiguities [] :=
      (Settle.kept_nil 0 intent.ambiguities).symm
    rw [settleInTurn_eq_foldlM few each apart (fun _ _ => List.not_mem_nil) nothingGone asks,
      settle, Settle.foldlM_applyOne]
    cases (Settle.given (picks.map Pick.answer) questions).foldlM
      (fun progress pair => Settle.applyOffer intent.ambiguities progress pair.1 pair.2)
      ⟨intent.layers, intent.settings, []⟩ <;> rfl
  · rintro rfl
    exact asksInTurn_none asked [] picks
  · rintro strip rfl small shares within
    exact asksInTurn_of_isWithin small shares within [] picks

/-- Three of four flags, the second direction among them. -/
def threePicks : List Pick :=
  [⟨.zone, 1, "all"⟩, ⟨.direction, 2, "inward"⟩, ⟨.effect, 3, "wave"⟩]

/-- The direction that is answered is the third flag to begin with, and the second one when it is
its turn. -/
theorem batch_decides_as_in_turn_threePicks :
    ∃ questions, ask fourFlags.ambiguities ⟨fourFlags, none, wholeSettings⟩ = .ok questions ∧
      fourFlags.ambiguities.length ≤ 10 ^ Text.digitLimit ∧ ArePicks questions threePicks ∧
      fourFlags.AsksInTurn none wholeSettings [] threePicks ∧
      (fourFlags.settleInTurn none wholeSettings [] threePicks).map decided =
        (fourFlags.settle (threePicks.map Pick.answer) questions).map decided := by
  have evaluated : ((ask fourFlags.ambiguities ⟨fourFlags, none, wholeSettings⟩).map
      (List.map fun question => (question.id, question.offers.map Offer.id))).toOption =
        some [("zone_1", ["all"]),
          ("direction_0", ["left_to_right", "right_to_left", "inward", "outward"]),
          ("direction_2", ["left_to_right", "right_to_left", "inward", "outward"]),
          ("effect_3", ["chase", "wave", "twinkle", "pulse"])] := by
    rw [ask_eq_insertionSort]
    decide +kernel
  rcases exists_ok_of_toOption evaluated with ⟨questions, asked, view⟩
  have count : questions.length = 4 := by
    rw [← List.length_map (fun question : Question => (question.id, question.offers.map Offer.id)),
      view]
    rfl
  obtain ⟨zone, first, second, effect, rfl⟩ := List.length_eq_four.mp count
  simp only [List.map_cons, List.map_nil, List.cons.injEq, Prod.mk.injEq, and_true] at view
  obtain ⟨⟨zoneId, zones⟩, -, ⟨secondId, directions⟩, effectId, effects⟩ := view
  have few : fourFlags.ambiguities.length ≤ 10 ^ Text.digitLimit :=
    (by decide : 4 ≤ 10).trans (Nat.le_self_pow (by decide) 10)
  have picked : ArePicks [zone, first, second, effect] threePicks := by
    refine ⟨[zone, second, effect], ?_, .cons ⟨zoneId, ?_⟩ (.cons ⟨secondId, ?_⟩
      (.cons ⟨effectId, ?_⟩ .nil))⟩
    · exact .cons_cons _ (.cons _ (.cons_cons _ (.cons_cons _ .slnil)))
    · exact List.mem_map.mp (by rw [zones]; decide)
    · exact List.mem_map.mp (by rw [directions]; decide)
    · exact List.mem_map.mp (by rw [effects]; decide)
  obtain ⟨together, anew, -⟩ := batch_decides_as_in_turn asked few picked
  exact ⟨_, asked, few, picked, anew rfl, together (anew rfl)⟩

/-! ## A strip too long to ask anew -/

/-- A chase on the whole strip, which may be meant for the front only, and which may go either
way. -/
def openChase : Intent where
  layers := [{ id := "layer_0", name := "red", motion := some { kind := .chase } }]
  ambiguities := [
    { kind := .zone, description := "", sourceClause := "", layerId := some "layer_0",
      choices := [{ id := "front_only", label := "Front", value := .zone (.side .front) }] },
    { kind := .direction, description := "", sourceClause := "", layerId := some "layer_0" }]

/-- The front only, and from right to left. -/
def frontLeftwards : List Pick :=
  [⟨.zone, 0, "front_only"⟩, ⟨.direction, 1, "right_to_left"⟩]

/-- Both picks together and one after the other: what is asked to begin with, the design after both
answers and after the first one, and why nothing can be asked about that one. -/
structure ChaseTrial where
  questions : List Question
  batch : Intent
  next : Intent
  refusal : Option Failure

def chaseTrial : Outcome ChaseTrial := do
  let questions ← askFrom ⟨openChase, some longRun, {}⟩ 0 openChase.ambiguities
  let batch ← openChase.settle (frontLeftwards.map Pick.answer) questions
  let next ← openChase.settle [(questionId .zone 0, .chosen "front_only")] questions
  let refusal := failure? (askFrom ⟨next, some longRun, {}⟩ 0 next.ambiguities)
  return { questions, batch, next, refusal }

/-- What is seen of the two ways. -/
def ChaseTrial.view (trial : ChaseTrial) :
    List (String × Nat × List String) × Nat × Option Failure :=
  (trial.questions.map fun question =>
      (question.id, question.kind.priority, question.offers.map Offer.id),
    trial.batch.ambiguities.length, trial.refusal)

theorem view_chaseTrial : (chaseTrial.map ChaseTrial.view).toOption = some
    ([("zone_0", 0, ["front_only", "runs", "all"]),
      ("direction_1", 3, ["left_to_right", "right_to_left", "inward", "outward"])], 0,
      some (.number .integerTooLarge)) := by
  decide +kernel

/-- Nothing is in front, so how many lights that is is a share of all, which cannot be counted: the
answers can be given together, but after the first one nothing can be asked about the second. -/
theorem batch_decides_where_turns_fail :
    ∃ questions settled,
      ask openChase.ambiguities ⟨openChase, some longRun, {}⟩ = .ok questions ∧
        ArePicks questions frontLeftwards ∧
        openChase.settle (frontLeftwards.map Pick.answer) questions = .ok settled ∧
        settled.ambiguities = [] ∧
        openChase.settleInTurn (some longRun) {} [] frontLeftwards =
          .error (.number .integerTooLarge) := by
  obtain ⟨trial, isTrial, view⟩ := exists_ok_of_toOption view_chaseTrial
  rcases bind_eq_ok_iff.mp isTrial with ⟨questions, askedFrom, rest⟩
  rcases bind_eq_ok_iff.mp rest with ⟨batch, settles, rest⟩
  rcases bind_eq_ok_iff.mp rest with ⟨next, turns, shape⟩
  rw [pure_eq_ok_iff] at shape
  subst shape
  simp only [ChaseTrial.view, Prod.mk.injEq] at view
  rcases view with ⟨seen, nothingLeft, refused⟩
  have count : questions.length = 2 := by
    rw [← List.length_map (fun question : Question =>
      (question.id, question.kind.priority, question.offers.map Offer.id)), seen]
    rfl
  obtain ⟨zone, direction, rfl⟩ := List.length_eq_two.mp count
  simp only [List.map_cons, List.map_nil, List.cons.injEq, Prod.mk.injEq, and_true] at seen
  obtain ⟨⟨zoneId, zoneFirst, zones⟩, directionId, directionNext, directions⟩ := seen
  have asked : ask openChase.ambiguities ⟨openChase, some longRun, {}⟩ =
      .ok [zone, direction] := by
    apply ask_of_askFrom askedFrom
    simp [zoneFirst, directionNext]
  have picked : ArePicks [zone, direction] frontLeftwards := by
    refine ⟨_, .refl _, .cons ⟨zoneId, ?_⟩ (.cons ⟨directionId, ?_⟩ .nil)⟩
    · exact List.mem_map.mp (by rw [zones]; decide)
    · exact List.mem_map.mp (by rw [directions]; decide)
  have unasked : ask next.ambiguities ⟨next, some longRun, {}⟩ =
      .error (.number .integerTooLarge) := ask_eq_error refused
  have firstTurn : openChase.settleOne (some longRun) {}
      ((⟨.zone, 0, "front_only"⟩ : Pick).without []) = .ok next := by
    rw [settleOne, asked]
    exact turns
  refine ⟨_, batch, asked, picked, settles, List.length_eq_zero_iff.mp nothingLeft, ?_⟩
  rw [frontLeftwards, settleInTurn, firstTurn, ok_bind, settleInTurn, settleOne, unasked]
  rfl

end Intent

end Eaves
