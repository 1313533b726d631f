import Eaves.Proofs.Design.Conflicts
import Eaves.Proofs.Pixels.Composition
import Eaves.Proofs.Session.Rounds

/-!
# Conflicts answered by a ranking

A ranking of the layers says for every conflict which of its two layers is to win.  Each
answer lifts the winner above the loser as the two stand when it is applied, and nothing
ever lowers a layer.  So the winner of a pair ends above the loser unless the loser is
lifted afterwards: the pairs are asked about in the order of their positions, and a
layer that has lost may still win a later one.
-/

namespace Eaves

open Outcome

/-! ## Pairs and rankings -/

/-- The layers at two positions, of whichever order, conflict. -/
def Clash (layers : List Layer) (a b : Nat) : Prop :=
  ConflictAt layers (min a b) (max a b)

/-- The conflict of one pair is asked about before that of another. -/
def AskedBefore (pair other : Nat × Nat) : Prop :=
  min pair.1 pair.2 < min other.1 other.2 ∨
    min pair.1 pair.2 = min other.1 other.2 ∧ max pair.1 pair.2 < max other.1 other.2

/-- A question offers the option that lets the layer at a position win. -/
def Question.LetsWin (question : Question) (position : Nat) : Prop :=
  winnerId position ∈ question.offers.map Offer.id

/-- Every conflict question gets the option that lets the layer win which a ranking puts above
the other one. -/
def Answers.FollowRanking (answers : Answers) (questions : List Question)
    (beats : Nat → Nat → Prop) : Prop :=
  ∀ question ∈ questions, question.kind = .conflict → ∀ winner loser,
    question.LetsWin winner → question.LetsWin loser → beats winner loser →
      (Settle.chosen? answers question).map Offer.id = some (winnerId winner)

/-- The question about a conflict offers to let either layer win. -/
theorem letsWin_of_askOne {subject : Subject} {position : Nat} {flag : Ambiguity}
    {question : Question} (asked : askOne subject position flag = .ok question) {i j : Nat}
    (between : flag.IsBetween i j) : question.LetsWin i ∧ question.LetsWin j := by
  rcases between with ⟨first, second, rfl⟩
  rcases askOne_eq_ok_iff.mp asked with ⟨wording, offers, n, worded, -, rfl⟩
  cases worded
  simp [Question.LetsWin, conflictOffers, conflictFlag, Offer.withLast, Offer.ofChoice, blendBoth,
    maxOptions, winnerId_ne_merge, winnerId_ne_blend]

/-- A conflict is between the layers of its pair. -/
theorem eq_of_contenders {flag : Ambiguity} {i j : Nat} (between : flag.IsBetween i j)
    {involved : List Int} (read : contenders flag = .ok involved) :
    involved = [(i : Int), (j : Int)] := by
  rcases between with ⟨first, second, rfl⟩
  rcases bind_eq_ok_iff.mp read with ⟨winners, readAll, shape⟩
  rw [pure_eq_ok_iff] at shape
  rw [mapM_eq_ok_iff, conflictFlag] at readAll
  cases readAll with
  | cons readFirst readOthers =>
      cases readOthers with
      | cons readSecond readRest =>
          cases readRest with
          | cons readBlend readNone =>
              cases readNone
              rw [eq_of_winner?_winnerId readFirst, eq_of_winner?_winnerId readSecond,
                ← Except.ok.inj (winner?_blend.symm.trans readBlend)] at shape
              exact shape.symm

/-- The option that lets one layer of a pair win lifts it above the other. -/
theorem chooseWinner_eq_ok {layers changed : List Layer} {affected : Int} {offer : Offer}
    {flag : Ambiguity} {winner loser : Nat} (apart : winner ≠ loser)
    (between : flag.IsBetween (min winner loser) (max winner loser))
    (wins : offer.id = winnerId winner) {low : Layer} (there : layers[loser]? = some low)
    (chosen : chooseWinner layers affected offer (some flag) = .ok changed) :
    changed = liftTo layers winner (low.priority + 1) := by
  have noBlend : ¬(offer.id == "merge" || offer.id == "blend") = true := by
    simp [wins, winnerId_ne_merge, winnerId_ne_blend]
  rw [chooseWinner, if_neg noBlend] at chosen
  rcases bind_eq_ok_iff.mp chosen with ⟨found, read, rest⟩
  rw [wins] at read
  rw [eq_of_winner?_winnerId read] at rest
  rcases bind_eq_ok_iff.mp rest with ⟨involved, readInvolved, shape⟩
  rw [pure_eq_ok_iff, eq_of_contenders between readInvolved] at shape
  subst shape
  have losers : ([((min winner loser : Nat) : Int), ((max winner loser : Nat) : Int)].filter
      fun k => k != (winner : Int) && decide (0 ≤ k)) = [(loser : Int)] := by
    rcases Nat.lt_or_gt_of_ne apart with lower | higher
    · simp [Nat.min_eq_left lower.le, Nat.max_eq_right lower.le, apart.symm]
    · simp [Nat.min_eq_right higher.le, Nat.max_eq_left higher.le, apart.symm]
  simp only [letWin, losers]
  simp [there, highest]

/-! ## Layers above others -/

/-- The layer at one position has a higher priority than the layer at another. -/
def IsAbove (layers : List Layer) (high low : Nat) : Prop :=
  ∃ above below, layers[high]? = some above ∧ layers[low]? = some below ∧
    below.priority < above.priority

theorem getElem?_liftTo (layers : List Layer) (position : Nat) (priority : Int) (k : Nat) :
    (liftTo layers position priority)[k]? =
      if position = k then
        layers[k]?.map fun layer => { layer with priority := max layer.priority priority }
      else layers[k]? := by
  rw [liftTo, List.getElem?_modify]
  split <;> simp

/-- A layer that is lifted above another stands above it. -/
theorem isAbove_liftTo {layers : List Layer} {high low : Nat} (apart : high ≠ low)
    {above below : Layer} (isHigh : layers[high]? = some above)
    (isLow : layers[low]? = some below) :
    IsAbove (liftTo layers high (below.priority + 1)) high low := by
  refine ⟨{ above with priority := max above.priority (below.priority + 1) }, below, ?_, ?_, ?_⟩
  · rw [getElem?_liftTo, if_pos rfl, isHigh]
    rfl
  · rw [getElem?_liftTo, if_neg apart, isLow]
  · exact Int.lt_of_lt_of_le (Int.lt_succ _) (Int.le_max_right _ _)

/-- Lifting a layer keeps what it is not the lower one of. -/
theorem IsAbove.liftTo {layers : List Layer} {high low : Nat} (isAbove : IsAbove layers high low)
    {position : Nat} (spared : position ≠ low) (priority : Int) :
    IsAbove (liftTo layers position priority) high low := by
  rcases isAbove with ⟨above, below, isHigh, isLow, higher⟩
  by_cases here : position = high
  · refine ⟨{ above with priority := max above.priority priority }, below, ?_, ?_, ?_⟩
    · rw [getElem?_liftTo, if_pos here, isHigh]
      rfl
    · rw [getElem?_liftTo, if_neg spared, isLow]
    · exact Int.lt_of_lt_of_le higher (Int.le_max_left _ _)
  · refine ⟨above, below, ?_, ?_, higher⟩
    · rw [getElem?_liftTo, if_neg here, isHigh]
    · rw [getElem?_liftTo, if_neg spared, isLow]

/-- Putting a layer of the same priority in place of another changes nothing about which is
above which. -/
theorem IsAbove.set {layers : List Layer} {high low position : Nat}
    (isAbove : IsAbove layers high low) {layer next : Layer}
    (there : layers[position]? = some layer) (same : next.priority = layer.priority) :
    IsAbove (layers.set position next) high low := by
  have kept : ∀ (k : Nat) (own : Layer), layers[k]? = some own →
      ∃ after, (layers.set position next)[k]? = some after ∧ after.priority = own.priority := by
    intro k own isOwn
    rw [List.getElem?_set]
    split
    · rename_i here
      subst here
      rw [there] at isOwn
      cases isOwn
      rw [if_pos (List.getElem?_eq_some_iff.mp there).1]
      exact ⟨next, rfl, same⟩
    · exact ⟨own, isOwn, rfl⟩
  rcases isAbove with ⟨above, below, isHigh, isLow, higher⟩
  obtain ⟨above', isHigh', sameHigh⟩ := kept high above isHigh
  obtain ⟨below', isLow', sameLow⟩ := kept low below isLow
  exact ⟨above', below', isHigh', isLow', by rw [sameHigh, sameLow]; exact higher⟩

/-! ## One answer -/

/-- Answers by a ranking give a conflict question the option that lets the winner of its pair
win; whatever else they choose brings in listed zones only. -/
structure IsRanked (layers : List Layer) (beats : Nat → Nat → Prop) (answers : Answers)
    (asked : Question × (Ambiguity × Nat)) : Prop where
  about : asked.1.IsAbout asked.2
  listed : ∀ offer, Settle.chosen? answers asked.1 = some offer →
    Settle.BringsListed asked.1 offer
  exists_winner : asked.1.kind = .conflict → ∃ winner loser offer, beats winner loser ∧
    winner ≠ loser ∧ asked.2.1.IsConflict layers (min winner loser) (max winner loser) ∧
    Settle.chosen? answers asked.1 = some offer ∧ offer.id = winnerId winner

namespace IsRanked

variable {layers before after : List Layer} {beats : Nat → Nat → Prop} {answers : Answers}
  {asked : Question × (Ambiguity × Nat)}

/-- The answer to a conflict question lifts the winner of the pair above the loser. -/
theorem exists_lift (ranked : IsRanked layers beats answers asked)
    (follow : LayersFollow layers before)
    (changed : Settle.changeFor answers before asked = .ok after)
    (isConflict : asked.1.kind = .conflict) :
    ∃ winner loser low, beats winner loser ∧ winner ≠ loser ∧
      asked.2.1.IsConflict layers (min winner loser) (max winner loser) ∧
      before[loser]? = some low ∧ after = liftTo before winner (low.priority + 1) := by
  obtain ⟨winner, loser, offer, wins, apart, conflicts, isChosen, names⟩ :=
    ranked.exists_winner isConflict
  rcases conflicts with ⟨first, second, ordered, isFirst, isSecond, differ, isFlag⟩
  have inside : loser < before.length := by
    have := (List.getElem?_eq_some_iff.mp isSecond).1
    rw [follow.length_eq] at this
    omega
  refine ⟨winner, loser, before[loser], wins, apart,
    ⟨first, second, ordered, isFirst, isSecond, differ, isFlag⟩,
    List.getElem?_eq_getElem inside, ?_⟩
  rw [Settle.changeFor, isChosen] at changed
  cases Settle.changes_of_change changed with
  | unnamed noLayer =>
      -- the second layer of the pair is there, under the id it always had
      have present : second.id ∈ before.map Layer.id :=
        follow.map_id ▸ List.mem_map_of_mem (List.mem_of_getElem? isSecond)
      rcases List.mem_map.mp present with ⟨layer, layerMem, sameId⟩
      have named : asked.1.layerId = some second.id := by
        rw [ranked.about.layerId_eq, isFlag]
        rfl
      exact absurd (named ▸ congrArg some sameId) (noLayer layer layerMem)
  | idle settlesNone =>
      rw [isConflict] at settlesNone
      cases settlesNone
  | layer _ _ chooses =>
      rw [isConflict] at chooses
      cases chooses
  | conflict _ chosen =>
      exact chooseWinner_eq_ok apart ⟨first, second, isFlag⟩ names
        (List.getElem?_eq_getElem inside) chosen

/-- An answer that does not lift the lower of two layers keeps the other above it. -/
theorem isAbove (ranked : IsRanked layers beats answers asked)
    (follow : LayersFollow layers before)
    (changed : Settle.changeFor answers before asked = .ok after) {high low : Nat}
    (above : IsAbove before high low)
    (spared : ∀ other, beats low other →
      ¬asked.2.1.IsConflict layers (min low other) (max low other)) :
    IsAbove after high low := by
  by_cases isConflict : asked.1.kind = .conflict
  · obtain ⟨winner, loser, below, wins, -, conflicts, -, rfl⟩ :=
      ranked.exists_lift follow changed isConflict
    apply above.liftTo
    rintro rfl
    exact spared loser wins conflicts
  · unfold Settle.changeFor at changed
    split at changed
    · cases Settle.changes_of_change changed with
      | unnamed => exact above
      | idle => exact above
      | layer there _ chooses => exact above.set there chooses.keeps.2
      | conflict other _ => exact absurd other isConflict
    · cases changed
      exact above

theorem layersFollow (ranked : IsRanked layers beats answers asked)
    (follow : LayersFollow layers before)
    (changed : Settle.changeFor answers before asked = .ok after) : LayersFollow layers after :=
  follow.trans (Settle.layersFollow_changeFor ranked.listed changed)

/-- The answer to the question about a pair leaves the winner above the loser. -/
theorem isAbove_of_isConflict [IsStrictTotalOrder Nat beats]
    (ranked : IsRanked layers beats answers asked) (follow : LayersFollow layers before)
    (changed : Settle.changeFor answers before asked = .ok after) {winner loser : Nat}
    (wins : beats winner loser)
    (conflicts : asked.2.1.IsConflict layers (min winner loser) (max winner loser)) :
    IsAbove after winner loser := by
  rcases conflicts with ⟨first, second, ordered, isFirst, isSecond, -, isFlag⟩
  have isConflict : asked.1.kind = .conflict := by
    rw [ranked.about.kind_eq, isFlag]
    rfl
  obtain ⟨high, low, below, highWins, apart, lifted, isLow, rfl⟩ :=
    ranked.exists_lift follow changed isConflict
  rcases lifted with ⟨third, fourth, -, -, -, -, isOther⟩
  have samePair := Ambiguity.IsBetween.positions_eq ⟨first, second, isFlag⟩
    ⟨third, fourth, isOther⟩
  -- the pair is the same, and so is its winner
  obtain ⟨rfl, rfl⟩ : winner = high ∧ loser = low := by
    by_cases same : winner = high
    · exact ⟨same, by omega⟩
    · have crossed : winner = low ∧ loser = high := by omega
      rw [crossed.1, crossed.2] at wins
      exact absurd highWins (asymm wins)
  have inside : winner < before.length := by
    have first := (List.getElem?_eq_some_iff.mp isFirst).1
    have second := (List.getElem?_eq_some_iff.mp isSecond).1
    rw [follow.length_eq] at first second
    omega
  exact isAbove_liftTo apart (List.getElem?_eq_getElem inside) isLow

/-- In a run of answers by a ranking, the winner of a pair ends above the loser, if the loser
wins none of the pairs that are asked about behind it. -/
theorem isAbove_of_run [IsStrictTotalOrder Nat beats]
    {earlier later : List (Question × (Ambiguity × Nat))} {done : List Layer}
    (ranked : ∀ other ∈ earlier ++ asked :: later, IsRanked layers beats answers other)
    (ran : (earlier ++ asked :: later).foldlM (Settle.changeFor answers) layers = .ok done)
    {winner loser : Nat} (wins : beats winner loser)
    (conflicts : asked.2.1.IsConflict layers (min winner loser) (max winner loser))
    (spared : ∀ pair ∈ later, ∀ other, beats loser other →
      ¬pair.2.1.IsConflict layers (min loser other) (max loser other)) :
    IsAbove done winner loser := by
  have own := ranked asked (List.mem_append_right _ List.mem_cons_self)
  rcases exists_step_of_foldlM ran with ⟨before, after, upTo, stepped, since⟩
  have followBefore : LayersFollow layers before := by
    refine foldlM_keeps (LayersFollow layers) ?_ (LayersFollow.refl layers) upTo
    intro _ other _ mem held changed
    exact (ranked other (List.mem_append_left _ mem)).layersFollow held changed
  have atEnd : LayersFollow layers done ∧ IsAbove done winner loser := by
    refine foldlM_keeps (fun now => LayersFollow layers now ∧ IsAbove now winner loser) ?_
      ⟨own.layersFollow followBefore stepped,
        own.isAbove_of_isConflict followBefore stepped wins conflicts⟩ since
    rintro _ other _ mem ⟨followed, above⟩ changed
    have next := ranked other (List.mem_append_right _ (List.mem_cons_of_mem _ mem))
    exact ⟨next.layersFollow followed changed,
      next.isAbove followed changed above (spared other mem)⟩
  exact atEnd.2

end IsRanked

/-! ## All answers -/

section Run

variable {text : String} {roofline : Option Roofline} {settings : ParserSettings}
  {intent : Intent} {checks : CheckSettings} {questions : List Question} {answers : Answers}
  {beats : Nat → Nat → Prop}

/-- A flag of a prompt that is about a conflict is about one of its conflicting pairs. -/
theorem exists_isConflict (parsed : Prompt.parse text roofline settings = .ok intent)
    {flag : Ambiguity} (mem : flag ∈ intent.ambiguities) (isConflict : flag.kind = .conflict) :
    ∃ i j, flag.IsConflict intent.layers i j := by
  rcases Prompt.exists_flags_of_parse parsed with ⟨own, flags_eq, noConflict⟩
  rw [flags_eq] at mem
  rcases List.mem_append.mp mem with isOwn | ofPair
  · exact absurd isConflict (noConflict flag isOwn)
  · exact mem_conflicts_iff.mp ofPair

/-- Answers by a ranking settle each conflict question for the winner of its pair. -/
theorem isRanked_of_ask [IsStrictTotalOrder Nat beats]
    (parsed : Prompt.parse text roofline settings = .ok intent)
    (asked : ask intent.ambiguities ⟨intent, roofline, checks⟩ = .ok questions)
    (areOffered : answers.AreOffered questions) (follow : answers.FollowRanking questions beats)
    {question : Question} {flag : Ambiguity × Nat} (mem : question ∈ questions)
    (placed : intent.ambiguities[flag.2]? = some flag.1) (about : question.IsAbout flag) :
    IsRanked intent.layers beats answers (question, flag) := by
  rcases exists_flag_of_mem_ask asked mem with ⟨own, position, ownPlaced, askedOne⟩
  -- the flag that the question was made from is the one it is about
  have samePosition : position = flag.2 :=
    questionId_injective ((isAbout_of_askOne askedOne).id_eq.symm.trans about.id_eq)
  rw [samePosition, placed] at ownPlaced
  cases ownPlaced
  have flagMem := List.mem_of_getElem? placed
  refine ⟨about, ?_, ?_⟩
  · intro offer isChosen
    exact Session.bringsListed_of_offered (Prompt.isWithin_parse parsed 0).flags asked
      areOffered.mem_offers question mem offer isChosen
  · intro isConflict
    have flagIsConflict : flag.1.kind = .conflict :=
      AmbiguityKind.question_injective (about.kind_eq.symm.trans isConflict)
    obtain ⟨i, j, conflicts⟩ := exists_isConflict parsed flagMem flagIsConflict
    rcases conflicts with ⟨first, second, ordered, isFirst, isSecond, differ, isFlag⟩
    obtain ⟨letsFirst, letsSecond⟩ := letsWin_of_askOne askedOne ⟨first, second, isFlag⟩
    rcases trichotomous_of beats i j with firstWins | same | secondWins
    · obtain ⟨offer, isChosen, names⟩ := Option.map_eq_some_iff.mp
        (follow question mem isConflict i j letsFirst letsSecond firstWins)
      refine ⟨i, j, offer, firstWins, Nat.ne_of_lt ordered, ?_, isChosen, names⟩
      rw [Nat.min_eq_left ordered.le, Nat.max_eq_right ordered.le]
      exact ⟨first, second, ordered, isFirst, isSecond, differ, isFlag⟩
    · omega
    · obtain ⟨offer, isChosen, names⟩ := Option.map_eq_some_iff.mp
        (follow question mem isConflict j i letsSecond letsFirst secondWins)
      refine ⟨j, i, offer, secondWins, Nat.ne_of_gt ordered, ?_, isChosen, names⟩
      rw [Nat.min_eq_right ordered.le, Nat.max_eq_left ordered.le]
      exact ⟨first, second, ordered, isFirst, isSecond, differ, isFlag⟩

/-- Of two flags about conflicts of a prompt, the earlier one is about the pair that is asked
about before. -/
theorem askedBefore_of_lt (parsed : Prompt.parse text roofline settings = .ok intent)
    {flag other : Ambiguity} {position later : Nat} (earlier : position < later)
    (placed : intent.ambiguities[position]? = some flag)
    (otherPlaced : intent.ambiguities[later]? = some other) {i j k l : Nat}
    (conflicts : flag.IsConflict intent.layers i j)
    (otherConflicts : other.IsConflict intent.layers k l) : i < k ∨ i = k ∧ j < l := by
  rcases conflicts with ⟨first, second, -, -, -, -, isFlag⟩
  rcases otherConflicts with ⟨third, fourth, -, -, -, -, isOther⟩
  rcases Prompt.exists_flags_of_parse parsed with ⟨own, flags_eq, noConflict⟩
  have ordered : intent.ambiguities.Pairwise fun flag other => ∀ i j k l,
      flag.IsBetween i j → other.IsBetween k l → i < k ∨ i = k ∧ j < l := by
    rw [flags_eq, List.pairwise_append]
    refine ⟨?_, pairwise_conflictsFrom 0 intent.layers, ?_⟩
    · apply List.pairwise_of_forall_mem_list
      rintro flag mem other - i j k l ⟨first, second, rfl⟩ -
      exact absurd rfl (noConflict _ mem)
    · rintro flag mem other - i j k l ⟨first, second, rfl⟩ -
      exact absurd rfl (noConflict _ mem)
  rcases List.getElem?_eq_some_iff.mp placed with ⟨inside, rfl⟩
  rcases List.getElem?_eq_some_iff.mp otherPlaced with ⟨otherInside, rfl⟩
  exact List.pairwise_iff_getElem.mp ordered position later inside otherInside earlier i j k l
    ⟨first, second, isFlag⟩ ⟨third, fourth, isOther⟩

/-- The question about a conflicting pair, and the questions about conflicts that come behind it:
they are about pairs that are asked about later. -/
theorem exists_question_of_clash (parsed : Prompt.parse text roofline settings = .ok intent)
    {placed : List (Ambiguity × Nat)} (perm : placed.Perm intent.ambiguities.zipIdx)
    (aboutOpen : Settle.AboutOpen intent.ambiguities [] questions placed)
    (ordered : placed.Pairwise fun a b => a.1.kind = b.1.kind → a.2 < b.2) {a b : Nat}
    (clash : Clash intent.layers a b) :
    ∃ earlier own later, questions.zip placed = earlier ++ own :: later ∧
      own.2.1.IsConflict intent.layers (min a b) (max a b) ∧
      ∀ asked ∈ later, ∀ c d, asked.2.1.IsConflict intent.layers (min c d) (max c d) →
        AskedBefore (a, b) (c, d) := by
  rcases clash with ⟨lower, first, second, isFirst, isSecond, differ⟩
  have conflicts : (conflictFlag (min a b) (max a b) first second).IsConflict intent.layers
      (min a b) (max a b) := ⟨first, second, lower, isFirst, isSecond, differ, rfl⟩
  have flagMem : conflictFlag (min a b) (max a b) first second ∈ intent.ambiguities := by
    rcases Prompt.exists_flags_of_parse parsed with ⟨own, flags_eq, -⟩
    exact flags_eq ▸ List.mem_append_right _ (mem_conflicts_iff.mpr ⟨_, _, conflicts⟩)
  rcases List.mem_iff_getElem?.mp flagMem with ⟨position, there⟩
  have placedMem : (conflictFlag (min a b) (max a b) first second, position) ∈ placed :=
    perm.mem_iff.mpr (List.mk_mem_zipIdx_iff_getElem?.mpr there)
  have flags_eq : (questions.zip placed).map Prod.snd = placed :=
    List.map_snd_zip (Nat.le_of_eq aboutOpen.about.length_eq.symm)
  rw [← flags_eq] at placedMem ordered
  rw [List.pairwise_map] at ordered
  rcases List.mem_map.mp placedMem with ⟨⟨question, flag⟩, together, isFlag⟩
  dsimp only at isFlag
  subst isFlag
  rcases List.append_of_mem together with ⟨earlier, later, split⟩
  refine ⟨earlier, _, later, split, conflicts, ?_⟩
  intro asked mem c d otherConflicts
  have otherKind : asked.2.1.kind = .conflict := by
    rcases otherConflicts with ⟨third, fourth, -, -, -, -, isFlag⟩
    rw [isFlag]
    rfl
  have isLater : position < asked.2.2 := by
    rw [split, List.pairwise_append] at ordered
    exact (List.pairwise_cons.mp ordered.2.1).1 asked mem otherKind.symm
  have askedMem : asked ∈ questions.zip placed :=
    split ▸ List.mem_append_right _ (List.mem_cons_of_mem _ mem)
  exact askedBefore_of_lt parsed isLater there
    (aboutOpen.inPlace asked.2 (List.of_mem_zip askedMem).2) conflicts otherConflicts

/-- The winner of a conflicting pair ends above the loser, unless the loser wins a pair that is
asked about later. -/
theorem isAbove_of_settle [IsStrictTotalOrder Nat beats]
    (parsed : Prompt.parse text roofline settings = .ok intent)
    (asked : ask intent.ambiguities ⟨intent, roofline, checks⟩ = .ok questions)
    (areOffered : answers.AreOffered questions) (follow : answers.FollowRanking questions beats)
    {settled : Intent} (settles : intent.settle answers questions = .ok settled)
    {winner loser : Nat} (wins : beats winner loser) (clash : Clash intent.layers winner loser)
    (last : ∀ other, beats loser other → Clash intent.layers loser other →
      ¬AskedBefore (winner, loser) (loser, other)) :
    IsAbove settled.layers winner loser := by
  rcases Intent.settle_eq_ok_iff.mp settles with ⟨done, ran, rfl⟩
  rcases Intent.exists_aboutOpen_of_ask asked with ⟨placed, perm, aboutOpen, ordered⟩
  have ranked : ∀ pair ∈ questions.zip placed, IsRanked intent.layers beats answers pair := by
    intro pair mem
    rcases List.of_mem_zip mem with ⟨questionMem, flagMem⟩
    exact isRanked_of_ask parsed asked areOffered follow questionMem
      (aboutOpen.inPlace pair.2 flagMem) (List.forall₂_zip aboutOpen.about mem)
  obtain ⟨earlier, own, later, split, conflicts, isLater⟩ :=
    exists_question_of_clash parsed perm aboutOpen ordered clash
  have ranFor := Settle.foldlM_changeFor aboutOpen ran
  rw [split] at ranFor ranked
  apply IsRanked.isAbove_of_run ranked ranFor wins conflicts
  intro pair mem other otherWins otherConflicts
  refine last other otherWins ?_ (isLater pair mem loser other otherConflicts)
  rcases otherConflicts with ⟨first, second, lower, isFirst, isSecond, differ, -⟩
  exact ⟨lower, first, second, isFirst, isSecond, differ⟩

/-- Answers by a ranking to the questions about a prompt, in one call, give each conflicting pair
its winner on top, as long as the loser wins no pair that is asked about later; such a call
succeeds for every prompt of fewer characters than a machine can count. -/
theorem ranking_puts_winners_on_top [IsStrictTotalOrder Nat beats]
    (parsed : Prompt.parse text roofline settings = .ok intent)
    (asked : ask intent.ambiguities ⟨intent, roofline, checks⟩ = .ok questions)
    (areOffered : answers.AreOffered questions)
    (follow : answers.FollowRanking questions beats) :
    (text.length < 2 ^ 63 → ∃ settled, intent.settle answers questions = .ok settled) ∧
      ∀ settled, intent.settle answers questions = .ok settled →
        ∀ winner loser, beats winner loser → Clash intent.layers winner loser →
          (∀ other, beats loser other → Clash intent.layers loser other →
            ¬AskedBefore (winner, loser) (loser, other)) →
          ∃ top bottom, settled.layers[winner]? = some top ∧ settled.layers[loser]? = some bottom ∧
            Composition.PaintedBefore (bottom, loser) (top, winner) := by
  constructor
  · intro short
    rcases Prompt.isInRun_parse parsed with ⟨-, inRun⟩
    have numbered := Prompt.numbered_of_parse short parsed
    rw [List.length_map] at numbered
    exact Intent.settle_succeeds asked inRun.isOpen (by omega) (by omega) areOffered.mem_offers
  · intro settled settles winner loser wins clash last
    obtain ⟨top, bottom, isTop, isBottom, lower⟩ :=
      isAbove_of_settle parsed asked areOffered follow settles wins clash last
    exact ⟨top, bottom, isTop, isBottom, .inl lower⟩

end Run

/-! ## Three layers that all conflict -/

/-- An eave of four lights. -/
def eaveOfFour : Roofline :=
  { segments := [{ id := "eave", name := "Eave", pixelCount := 4 }] }

/-- Answers for three layers by which each beats those behind it. -/
def earlierWins : Answers :=
  [("conflict_0", .chosen (winnerId 0)), ("conflict_1", .chosen (winnerId 0)),
    ("conflict_2", .chosen (winnerId 1))]

/-- Answers for three layers by which each beats those in front of it. -/
def laterWins : Answers :=
  [("conflict_0", .chosen (winnerId 1)), ("conflict_1", .chosen (winnerId 2)),
    ("conflict_2", .chosen (winnerId 2))]

/-- What is seen when three colours are asked for on one strip: which layers conflict, what is
offered about them, what either answers pick, and the priorities that the first of them make. -/
structure Trial where
  conflicting : List (List Bool)
  offered : List (QuestionKind × List String)
  earlierPicks : List (Option String)
  laterPicks : List (Option String)
  priorities : List Int
  deriving DecidableEq

/-- The trial of three colours on a strip of four lights, with the questions in the order of
their flags. -/
def trial : Outcome (Intent × List Question × Intent) := do
  let intent ← Prompt.parse "orange and pink and white" (some eaveOfFour) {}
  let questions ← askFrom ⟨intent, some eaveOfFour, {}⟩ 0 intent.ambiguities
  let settled ← intent.settle earlierWins questions
  return (intent, questions, settled)

def Trial.of (result : Intent × List Question × Intent) : Trial :=
  let (intent, questions, settled) := result
  { conflicting := intent.layers.map fun first => intent.layers.map first.conflictsWith
    offered := questions.map fun question => (question.kind, question.offers.map Offer.id)
    earlierPicks := questions.map fun question =>
      (Settle.chosen? earlierWins question).map Offer.id
    laterPicks := questions.map fun question => (Settle.chosen? laterWins question).map Offer.id
    priorities := settled.layers.map Layer.priority }

theorem trial_eq : (trial.map Trial.of).toOption = some
    { conflicting := [[false, true, true], [true, false, true], [true, true, false]]
      offered := [(.conflict, [winnerId 0, winnerId 1, "blend"]),
        (.conflict, [winnerId 0, winnerId 2, "blend"]),
        (.conflict, [winnerId 1, winnerId 2, "blend"])]
      earlierPicks := [some (winnerId 0), some (winnerId 0), some (winnerId 1)]
      laterPicks := [some (winnerId 1), some (winnerId 2), some (winnerId 2)]
      priorities := [3, 3, 2] } := by
  decide +kernel

/-- Answers follow a ranking where they pick the better one of each pair that is offered. -/
theorem followRanking_of_picks {questions : List Question} {answers : Answers}
    {beats : Nat → Nat → Prop} {offered : List (QuestionKind × List String)}
    {picks : List (Option String)}
    (isOffered : (questions.map fun question => (question.kind, question.offers.map Offer.id)) =
      offered)
    (arePicked : (questions.map fun question =>
      (Settle.chosen? answers question).map Offer.id) = picks)
    (better : ∀ pair ∈ offered.zip picks, ∃ i j best,
      pair = ((.conflict, [winnerId i, winnerId j, "blend"]), some (winnerId best)) ∧
        ∀ winner loser, winner = i ∨ winner = j → loser = i ∨ loser = j → beats winner loser →
          winner = best) :
    answers.FollowRanking questions beats := by
  intro question mem _ winner loser letsWinner letsLoser wins
  have told := List.mem_map_of_mem (f := fun question : Question =>
    ((question.kind, question.offers.map Offer.id),
      (Settle.chosen? answers question).map Offer.id)) mem
  rw [← List.zip_map', isOffered, arePicked] at told
  obtain ⟨i, j, best, isPair, isBest⟩ := better _ told
  rw [Prod.mk.injEq, Prod.mk.injEq] at isPair
  rcases isPair with ⟨⟨-, ids⟩, picked⟩
  have letsWin : ∀ position, question.LetsWin position → position = i ∨ position = j := by
    intro position lets
    simpa [Question.LetsWin, ids, winnerId_inj, winnerId_ne_blend] using lets
  rw [picked, isBest winner loser (letsWin winner letsWinner) (letsWin loser letsLoser) wins]

/-- Each of three colours on one strip conflicts with the others, and each of the two lists of
answers follows a ranking of them; by the first, two layers end with one priority. -/
theorem exists_trial :
    ∃ intent questions settled,
      Prompt.parse "orange and pink and white" (some eaveOfFour) {} = .ok intent ∧
        ask intent.ambiguities ⟨intent, some eaveOfFour, {}⟩ = .ok questions ∧
        intent.settle earlierWins questions = .ok settled ∧
        Clash intent.layers 0 1 ∧ Clash intent.layers 2 1 ∧
        earlierWins.FollowRanking questions (· < ·) ∧
        laterWins.FollowRanking questions (· > ·) ∧
        settled.layers.map Layer.priority = [3, 3, 2] := by
  obtain ⟨result, isTrial, fields⟩ := exists_ok_of_toOption trial_eq
  rcases bind_eq_ok_iff.mp isTrial with ⟨intent, parsed, rest⟩
  rcases bind_eq_ok_iff.mp rest with ⟨questions, askedFrom, others⟩
  rcases bind_eq_ok_iff.mp others with ⟨settled, settles, shape⟩
  rw [pure_eq_ok_iff] at shape
  subst shape
  simp only [Trial.of, Trial.mk.injEq] at fields
  rcases fields with ⟨conflicting, offered, earlierPicks, laterPicks, priorities⟩
  have priorities_eq : (questions.map fun question => question.kind.priority) = [5, 5, 5] := by
    have told := congrArg (List.map fun pair => pair.1.priority) offered
    rwa [List.map_map] at told
  have three : intent.layers.length = 3 := by
    have count := congrArg List.length conflicting
    rwa [List.length_map] at count
  obtain ⟨orange, pink, white, layers_eq⟩ := List.length_eq_three.mp three
  simp only [layers_eq, List.map_cons, List.map_nil, List.cons.injEq, and_true] at conflicting
  rcases conflicting with ⟨⟨-, overPink, -⟩, ⟨-, -, overWhite⟩, -⟩
  refine ⟨_, _, _, parsed, ?_, settles, ?_, ?_, ?_, ?_, priorities⟩
  · exact ask_of_askFrom askedFrom (priorities_eq ▸ by decide)
  · exact ⟨by decide, orange, pink, by rw [layers_eq]; rfl, by rw [layers_eq]; rfl, overPink⟩
  · exact ⟨by decide, pink, white, by rw [layers_eq]; rfl, by rw [layers_eq]; rfl, overWhite⟩
  · apply followRanking_of_picks offered earlierPicks
    simp only [List.zip_cons_cons, List.zip_nil_left, List.forall_mem_cons]
    exact ⟨⟨0, 1, 0, rfl, by omega⟩, ⟨0, 2, 0, rfl, by omega⟩, ⟨1, 2, 1, rfl, by omega⟩,
      by simp⟩
  · apply followRanking_of_picks offered laterPicks
    simp only [List.zip_cons_cons, List.zip_nil_left, List.forall_mem_cons]
    exact ⟨⟨0, 1, 1, rfl, by omega⟩, ⟨0, 2, 2, rfl, by omega⟩, ⟨1, 2, 2, rfl, by omega⟩,
      by simp⟩

/-- White beats pink and pink beats orange: with the answers by that ranking, white ends above
pink. -/
theorem ranking_puts_winners_on_top_laterWins :
    ∃ intent questions settled,
      Prompt.parse "orange and pink and white" (some eaveOfFour) {} = .ok intent ∧
        ask intent.ambiguities ⟨intent, some eaveOfFour, {}⟩ = .ok questions ∧
        laterWins.AreOffered questions ∧ laterWins.FollowRanking questions (· > ·) ∧
        intent.settle laterWins questions = .ok settled ∧ Clash intent.layers 2 1 ∧
        ∃ white pink, settled.layers[2]? = some white ∧ settled.layers[1]? = some pink ∧
          Composition.PaintedBefore (pink, 1) (white, 2) := by
  rcases exists_trial with ⟨intent, questions, _, parsed, asked, -, -, clash, -, follow, -⟩
  have areOffered : laterWins.AreOffered questions := by
    apply Answers.areOffered_of_chosen
    simp [laterWins]
  obtain ⟨succeeds, onTop⟩ := ranking_puts_winners_on_top parsed asked areOffered follow
  obtain ⟨settled, settles⟩ := succeeds (by decide)
  refine ⟨intent, questions, settled, parsed, asked, areOffered, follow, settles, clash,
    onTop settled settles 2 1 (by decide) clash ?_⟩
  -- pink only wins over orange, and that pair was asked about first
  intro other wins _ later
  unfold AskedBefore at later
  dsimp only at later wins
  omega

/-- Orange beats pink and pink beats white: with the answers by that ranking, pink, lifted above
white last, is no longer below orange, and is painted over it. -/
theorem ranking_undone_by_a_later_answer :
    ∃ intent questions settled,
      Prompt.parse "orange and pink and white" (some eaveOfFour) {} = .ok intent ∧
        ask intent.ambiguities ⟨intent, some eaveOfFour, {}⟩ = .ok questions ∧
        earlierWins.AreOffered questions ∧ earlierWins.FollowRanking questions (· < ·) ∧
        intent.settle earlierWins questions = .ok settled ∧ Clash intent.layers 0 1 ∧
        ∃ orange pink, settled.layers[0]? = some orange ∧ settled.layers[1]? = some pink ∧
          ¬Composition.PaintedBefore (pink, 1) (orange, 0) := by
  rcases exists_trial with
    ⟨intent, questions, settled, parsed, asked, settles, clash, -, follow, -, priorities⟩
  have areOffered : earlierWins.AreOffered questions := by
    apply Answers.areOffered_of_chosen
    simp [earlierWins]
  have three : settled.layers.length = 3 := by
    have count := congrArg List.length priorities
    rwa [List.length_map] at count
  obtain ⟨orange, pink, white, layers_eq⟩ := List.length_eq_three.mp three
  simp only [layers_eq, List.map_cons, List.cons.injEq] at priorities
  refine ⟨intent, questions, settled, parsed, asked, areOffered, follow, settles, clash, orange,
    pink, by rw [layers_eq]; rfl, by rw [layers_eq]; rfl, ?_⟩
  unfold Composition.PaintedBefore
  dsimp only
  omega

end Eaves
