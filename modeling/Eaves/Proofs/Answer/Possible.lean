import Eaves.Proofs.Answer.Change
import Eaves.Proofs.Design.Conflicts
import Eaves.Proofs.Number.Grid
import Eaves.Proofs.Prompt.Flags
import Eaves.Proofs.Prompt.Count
import Eaves.Proofs.Question.Offers

/-!
# Offered options can be chosen

Applying answers reads numbers in three places: the position that a question's id ends
in, the counts by which an option stands for a rule, and the winners that the options of
a conflict name.  An answer fails only where such digits have no value in base ten, as
raised ones have not though they pass for digits, or where they are more than are read.

Neither happens to an option that a question offers: rules are offered as values and
not as texts, and the winner of a conflict is one of the layers there are.
-/

namespace Eaves

open Outcome

/-! ## Flags in a run -/

/-- A flag that can be open about layers with the given ids: one that a prompt leaves, or one
that the checks raise about the spacing of a layer. -/
inductive OpenFlag (ids : List String) (flag : Ambiguity) : Prop where
  | ofPrompt (parsed : Prompt.ParsedFlag ids flag)
  | ofCheck (id : String) (mem : id ∈ ids) (about : flag.layerId = some id)
      (kind_eq : flag.kind = .spacingImpossible)
      (rules : ∀ choice ∈ flag.choices, ∃ rule : Spacing, choice.value = .spacing rule)

namespace OpenFlag

variable {ids : List String} {flag : Ambiguity}

/-- Every flag is about one of the layers. -/
theorem exists_id (isOpen : OpenFlag ids flag) : ∃ id ∈ ids, flag.layerId = some id := by
  rcases isOpen with ⟨⟨id, mem, leaves⟩ | ⟨id, mem, about, _⟩⟩ | ⟨id, mem, about, _, _⟩
  · exact ⟨id, mem, leaves.layerId_eq⟩
  · exact ⟨id, mem, about⟩
  · exact ⟨id, mem, about⟩

theorem shades (isOpen : OpenFlag ids flag) (isColor : flag.kind = .color) :
    flag.choices ≠ [] := by
  rcases isOpen with ⟨⟨_, _, leaves⟩ | ⟨_, _, _, conflict⟩⟩ | ⟨_, _, _, kindEq, _⟩
  · exact leaves.shades isColor
  · cases isColor.symm.trans conflict.kind_eq
  · cases isColor.symm.trans kindEq

theorem rules (isOpen : OpenFlag ids flag) (isSpacing : flag.kind = .spacingImpossible) :
    ∀ choice ∈ flag.choices, ∃ rule : Spacing, choice.value = .spacing rule := by
  rcases isOpen with ⟨⟨_, _, leaves⟩ | ⟨_, _, _, conflict⟩⟩ | ⟨_, _, _, _, rules⟩
  · exact absurd isSpacing leaves.no_spacing
  · cases isSpacing.symm.trans conflict.kind_eq
  · exact rules

theorem winners (isOpen : OpenFlag ids flag) (isConflict : flag.kind = .conflict) :
    ConflictBelow ids.length flag := by
  rcases isOpen with ⟨⟨_, _, leaves⟩ | ⟨_, _, _, conflict⟩⟩ | ⟨_, _, _, kindEq, _⟩
  · exact absurd isConflict leaves.no_conflict
  · exact conflict
  · cases isConflict.symm.trans kindEq

end OpenFlag

/-! ## Options that suit a question -/

/-- An option that blends, or lets one of so many layers win. -/
def Offer.IsOfConflict (count : Nat) (offer : Offer) : Prop :=
  offer.id = "merge" ∨ offer.id = "blend" ∨ ∃ position < count, offer.id = winnerId position

/-- An option that can be chosen for a question of a kind about a design of so many layers. -/
structure Offer.Suits (count : Nat) (kind : QuestionKind) (offer : Offer) : Prop where
  spacing : kind = .spacing → offer.IsOfSpacing
  conflict : kind = .conflict → offer.IsOfConflict count

theorem AmbiguityKind.question_injective {kind other : AmbiguityKind}
    (same : kind.question = other.question) : kind = other := by
  cases kind <;> cases other <;> first | rfl | cases same

/-- Whatever a question offers suits it. -/
theorem suits_of_mem_offers {ids : List String} {subject : Subject} {position : Nat}
    {flag : Ambiguity} {question : Question} (isOpen : OpenFlag ids flag)
    (asked : askOne subject position flag = .ok question) {offer : Offer}
    (mem : offer ∈ question.offers) : offer.Suits ids.length question.kind := by
  have sameKind : question.kind = flag.kind.question := (isAbout_of_askOne asked).kind_eq
  constructor
  · intro isSpacing
    have isSpacing : flag.kind = .spacingImpossible :=
      AmbiguityKind.question_injective (sameKind.symm.trans isSpacing)
    exact isOfSpacing_of_mem_offers isSpacing (isOpen.rules isSpacing) asked mem
  · intro isConflict
    have isConflict : flag.kind = .conflict :=
      AmbiguityKind.question_injective (sameKind.symm.trans isConflict)
    rcases exists_choice_of_mem_offers isConflict asked mem with merge | ⟨choice, inside, sameId⟩
    · exact .inl merge
    · rcases (isOpen.winners isConflict).choice_ids choice inside with blend | ⟨p, below, names⟩
      · exact .inr (.inl (sameId.trans blend))
      · exact .inr (.inr ⟨p, below, sameId.trans names⟩)

/-! ## What is read to apply an answer -/

namespace Offer

/-- The numerals that an option stands for a rule by: what ends an id that names a count or an
interval, or else the two counts in its label.  Setting spacing by hand is no rule, and an option
whose value is one needs no numerals. -/
def ruleNumerals (offer : Offer) : List (List Char) :=
  if offer.id == "manual" || offer.value.spacing?.isSome then []
  else
    let (name, number) := cutAtLast offer.id.toList
    if isAllDigits number && (String.ofList name == "count" || String.ofList name == "interval")
      then [number]
    else
      match Prompt.search Prompt.onOffLabel? offer.label.toList with
      | some (on, off) => [on, off]
      | none => []

/-- The numerals that an option lets a layer win by: the one in its id, and those in the ids of the
flag's choices. -/
def winnerNumerals (offer : Offer) (flag : Option Ambiguity) : List (List Char) :=
  if offer.id == "merge" || offer.id == "blend" then []
  else
    match winnerDigits? offer.id with
    | some digits =>
        digits :: ((flag.map Ambiguity.choices).getD []).filterMap fun choice =>
          winnerDigits? choice.id
    | none => []

theorem isAllDigits_iff {digits : List Char} :
    isAllDigits digits = true ↔ digits ≠ [] ∧ ∀ c ∈ digits, Text.isDigitLike c := by
  rw [isAllDigits, Bool.and_eq_true, Bool.not_eq_true', List.isEmpty_eq_false_iff, List.all_eq_true]

end Offer

/-- A count is read exactly where its digits are readable. -/
theorem Prompt.count_succeeds_iff {digits : List Char} (nonempty : digits ≠ [])
    (digitLike : ∀ c ∈ digits, Text.isDigitLike c) :
    (∃ n, count digits = .ok n) ↔ Text.IsReadable digits := by
  rw [← Text.decimalNumeral_succeeds_iff nonempty digitLike]
  unfold count
  cases Text.decimalNumeral digits <;> simp [liftNumeral, Except.map, Except.mapError]

theorem Prompt.IsNumeralIn.digitLike {text digits : List Char} (numeral : IsNumeralIn text digits) :
    ∀ c ∈ digits, Text.isDigitLike c := by
  intro c mem
  rw [Text.isDigitLike, numeral.decimal c mem, Bool.true_or]

/-- The rule that a label spells is read exactly where both its counts are readable. -/
theorem Offer.spacingOfLabel?_succeeds_iff {label : String} :
    (∃ rule, spacingOfLabel? label = .ok rule) ↔
      ∀ counts ∈ Prompt.search Prompt.onOffLabel? label.toList,
        Text.IsReadable counts.1 ∧ Text.IsReadable counts.2 := by
  unfold spacingOfLabel?
  cases found : Prompt.search Prompt.onOffLabel? label.toList with
  | none => simp
  | some counts =>
      obtain ⟨on, off⟩ := counts
      rcases Prompt.exists_suffix_of_search found with ⟨place, -, scanned⟩
      obtain ⟨onNumeral, offNumeral⟩ :=
        Prompt.isNumeralIn_of_onOffBy? Prompt.skipComma_suffix scanned
      have isOn := Prompt.count_succeeds_iff onNumeral.nonempty onNumeral.digitLike
      have isOff := Prompt.count_succeeds_iff offNumeral.nonempty offNumeral.digitLike
      simp only [Option.mem_some_iff, forall_eq']
      rw [← isOn, ← isOff]
      constructor
      · rintro ⟨rule, read⟩
        rcases bind_eq_ok_iff.mp read with ⟨lit, isLit, rest⟩
        rcases bind_eq_ok_iff.mp rest with ⟨dark, isDark, -⟩
        exact ⟨⟨lit, isLit⟩, ⟨dark, isDark⟩⟩
      · rintro ⟨⟨lit, isLit⟩, ⟨dark, isDark⟩⟩
        rw [isLit, ok_bind, isDark, ok_bind]
        exact ⟨_, rfl⟩

/-- An option stands for a rule, or for none, exactly where its numerals are readable. -/
theorem Offer.spacing?_succeeds_iff {offer : Offer} :
    (∃ rule, offer.spacing? = .ok rule) ↔
      ∀ digits ∈ offer.ruleNumerals, Text.IsReadable digits := by
  unfold spacing? ruleNumerals
  by_cases manual : offer.id == "manual"
  · simp [manual]
  cases isRule : offer.value.spacing? with
  | some rule => simp [manual]
  | none =>
      generalize cutAtLast offer.id.toList = parts
      obtain ⟨name, number⟩ := parts
      have byLabel : (∃ rule, spacingOfLabel? offer.label = .ok rule) ↔
          ∀ digits ∈ (match Prompt.search Prompt.onOffLabel? offer.label.toList with
            | some (on, off) => [on, off]
            | none => []), Text.IsReadable digits := by
        rw [spacingOfLabel?_succeeds_iff]
        cases Prompt.search Prompt.onOffLabel? offer.label.toList <;> simp
      have byId : isAllDigits number = true → ∀ f : Int → Option Spacing,
          ((∃ rule, (Prompt.count number).map f = .ok rule) ↔
            ∀ digits ∈ [number], Text.IsReadable digits) := by
        intro all f
        obtain ⟨nonempty, digitLike⟩ := isAllDigits_iff.mp all
        rw [List.forall_mem_singleton, map_succeeds_iff,
          Prompt.count_succeeds_iff nonempty digitLike]
      simp only [manual, Bool.false_eq_true, if_false, Option.isSome_none, Bool.or_false]
      cases all : isAllDigits number with
      | false => simpa [all] using byLabel
      | true =>
          cases String.ofList name == "count" with
          | true => exact byId all _
          | false =>
              cases String.ofList name == "interval" with
              | true => exact byId all _
              | false => exact byLabel

/-- A choice of spacing can be applied exactly where its numerals are readable. -/
theorem Layer.chooseSpacing_succeeds_iff {layer : Layer} {offer : Offer} :
    (∃ changed, layer.chooseSpacing offer = .ok changed) ↔
      ∀ digits ∈ offer.ruleNumerals, Text.IsReadable digits := by
  rw [← Offer.spacing?_succeeds_iff]
  constructor
  · rintro ⟨changed, chosen⟩
    rcases bind_eq_ok_iff.mp chosen with ⟨rule, isRule, -⟩
    exact ⟨rule, isRule⟩
  · rintro ⟨rule, isRule⟩
    rw [chooseSpacing, isRule, ok_bind]
    split <;> exact ⟨_, rfl⟩

theorem isNumeralIn_of_winnerDigits? {id : String} {digits : List Char}
    (found : winnerDigits? id = some digits) : ∃ text, Prompt.IsNumeralIn text digits := by
  rcases Option.bind_eq_some_iff.mp found with ⟨rest, -, more⟩
  rcases Option.bind_eq_some_iff.mp more with ⟨⟨run, behind⟩, isRun, shape⟩
  dsimp only at shape
  split at shape
  · cases shape
    exact ⟨rest, (Prompt.digits?_spec isRun).1⟩
  · cases shape

/-- The winner that an id names is read exactly where its digits are readable. -/
theorem winner?_succeeds_iff {id : String} :
    (∃ winner, winner? id = .ok winner) ↔ ∀ digits ∈ winnerDigits? id, Text.IsReadable digits := by
  unfold winner?
  cases found : winnerDigits? id with
  | none => simp
  | some digits =>
      obtain ⟨text, numeral⟩ := isNumeralIn_of_winnerDigits? found
      simp only [Option.mem_some_iff, forall_eq']
      rw [map_succeeds_iff, Prompt.count_succeeds_iff numeral.nonempty numeral.digitLike]

/-- The layers that a conflict is about are read exactly where all their digits are readable. -/
theorem contenders_succeeds_iff {flag : Ambiguity} :
    (∃ involved, contenders flag = .ok involved) ↔
      ∀ choice ∈ flag.choices, ∀ digits ∈ winnerDigits? choice.id, Text.IsReadable digits := by
  simp only [← winner?_succeeds_iff]
  rw [← mapM_succeeds_iff]
  constructor
  · rintro ⟨involved, read⟩
    rcases bind_eq_ok_iff.mp read with ⟨winners, areWinners, -⟩
    exact ⟨winners, areWinners⟩
  · rintro ⟨winners, areWinners⟩
    rw [contenders, areWinners, ok_bind]
    exact ⟨_, rfl⟩

theorem position?_natCast {count position : Nat} (inside : position < count) :
    position? count position = some position := by
  have fromStart : ¬(position : Int) < 0 := by omega
  simp only [position?, if_neg fromStart]
  rw [if_pos (by omega), Int.toNat_natCast]

/-- A conflict about a layer can be settled by an option exactly where its numerals are
readable. -/
theorem chooseWinner_succeeds_iff {layers : List Layer} {affected : Nat} {offer : Offer}
    {flag : Option Ambiguity} (inside : affected < layers.length) :
    (∃ changed, chooseWinner layers affected offer flag = .ok changed) ↔
      ∀ digits ∈ offer.winnerNumerals flag, Text.IsReadable digits := by
  unfold chooseWinner Offer.winnerNumerals
  by_cases blends : (offer.id == "merge" || offer.id == "blend") = true
  · rw [if_pos blends, if_pos blends, blend, position?_natCast inside]
    simp
  rw [if_neg blends, if_neg blends]
  have named : (∃ winner, winner? offer.id = .ok winner) ↔
      ∀ digits ∈ winnerDigits? offer.id, Text.IsReadable digits := winner?_succeeds_iff
  cases isNamed : winnerDigits? offer.id with
  | none =>
      simp [winner?, isNamed]
  | some digits =>
      rw [isNamed] at named
      simp only [Option.mem_some_iff, forall_eq'] at named
      have involved : (∀ conflict ∈ flag, ∃ involved, contenders conflict = .ok involved) ↔
          ∀ digits ∈ ((flag.map Ambiguity.choices).getD []).filterMap fun choice =>
            winnerDigits? choice.id, Text.IsReadable digits := by
        cases flag with
        | none => simp
        | some flag =>
            simp only [Option.mem_some_iff, forall_eq', contenders_succeeds_iff, Option.map_some,
              Option.getD_some, List.mem_filterMap]
            constructor
            · rintro readable digits ⟨choice, mem, isDigits⟩
              exact readable choice mem digits isDigits
            · intro readable choice mem digits isDigits
              exact readable digits ⟨choice, mem, isDigits⟩
      dsimp only
      rw [List.forall_mem_cons, ← named, ← involved]
      constructor
      · rintro ⟨changed, chosen⟩
        rcases bind_eq_ok_iff.mp chosen with ⟨winner, isWinner, rest⟩
        refine ⟨⟨winner, isWinner⟩, ?_⟩
        rintro flag rfl
        rw [winner?, isNamed] at isWinner
        rcases map_eq_ok_iff.mp isWinner with ⟨position, -, rfl⟩
        rcases bind_eq_ok_iff.mp rest with ⟨others, areOthers, -⟩
        exact ⟨others, areOthers⟩
      · rintro ⟨⟨winner, isWinner⟩, read⟩
        rw [isWinner, ok_bind]
        cases winner with
        | none => exact ⟨_, rfl⟩
        | some position =>
            cases flag with
            | none => exact ⟨_, rfl⟩
            | some flag =>
                obtain ⟨others, areOthers⟩ := read flag rfl
                dsimp only
                rw [areOthers, ok_bind]
                exact ⟨_, rfl⟩

namespace Settle

/-- The numeral that a question's id ends in, if it does. -/
def positionNumerals (id : String) : List (List Char) :=
  let suffix := (Offer.cutAtLast id.toList).2
  if Offer.isAllDigits suffix then [suffix] else []

/-- The numerals that an option changes layers by: those of a rule or of a winner, where there is a
layer that the question is about. -/
def changeNumerals (layers : List Layer) (question : Question) (offer : Offer)
    (flag : Option Ambiguity) : List (List Char) :=
  if layers.any fun layer => some layer.id == question.layerId then
    match question.kind with
    | .spacing => offer.ruleNumerals
    | .conflict => offer.winnerNumerals flag
    | _ => []
  else []

/-- The numerals that are read to apply the answer to a question: where it may settle a flag the
one in its id, and where there is such a flag those that the option changes layers by. -/
def numeralsRead (flags : List Ambiguity) (answers : Answers) (progress : Progress)
    (question : Question) : List (List Char) :=
  match chosen? answers question with
  | some offer =>
      if question.kind.settlesFlags then
        positionNumerals question.id ++
          match flagFor? flags progress.settled question with
          | .ok (some position) =>
              changeNumerals progress.layers question offer flags[position]?
          | _ => []
      else []
  | none => []

/-- A question that settles no flags changes layers by no numerals. -/
theorem notMem_changeNumerals {layers : List Layer} {question : Question} {offer : Offer}
    {flag : Option Ambiguity} (idle : question.kind.settlesFlags = false) {digits : List Char} :
    digits ∉ changeNumerals layers question offer flag := by
  unfold changeNumerals
  split
  · generalize question.kind = kind at idle ⊢
    cases kind <;> first | exact List.not_mem_nil | exact Bool.noConfusion idle
  · exact List.not_mem_nil

/-- An option can be chosen for a question exactly where its numerals are readable. -/
theorem change_succeeds_iff {layers : List Layer} {question : Question} {offer : Offer}
    {flag : Option Ambiguity} :
    (∃ changed, change layers question offer flag = .ok changed) ↔
      ∀ digits ∈ changeNumerals layers question offer flag, Text.IsReadable digits := by
  unfold change changeNumerals
  have noneRead : ∀ digits ∈ ([] : List (List Char)), Text.IsReadable digits := by simp
  split
  · rename_i noLayer
    have absent : (layers.any fun layer => some layer.id == question.layerId) = false := by
      simpa using List.findIdx?_eq_none_iff.mp noLayer
    rw [absent, if_neg Bool.false_ne_true]
    exact iff_of_true ⟨_, rfl⟩ noneRead
  · rename_i affected isFound
    obtain ⟨inside, isNamed, -⟩ := List.findIdx?_eq_some_iff_getElem.mp isFound
    have present : (layers.any fun layer => some layer.id == question.layerId) = true :=
      List.any_eq_true.mpr ⟨layers[affected], List.getElem_mem inside, isNamed⟩
    rw [present, if_pos rfl]
    dsimp only
    cases question.kind with
    | spacing =>
        rw [List.getElem?_eq_getElem inside]
        dsimp only
        rw [map_succeeds_iff, Layer.chooseSpacing_succeeds_iff]
    | conflict => exact chooseWinner_succeeds_iff inside
    | _ => exact iff_of_true ⟨_, rfl⟩ noneRead

/-- The flag for a question is looked for without fail exactly where the numeral in its id, if any,
is readable. -/
theorem flagFor?_succeeds_iff {flags : List Ambiguity} {settled : List Nat} {question : Question} :
    (∃ found, flagFor? flags settled question = .ok found) ↔
      ∀ digits ∈ positionNumerals question.id, Text.IsReadable digits := by
  have byPosition : (∃ found, flagFor? flags settled question = .ok found) ↔
      ∃ position, position? question.id = .ok position := by
    constructor
    · rintro ⟨found, matched⟩
      rcases bind_eq_ok_iff.mp matched with ⟨position, read, -⟩
      exact ⟨position, read⟩
    · rintro ⟨position, read⟩
      rw [flagFor?, read, ok_bind]
      exact ⟨_, rfl⟩
  rw [byPosition]
  unfold position? positionNumerals
  generalize (Offer.cutAtLast question.id.toList).2 = suffix
  cases all : Offer.isAllDigits suffix with
  | false => simp [all]
  | true =>
      obtain ⟨nonempty, digitLike⟩ := Offer.isAllDigits_iff.mp all
      simp only [all, if_true]
      rw [map_succeeds_iff, List.forall_mem_singleton,
        ← Text.decimalNumeral_succeeds_iff nonempty digitLike]
      simp only [liftNumeral_eq_ok_iff]

/-- The answer to a question can be applied exactly where the numerals that are read for it are
readable. -/
theorem applyOne_succeeds_iff {flags : List Ambiguity} {answers : Answers} {progress : Progress}
    {question : Question} :
    (∃ next, applyOne flags answers progress question = .ok next) ↔
      ∀ digits ∈ numeralsRead flags answers progress question, Text.IsReadable digits := by
  unfold applyOne numeralsRead
  cases chosen? answers question with
  | none => exact iff_of_true ⟨_, rfl⟩ (by simp)
  | some offer =>
      dsimp only
      unfold applyOffer
      cases settles : question.kind.settlesFlags with
      | false =>
          obtain ⟨layers, changed⟩ := change_succeeds_iff.mpr fun digits mem =>
            absurd mem (notMem_changeNumerals settles)
          simp only [Bool.false_eq_true, if_false]
          apply iff_of_true _ (by simp)
          split
          · exact ⟨_, rfl⟩
          · rw [changed, ok_bind]
            exact ⟨_, rfl⟩
      | true =>
          simp only [if_true, List.forall_mem_append]
          rw [← @flagFor?_succeeds_iff flags progress.settled question]
          cases flagFor? flags progress.settled question with
          | error failure => simp [bind, Except.bind]
          | ok found =>
              rw [ok_bind]
              cases found with
              | none => simp
              | some position =>
                  dsimp only
                  rw [← change_succeeds_iff, and_iff_right ⟨some position, rfl⟩]
                  constructor
                  · rintro ⟨next, applied⟩
                    rcases bind_eq_ok_iff.mp applied with ⟨layers, changed, -⟩
                    exact ⟨layers, changed⟩
                  · rintro ⟨layers, changed⟩
                    rw [changed, ok_bind]
                    exact ⟨_, rfl⟩

end Settle

/-! ## Offered options are readable -/

/-- What is offered for spacing stands for a rule by no numerals. -/
theorem Offer.ruleNumerals_eq_nil {offer : Offer} (ofSpacing : offer.IsOfSpacing) :
    offer.ruleNumerals = [] := by
  rcases ofSpacing with manual | ⟨rule, isRule⟩
  · simp [ruleNumerals, manual]
  · have means : offer.value.spacing?.isSome = true := by
      rw [isRule]
      rfl
    simp [ruleNumerals, means]

/-- The winners that are offered for a conflict, and those among its choices, have numerals that
are read. -/
theorem Offer.isReadable_of_mem_winnerNumerals {count : Nat} {offer : Offer} {flag : Ambiguity}
    (few : count ≤ 10 ^ Text.digitLimit) (ofConflict : offer.IsOfConflict count)
    (below : ConflictBelow count flag) :
    ∀ digits ∈ offer.winnerNumerals (some flag), Text.IsReadable digits := by
  have named : ∀ {id digits}, (∃ position < count, id = winnerId position) →
      winnerDigits? id = some digits → Text.IsReadable digits := by
    rintro _ digits ⟨position, small, rfl⟩ found
    rw [winnerDigits?_winnerId] at found
    cases found
    exact Text.isReadable_toString (small.trans_le few)
  intro digits mem
  unfold winnerNumerals at mem
  split at mem
  · cases mem
  · rename_i noBlend
    have isNamed : ∃ position < count, offer.id = winnerId position := by
      rcases ofConflict with merge | blend | winner
      · rw [merge] at noBlend
        exact absurd rfl noBlend
      · rw [blend] at noBlend
        exact absurd rfl noBlend
      · exact winner
    split at mem
    · rename_i own found
      rcases List.mem_cons.mp mem with rfl | others
      · exact named isNamed found
      · rcases List.mem_filterMap.mp others with ⟨choice, inside, isDigits⟩
        rcases below.choice_ids choice inside with blend | winner
        · rw [blend] at isDigits
          cases isDigits
        · exact named winner isDigits
    · cases mem

namespace Settle

/-- The flag that is found for a question is one that it asks about. -/
theorem exists_flag_of_flagFor? {flags : List Ambiguity} {settled : List Nat}
    {question : Question} {position : Nat}
    (matched : flagFor? flags settled question = .ok (some position)) :
    ∃ flag, flags[position]? = some flag ∧ flag.kind.question = question.kind := by
  rcases isOpenFor_iff.mp (isOpenFor_of_flagFor? matched) with ⟨flag, placed, -, -, sameKind⟩
  exact ⟨flag, placed, sameKind⟩

/-- An answer to one question leaves as many layers as there were. -/
theorem length_layers_of_applyOne {flags : List Ambiguity} {answers : Answers}
    {progress next : Progress} {question : Question}
    (applied : applyOne flags answers progress question = .ok next) :
    next.layers.length = progress.layers.length := by
  rcases (applyOne_cases applied).1 with same | ⟨offer, flag, -, changed⟩
  · rw [same]
  · exact (layersKeptBut_change changed).length_eq

/-- A question that is given no option, or one that it offers, can be applied. -/
theorem applyOne_succeeds {ids : List String} {flags : List Ambiguity} {subject : Subject}
    {answers : Answers} {progress : Progress} {question : Question} {flag : Ambiguity}
    {position : Nat} (isOpen : ∀ flag ∈ flags, OpenFlag ids flag)
    (fewFlags : flags.length ≤ 10 ^ Text.digitLimit) (fewLayers : ids.length ≤ 10 ^ Text.digitLimit)
    (placed : flags[position]? = some flag) (asked : askOne subject position flag = .ok question)
    (offered : ∀ offer, chosen? answers question = some offer → offer ∈ question.offers)
    (count : progress.layers.length = ids.length) :
    ∃ next, applyOne flags answers progress question = .ok next ∧
      next.layers.length = ids.length := by
  have about := isAbout_of_askOne asked
  have short := (List.getElem?_eq_some_iff.mp placed).1.trans_le fewFlags
  have readable : ∀ digits ∈ numeralsRead flags answers progress question,
      Text.IsReadable digits := by
    unfold numeralsRead
    split
    · rename_i offer isChosen
      have suits := suits_of_mem_offers (isOpen flag (List.mem_of_getElem? placed)) asked
        (offered offer isChosen)
      split
      · rw [List.forall_mem_append]
        constructor
        · rw [positionNumerals, about.id_eq, cutAtLast_questionId,
            if_pos (Offer.isAllDigits_toString position), List.forall_mem_singleton]
          exact Text.isReadable_toString short
        · split
          · rename_i place matched
            rcases exists_flag_of_flagFor? matched with ⟨other, otherPlaced, sameKind⟩
            rw [otherPlaced]
            unfold changeNumerals
            split
            · split
              · rename_i isSpacing
                rw [Offer.ruleNumerals_eq_nil (suits.spacing isSpacing)]
                simp
              · rename_i isConflict
                exact Offer.isReadable_of_mem_winnerNumerals fewLayers (suits.conflict isConflict)
                  ((isOpen other (List.mem_of_getElem? otherPlaced)).winners
                    (AmbiguityKind.question_injective (sameKind.trans isConflict)))
              · simp
            · simp
          · simp
      · simp
    · simp
  obtain ⟨next, applied⟩ := applyOne_succeeds_iff.mpr readable
  exact ⟨next, applied, (length_layers_of_applyOne applied).trans count⟩

end Settle

/-- Answers that choose among the options that are offered can be applied to the design. -/
theorem Intent.settle_succeeds {intent : Intent} {subject : Subject} {questions : List Question}
    {answers : Answers} (asked : ask intent.ambiguities subject = .ok questions)
    (isOpen : ∀ flag ∈ intent.ambiguities, OpenFlag (intent.layers.map Layer.id) flag)
    (fewFlags : intent.ambiguities.length ≤ 10 ^ Text.digitLimit)
    (fewLayers : intent.layers.length ≤ 10 ^ Text.digitLimit)
    (offered : ∀ question ∈ questions, ∀ offer,
      Settle.chosen? answers question = some offer → offer ∈ question.offers) :
    ∃ settled, intent.settle answers questions = .ok settled := by
  rw [← List.length_map Layer.id] at fewLayers
  have steps : ∀ (progress : Settle.Progress) (question : Question), question ∈ questions →
      progress.layers.length = (intent.layers.map Layer.id).length →
      ∃ next, Settle.applyOne intent.ambiguities answers progress question = .ok next ∧
        next.layers.length = (intent.layers.map Layer.id).length := by
    intro progress question mem count
    rcases exists_flag_of_mem_ask asked mem with ⟨flag, position, placed, askedOne⟩
    exact Settle.applyOne_succeeds isOpen fewFlags fewLayers placed askedOne
      (offered question mem) count
  have start : (Settle.Progress.mk intent.layers intent.settings []).layers.length =
      (intent.layers.map Layer.id).length := (List.length_map _).symm
  rcases foldlM_succeeds _ steps start with ⟨done, ran, -⟩
  exact ⟨_, Intent.settle_eq_ok_iff.mpr ⟨done, ran, rfl⟩⟩

/-! ## Any answers -/

namespace Settle

/-- Where no question is given an option, nothing is applied. -/
theorem foldlM_applyOne_of_unanswered {flags : List Ambiguity} {answers : Answers}
    {questions : List Question}
    (unanswered : ∀ question ∈ questions, answers.giveOption question = false)
    (progress : Progress) :
    questions.foldlM (applyOne flags answers) progress = .ok progress := by
  induction questions with
  | nil => rfl
  | cons question rest ih =>
      have none : chosen? answers question = none := by
        rw [← Option.not_isSome_iff_eq_none, isSome_chosen?,
          unanswered question List.mem_cons_self]
        exact Bool.false_ne_true
      rw [List.foldlM_cons, applyOne, none, ok_bind]
      exact ih fun other mem => unanswered other (List.mem_cons_of_mem _ mem)

/-- Where no flag is settled, all are left. -/
theorem remaining_nil (flags : List Ambiguity) : remaining flags [] = flags := by
  simp [remaining]

/-- Where no flag is settled, the confidence is raised by nothing. -/
theorem raised_zero {confidence : Number.Binary64} (isUnit : confidence.IsUnit)
    (isRounded : confidence.IsRounded) : (raised confidence 0).eq confidence = true := by
  have noStep : confidenceStep.mul (.finite ((0 : Nat) : Int)) = .finite 0 := by decide +kernel
  rw [raised, noStep]
  cases confidence with
  | finite value =>
      have atMostOne : value ≤ 1 := (Number.Binary64.isUnit_iff.mp isUnit).2.2
      have same : (Number.Binary64.finite value).add (.finite 0) = .finite value := by
        change Number.Binary64.ofRat (value + 0) = .finite value
        rw [add_zero]
        exact isRounded
      have compared : (Number.Binary64.finite 1).least (.finite value) = .finite value := by
        have below : (Number.Binary64.finite value).lt (.finite 1) = decide (value < 1) := rfl
        rw [Number.Binary64.least, below]
        rcases atMostOne.lt_or_eq with less | rfl
        · rw [decide_eq_true less, if_pos rfl]
        · exact ite_self _
      rw [same, compared]
      exact decide_eq_true rfl
  | negativeZero => decide +kernel
  | infinite negative => cases isUnit.isFinite
  | nan => cases isUnit.isFinite

end Settle

/-- Answers can be applied to a design, whatever they are and whatever was asked, exactly where
every numeral that is read on the way is readable: a question's id that ends in digits, and the digits by
which an option stands for a rule or for the winner of a conflict.  Answers that give no question an
option are always applied, and leave the design as it is: its confidence is raised by nothing. -/
theorem Intent.settle_succeeds_iff {intent : Intent} (isUnit : intent.confidence.IsUnit)
    (isRounded : intent.confidence.IsRounded) (answers : Answers) (questions : List Question) :
    ((∃ settled, intent.settle answers questions = .ok settled) ↔
      ∀ earlier question later progress, questions = earlier ++ question :: later →
        earlier.foldlM (Settle.applyOne intent.ambiguities answers)
          ⟨intent.layers, intent.settings, []⟩ = .ok progress →
        ∀ digits ∈ Settle.numeralsRead intent.ambiguities answers progress question,
          Text.IsReadable digits) ∧
      ((∀ question ∈ questions, answers.giveOption question = false) →
        ∃ settled, intent.settle answers questions = .ok settled ∧
          settled = { intent with confidence := settled.confidence } ∧
          settled.confidence.eq intent.confidence = true) := by
  constructor
  · simp only [← Settle.applyOne_succeeds_iff]
    rw [← foldlM_succeeds_iff]
    constructor
    · rintro ⟨settled, settles⟩
      rcases settle_eq_ok_iff.mp settles with ⟨done, ran, -⟩
      exact ⟨done, ran⟩
    · rintro ⟨done, ran⟩
      exact ⟨_, settle_eq_ok_iff.mpr ⟨done, ran, rfl⟩⟩
  · intro unanswered
    refine ⟨_, settle_eq_ok_iff.mpr
      ⟨_, Settle.foldlM_applyOne_of_unanswered unanswered _, rfl⟩, ?_, ?_⟩
    · rw [Settle.remaining_nil]
    · exact Settle.raised_zero isUnit isRounded

/-- A layer whose spacing is open. -/
def openSpacing : Intent :=
  { layers := [{ id := "layer_0", name := "red" }],
    ambiguities := [{ kind := .spacingImpossible, description := "", layerId := some "layer_0" }] }

/-- The question about the spacing, for options of one's own. -/
def howSpaced : Question :=
  { id := "spacing_0", kind := .spacing, wording := "How many lights?", offers := [],
    layerId := some "layer_0" }

/-- An answer that asks for as many lights as digits spell. -/
def lightCount (digits : String) : Answers :=
  [("spacing_0", .own { id := "count_" ++ digits, label := "That many" })]

/-- Six lights may be asked for in digits of another script, and answers to questions that nobody
asked leave the layer as it is. -/
theorem Intent.settle_succeeds_iff_sixLights :
    openSpacing.confidence.IsUnit ∧ openSpacing.confidence.IsRounded ∧
      (∃ settled, openSpacing.settle (lightCount "٦") [howSpaced] = .ok settled) ∧
      ∃ settled, openSpacing.settle [("zone_7", .chosen "all")] [howSpaced] = .ok settled ∧
        settled.layers = openSpacing.layers := by
  have isUnit : openSpacing.confidence.IsUnit := Number.Binary64.isUnit_zero
  have isRounded : openSpacing.confidence.IsRounded := Number.Binary64.isRounded_zero
  refine ⟨isUnit, isRounded, ?_, ?_⟩
  · apply (Intent.settle_succeeds_iff isUnit isRounded (lightCount "٦") [howSpaced]).1.mpr
    intro earlier question later progress split upTo digits mem
    have start : earlier = [] := by
      cases earlier with
      | nil => rfl
      | cons first rest => simp at split
    subst start
    cases split
    cases upTo
    have read : Settle.numeralsRead openSpacing.ambiguities (lightCount "٦")
        ⟨openSpacing.layers, openSpacing.settings, []⟩ howSpaced = [['0'], ['٦']] := by
      decide +kernel
    rw [read] at mem
    rcases List.mem_pair.mp mem with rfl | rfl
    · exact ⟨List.forall_mem_singleton.mpr (by decide), by decide⟩
    · exact ⟨List.forall_mem_singleton.mpr (by decide), by decide⟩
  · obtain ⟨settled, settles, same, -⟩ :=
      (Intent.settle_succeeds_iff isUnit isRounded [("zone_7", .chosen "all")] [howSpaced]).2
        (by decide)
    exact ⟨settled, settles, by rw [same]⟩

/-- A count that ends in a superscript two looks like digits, but is refused when it is read. -/
theorem superscript_count_is_refused :
    openSpacing.settle (lightCount "²") [howSpaced] =
      .error (.numeral (.notNumeral 10 "²")) :=
  failure?_eq_some_iff.mp (by decide +kernel)

end Eaves
