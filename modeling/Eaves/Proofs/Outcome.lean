import Eaves.Failure
import Mathlib.Data.List.Forall2

/-!
# Operations that give a result

What a sequence of operations that may fail gives, in terms of its steps.  Two
questions are kept apart: what holds of a result that is given, and when one is
given at all.  A check of data gives a value in the same way, in terms of the checks it
is made of.
-/

namespace Eaves.Outcome

variable {ε α β : Type}

/-! ## One step -/

theorem bind_eq_ok_iff {first : Except ε α} {next : α → Except ε β} {result : β} :
    first >>= next = .ok result ↔ ∃ value, first = .ok value ∧ next value = .ok result := by
  cases first <;> simp [bind, Except.bind]

@[simp]
theorem ok_bind (value : α) (next : α → Except ε β) :
    (Except.ok value >>= next) = next value :=
  rfl

theorem bind_eq_error_iff {first : Except ε α} {next : α → Except ε β} {failure : ε} :
    first >>= next = .error failure ↔
      first = .error failure ∨ ∃ value, first = .ok value ∧ next value = .error failure := by
  cases first <;> simp [bind, Except.bind]

theorem map_eq_ok_iff {first : Except ε α} {f : α → β} {result : β} :
    first.map f = .ok result ↔ ∃ value, first = .ok value ∧ f value = result := by
  cases first <;> simp [Except.map]

theorem map_eq_error_iff {first : Except ε α} {f : α → β} {failure : ε} :
    first.map f = .error failure ↔ first = .error failure := by
  cases first <;> simp [Except.map]

theorem map_succeeds_iff {first : Except ε α} {f : α → β} :
    (∃ result, first.map f = .ok result) ↔ ∃ value, first = .ok value := by
  cases first <;> simp [Except.map]

@[simp]
theorem pure_eq_ok_iff {value result : α} :
    (pure value : Except ε α) = .ok result ↔ value = result := by
  simp [pure, Except.pure]

@[simp]
theorem liftNumber_ok (value : α) :
    liftNumber (.ok value : Except Number.NumberFault α) = .ok value :=
  rfl

/-- What is seen of an operation that gives a result is seen of its result. -/
theorem exists_ok_of_toOption {first : Except ε α} {f : α → β} {seen : β}
    (view : (first.map f).toOption = some seen) : ∃ value, first = .ok value ∧ f value = seen := by
  cases first with
  | error failure => cases view
  | ok value => exact ⟨value, rfl, Option.some.inj view⟩

/-- Why an operation gave no result, if it gave none. -/
def failure? : Except ε α → Option ε
  | .ok _ => none
  | .error failure => some failure

theorem failure?_eq_some_iff {first : Except ε α} {failure : ε} :
    failure? first = some failure ↔ first = .error failure := by
  cases first <;> simp [failure?]

theorem liftNumber_eq_ok_iff {first : Except Number.NumberFault α} {result : α} :
    liftNumber first = .ok result ↔ first = .ok result := by
  cases first <;> simp [liftNumber, Except.mapError]

theorem liftNumber_eq_error {first : Except Number.NumberFault α} {failure : Failure}
    (failed : liftNumber first = .error failure) : ∃ fault, failure = .number fault := by
  cases first with
  | ok result => cases failed
  | error fault =>
      cases failed
      exact ⟨fault, rfl⟩

theorem liftNumeral_eq_ok_iff {first : Except Text.NumeralFault α} {result : α} :
    liftNumeral first = .ok result ↔ first = .ok result := by
  cases first <;> simp [liftNumeral, Except.mapError]

/-! ## Every member of a list -/

/-- An operation on every member gives the list of what it gives on each. -/
theorem mapM_eq_ok_iff {f : α → Except ε β} {members : List α} {results : List β} :
    members.mapM f = .ok results ↔
      List.Forall₂ (fun member result => f member = .ok result) members results := by
  induction members generalizing results with
  | nil => cases results <;> simp
  | cons member rest ih =>
      rw [List.mapM_cons, bind_eq_ok_iff]
      constructor
      · rintro ⟨first, firstOk, others⟩
        rcases bind_eq_ok_iff.mp others with ⟨restResults, restOk, shape⟩
        rw [pure_eq_ok_iff] at shape
        subst shape
        exact List.Forall₂.cons firstOk (ih.mp restOk)
      · intro related
        cases related with
        | cons firstOk restRelated =>
            exact ⟨_, firstOk, bind_eq_ok_iff.mpr ⟨_, ih.mpr restRelated, rfl⟩⟩

/-- An operation that gives a result on every member gives the list of them. -/
theorem mapM_succeeds {f : α → Except ε β} {members : List α}
    (each : ∀ member ∈ members, ∃ result, f member = .ok result) :
    ∃ results, members.mapM f = .ok results := by
  induction members with
  | nil => exact ⟨[], rfl⟩
  | cons member rest ih =>
      rcases each member List.mem_cons_self with ⟨first, firstOk⟩
      rcases ih fun other mem => each other (List.mem_cons_of_mem _ mem) with ⟨others, othersOk⟩
      refine ⟨first :: others, ?_⟩
      rw [List.mapM_cons, firstOk, ok_bind, othersOk]
      rfl

/-- An operation gives the list of its results exactly where it gives one on every member. -/
theorem mapM_succeeds_iff {f : α → Except ε β} {members : List α} :
    (∃ results, members.mapM f = .ok results) ↔
      ∀ member ∈ members, ∃ result, f member = .ok result := by
  constructor
  · rintro ⟨results, ran⟩ member mem
    induction mapM_eq_ok_iff.mp ran generalizing member with
    | nil => cases mem
    | cons firstOk related ih =>
        rcases List.mem_cons.mp mem with rfl | later
        · exact ⟨_, firstOk⟩
        · exact ih (mapM_eq_ok_iff.mpr related) member later
  · exact mapM_succeeds

/-- An operation that gives a known result on every member gives the list of those. -/
theorem mapM_eq_ok_map {f : α → Except ε β} {g : α → β} {members : List α}
    (each : ∀ member ∈ members, f member = .ok (g member)) :
    members.mapM f = .ok (members.map g) := by
  rw [mapM_eq_ok_iff, List.forall₂_map_right_iff]
  exact List.forall₂_same.mpr each

/-- An operation that fails on a list fails alike on one of its members. -/
theorem exists_failure_of_mapM {f : α → Except ε β} {members : List α} {failure : ε}
    (failed : members.mapM f = .error failure) : ∃ member ∈ members, f member = .error failure := by
  induction members with
  | nil => cases failed
  | cons member rest ih =>
      rw [List.mapM_cons] at failed
      rcases bind_eq_error_iff.mp failed with here | ⟨first, -, later⟩
      · exact ⟨member, List.mem_cons_self, here⟩
      · rcases bind_eq_error_iff.mp later with others | ⟨results, -, gone⟩
        · rcases ih others with ⟨other, mem, fails⟩
          exact ⟨other, List.mem_cons_of_mem _ mem, fails⟩
        · cases gone

/-- Operations that agree on every member agree on the list. -/
theorem mapM_congr {f g : α → Except ε β} {members : List α}
    (same : ∀ member ∈ members, f member = g member) : members.mapM f = members.mapM g := by
  induction members with
  | nil => rfl
  | cons member rest ih =>
      rw [List.mapM_cons, List.mapM_cons, same member List.mem_cons_self,
        ih fun other mem => same other (List.mem_cons_of_mem _ mem)]

/-- Of two lists that match, each member of the first has its partner in the second. -/
theorem exists_partner {R : α → β → Prop} {members : List α} {partners : List β}
    (related : List.Forall₂ R members partners) {member : α} (mem : member ∈ members) :
    ∃ partner, (member, partner) ∈ members.zip partners ∧ R member partner := by
  induction related with
  | nil => simp at mem
  | cons first _ ih =>
      rcases List.mem_cons.mp mem with here | later
      · subst here
        exact ⟨_, List.mem_cons_self, first⟩
      · rcases ih later with ⟨partner, together, agree⟩
        exact ⟨partner, List.mem_cons_of_mem _ together, agree⟩

/-- Partners stand in the same places. -/
theorem exists_partner_at {R : α → β → Prop} {members : List α} {partners : List β}
    (related : List.Forall₂ R members partners) {i : Nat} {member : α}
    (there : members[i]? = some member) :
    ∃ partner, partners[i]? = some partner ∧ R member partner := by
  induction related generalizing i with
  | nil => cases there
  | cons first _ ih =>
      cases i with
      | zero =>
          cases there
          exact ⟨_, rfl, first⟩
      | succ i => exact ih there

/-- Where every member has a partner, there is a list of partners that matches. -/
theorem exists_partners {R : α → β → Prop} {members : List α}
    (each : ∀ member ∈ members, ∃ partner, R member partner) :
    ∃ partners, List.Forall₂ R members partners := by
  induction members with
  | nil => exact ⟨[], .nil⟩
  | cons member rest ih =>
      rcases each member List.mem_cons_self with ⟨first, isFirst⟩
      rcases ih fun other mem => each other (List.mem_cons_of_mem _ mem) with ⟨others, related⟩
      exact ⟨first :: others, .cons isFirst related⟩

/-- What holds of any two members, in their order, carries over to their partners. -/
theorem pairwise_partners {R : α → β → Prop} {S : α → α → Prop} {T : β → β → Prop}
    (carries : ∀ {a b c d}, R a c → R b d → S a b → T c d) {members : List α} {partners : List β}
    (related : List.Forall₂ R members partners) (pairwise : members.Pairwise S) :
    partners.Pairwise T := by
  induction related with
  | nil => exact .nil
  | cons first restRelated ih =>
      rw [List.pairwise_cons] at pairwise ⊢
      refine ⟨?_, ih pairwise.2⟩
      intro partner mem
      rcases exists_partner restRelated.flip mem with ⟨member, together, agree⟩
      exact carries first agree (pairwise.1 member (List.of_mem_zip together).2)

/-- Each result comes from a member. -/
theorem exists_mem_of_mapM {f : α → Except ε β} {members : List α} {results : List β}
    (ran : members.mapM f = .ok results) {result : β} (mem : result ∈ results) :
    ∃ member ∈ members, f member = .ok result := by
  have related := mapM_eq_ok_iff.mp ran
  rcases exists_partner (List.Forall₂.flip related) mem with ⟨member, together, memberOk⟩
  exact ⟨member, (List.of_mem_zip together).2, memberOk⟩

/-- Of the results, one is of a kind exactly where a member gives one of that kind. -/
theorem exists_result_iff_of_mapM {f : α → Except ε β} {members : List α} {results : List β}
    (ran : members.mapM f = .ok results) {Kind : β → Prop} :
    (∃ result ∈ results, Kind result) ↔
      ∃ member ∈ members, ∃ result, f member = .ok result ∧ Kind result := by
  constructor
  · rintro ⟨result, mem, isKind⟩
    rcases exists_mem_of_mapM ran mem with ⟨member, memberMem, gives⟩
    exact ⟨member, memberMem, result, gives, isKind⟩
  · rintro ⟨member, mem, result, gives, isKind⟩
    rcases exists_partner (mapM_eq_ok_iff.mp ran) mem with ⟨same, together, isSame⟩
    rw [gives] at isSame
    cases isSame
    exact ⟨result, (List.of_mem_zip together).2, isKind⟩

/-! ## One member after another -/

/-- What every step keeps holds at the end. -/
theorem foldlM_keeps (Holds : β → Prop) {step : β → α → Except ε β} {members : List α}
    (keeps : ∀ state member next, member ∈ members → Holds state →
      step state member = .ok next → Holds next)
    {start done : β} (atStart : Holds start) (ran : members.foldlM step start = .ok done) :
    Holds done := by
  induction members generalizing start with
  | nil =>
      rw [List.foldlM_nil, pure_eq_ok_iff] at ran
      exact ran ▸ atStart
  | cons member rest ih =>
      rw [List.foldlM_cons] at ran
      rcases bind_eq_ok_iff.mp ran with ⟨next, stepOk, restOk⟩
      have atNext := keeps start member next List.mem_cons_self atStart stepOk
      apply ih _ atNext restOk
      intro state other after mem
      exact keeps state other after (List.mem_cons_of_mem _ mem)

/-- Steps that succeed, and keep what they need to succeed, run to the end. -/
theorem foldlM_succeeds (Holds : β → Prop) {step : β → α → Except ε β} {members : List α}
    (steps : ∀ state member, member ∈ members → Holds state →
      ∃ next, step state member = .ok next ∧ Holds next)
    {start : β} (atStart : Holds start) :
    ∃ done, members.foldlM step start = .ok done ∧ Holds done := by
  induction members generalizing start with
  | nil => exact ⟨start, rfl, atStart⟩
  | cons member rest ih =>
      rcases steps start member List.mem_cons_self atStart with ⟨next, stepOk, held⟩
      obtain ⟨done, restOk, doneHolds⟩ := ih (fun state other mem => steps state other
        (List.mem_cons_of_mem _ mem)) held
      refine ⟨done, ?_, doneHolds⟩
      rw [List.foldlM_cons, stepOk, ok_bind, restOk]

/-- Steps that give a known result from every state run to where those results lead. -/
theorem foldlM_eq_ok_foldl {step : β → α → Except ε β} {next : β → α → β} {members : List α}
    (steps : ∀ state, ∀ member ∈ members, step state member = .ok (next state member))
    (start : β) : members.foldlM step start = .ok (members.foldl next start) := by
  induction members generalizing start with
  | nil => rfl
  | cons member rest ih =>
      rw [List.foldlM_cons, steps start member List.mem_cons_self, ok_bind, List.foldl_cons]
      exact ih (fun state other mem => steps state other (List.mem_cons_of_mem _ mem)) _

/-- A run reaches its end exactly where every step that it reaches succeeds. -/
theorem foldlM_succeeds_iff {step : β → α → Except ε β} {members : List α} {start : β} :
    (∃ done, members.foldlM step start = .ok done) ↔
      ∀ earlier member later before, members = earlier ++ member :: later →
        earlier.foldlM step start = .ok before → ∃ next, step before member = .ok next := by
  constructor
  · rintro ⟨done, ran⟩ earlier member later before rfl upTo
    rw [List.foldlM_append, upTo, ok_bind, List.foldlM_cons] at ran
    rcases bind_eq_ok_iff.mp ran with ⟨next, stepOk, -⟩
    exact ⟨next, stepOk⟩
  · intro steps
    induction members generalizing start with
    | nil => exact ⟨start, rfl⟩
    | cons first rest ih =>
        obtain ⟨next, stepOk⟩ := steps [] first rest start rfl rfl
        rw [List.foldlM_cons, stepOk, ok_bind]
        apply ih
        rintro earlier member later before rfl upTo
        apply steps (first :: earlier) member later before rfl
        rw [List.foldlM_cons, stepOk, ok_bind, upTo]

/-- A run takes each member between what comes before it and what comes after it. -/
theorem exists_step_of_foldlM {step : β → α → Except ε β} {earlier later : List α} {member : α}
    {start done : β} (ran : (earlier ++ member :: later).foldlM step start = .ok done) :
    ∃ before after, earlier.foldlM step start = .ok before ∧ step before member = .ok after ∧
      later.foldlM step after = .ok done := by
  rw [List.foldlM_append] at ran
  rcases bind_eq_ok_iff.mp ran with ⟨before, upTo, rest⟩
  rw [List.foldlM_cons] at rest
  rcases bind_eq_ok_iff.mp rest with ⟨after, stepOk, since⟩
  exact ⟨before, after, upTo, stepOk, since⟩

end Eaves.Outcome

namespace Eaves.Checked

variable {α β : Type}

/-! ## Checks of data -/

theorem map_eq_valid_iff {f : α → β} {checked : Checked α} {result : β} :
    f <$> checked = .valid result ↔ ∃ value, checked = .valid value ∧ f value = result := by
  show map f checked = .valid result ↔ _
  cases checked <;> simp [map]

theorem seq_eq_valid_iff {first : Checked (α → β)} {second : Checked α} {result : β} :
    first <*> second = .valid result ↔
      ∃ f value, first = .valid f ∧ second = .valid value ∧ f value = result := by
  show ap first second = .valid result ↔ _
  cases first <;> cases second <;> simp [ap]

theorem andThen_eq_valid_iff {checked : Checked α} {check : α → Checked β} {result : β} :
    checked.andThen check = .valid result ↔
      ∃ value, checked = .valid value ∧ check value = .valid result := by
  cases checked <;> simp [andThen]

theorem under_eq_valid_iff {checked : Checked α} {key : String} {result : α} :
    checked.under key = .valid result ↔ checked = .valid result := by
  cases checked <;> simp [under]

theorem toOutcome_eq_ok_iff {checked : Checked α} {result : α} :
    checked.toOutcome = .ok result ↔ checked = .valid result := by
  cases checked <;> simp [toOutcome]

end Eaves.Checked
