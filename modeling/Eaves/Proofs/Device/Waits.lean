import Eaves.Proofs.Device.Delivery
import Eaves.Proofs.Number.Grid
import Eaves.Proofs.Record.Written
import Eaves.Record.Settings

/-!
# How long a delivery waits

Before a request is repeated there is a wait.  Where the controller asks for one, it is as
long as asked, whatever that is.  Else it is the delay of the policy: doubled from retry to
retry up to the greatest delay, and then moved by a share of itself in either direction, so
that it may end above the greatest delay, but by no more than that share.  Rounding keeps
the order of numbers, so the bound holds of the rounded delay as well.

The factor of the 1025th delay is beyond the format.  A delivery that comes to such a delay
ends with a failure.
-/

namespace Eaves

open Outcome
open Number (Binary64)

namespace RetryPolicy

/-- The bounds of the fields of a policy. -/
structure IsValid (policy : RetryPolicy) : Prop where
  base : (Binary64.finite 0).le policy.baseDelay = true
  most : (Binary64.finite 0).le policy.maxDelay = true
  share : policy.jitter.IsUnit

/-- The usual policy is within bounds. -/
theorem isValid_usual : ({} : RetryPolicy).IsValid := by
  refine ⟨?_, ?_, ⟨?_, ?_⟩⟩
  all_goals decide +kernel

/-- A policy that is read is within bounds. -/
theorem isValid_of_read {value : Value} {policy : RetryPolicy}
    (read : RetryPolicy.read value = .valid policy) : policy.IsValid := by
  obtain ⟨es, fields⟩ := Reader.of_openRecord read
  obtain ⟨_, _, upToJitter, -, rfl⟩ := Checked.seq_eq_valid_iff.mp fields
  obtain ⟨_, jitter, upToMost, isJitter, rfl⟩ := Checked.seq_eq_valid_iff.mp upToJitter
  obtain ⟨_, most, upToBase, isMost, rfl⟩ := Checked.seq_eq_valid_iff.mp upToMost
  obtain ⟨_, base, upToAttempts, isBase, rfl⟩ := Checked.seq_eq_valid_iff.mp upToBase
  obtain ⟨_, -, rfl⟩ := Checked.map_eq_valid_iff.mp upToAttempts
  refine ⟨?_, ?_, ?_⟩
  · rcases Reader.of_defaulted isBase with rfl | ⟨_, isRead⟩
    · exact isValid_usual.base
    · exact Reader.notNegative_of_nonNegative isRead
  · rcases Reader.of_defaulted isMost with rfl | ⟨_, isRead⟩
    · exact isValid_usual.most
    · obtain ⟨other, isRead, ordered⟩ := Checked.andThen_eq_valid_iff.mp isRead
      rcases ite_eq_iff.mp ordered with ⟨-, below⟩ | ⟨-, same⟩
      · cases below
      · cases same
        exact Reader.notNegative_of_nonNegative isRead
  · rcases Reader.of_defaulted isJitter with rfl | ⟨_, isRead⟩
    · exact isValid_usual.share
    · exact Reader.isUnit_of_share isRead

/-- No delay of a policy is longer than its greatest one, moved by its full share. -/
def ceiling (policy : RetryPolicy) : Binary64 :=
  if (Binary64.finite 0).lt policy.jitter then
    policy.maxDelay.add (policy.maxDelay.mul policy.jitter)
  else policy.maxDelay

open Number.Binary64

/-! ## A delay that is moved -/

section Moved

variable {delay most jitter pick spread : Binary64}

/-- A random share of a spread is no greater than it, to either side, where its double is in
range. -/
theorem exists_pickBetween {top c : Rat} (isFinite : spread.isFinite = true)
    (nonneg : 0 ≤ spread.toRat) (rounded : spread.IsRounded) (inRange : 2 * spread.toRat ≤ top)
    (rounds : ofRat top = .finite c) (isUnit : pick.IsUnit) :
    ∃ share, pickBetween spread.neg spread pick = .finite share ∧ |share| ≤ spread.toRat := by
  obtain ⟨pickFinite, pickNonneg, pickSmall⟩ := isUnit_iff.mp isUnit
  have lowFinite := isFinite_neg isFinite
  have isPoint := nearest_toRat isFinite rounded
  have inFormat := ofRat_toRat isFinite rounded
  have low := toRat_neg isFinite
  have high := toRat_neg lowFinite
  generalize isSpread : spread.toRat = s at *
  have doublePoint : nearest (2 * s) = 2 * s := by
    rcases nonneg.eq_or_lt with rfl | positive
    · rw [mul_zero, nearest_zero]
    · exact nearest_two_mul isPoint positive
  have doubleRounds : ofRat (2 * s) = .finite (2 * s) := by
    have magnitude : |2 * s| ≤ top := by rwa [abs_of_nonneg (by linarith)]
    rw [ofRat_eq_of_abs_le magnitude rounds, doublePoint]
  have width : spread.sub spread.neg = .finite (2 * s) := by
    rw [sub, add_of_isFinite isFinite (isFinite_neg lowFinite), isSpread, high, low, neg_neg,
      ← two_mul, doubleRounds]
  obtain ⟨part, isPart, partNonneg, partSmall⟩ : ∃ part,
      (spread.sub spread.neg).mul pick = .finite part ∧ 0 ≤ part ∧ part ≤ 2 * s := by
    have exactNonneg : 0 ≤ 2 * s * pick.toRat := mul_nonneg (by linarith) pickNonneg
    have exactSmall : 2 * s * pick.toRat ≤ 2 * s := mul_le_of_le_one_right (by linarith) pickSmall
    have magnitude : |2 * s * pick.toRat| ≤ 2 * s := by rwa [abs_of_nonneg exactNonneg]
    refine ⟨nearest (2 * s * pick.toRat), ?_, nearest_nonneg exactNonneg,
      (nearest_mono exactSmall).trans_eq doublePoint⟩
    rw [width, mul_of_isFinite rfl pickFinite]
    exact ofRat_eq_of_abs_le magnitude doubleRounds
  have within : |-s + part| ≤ s := abs_le.mpr ⟨by linarith, by linarith⟩
  refine ⟨nearest (-s + part), ?_, (abs_nearest_le_nearest within).trans_eq isPoint⟩
  rw [pickBetween, isPart, add_of_isFinite lowFinite rfl, low]
  exact ofRat_eq_of_abs_le within inFormat

/-- A delay moved by a share of itself is finite where its bound moved by that share is, and no
greater. -/
theorem exists_moved {top c : Rat} (delayFinite : delay.isFinite = true)
    (nonneg : 0 ≤ delay.toRat) (rounded : delay.IsRounded) (order : delay.toRat ≤ most.toRat)
    (share : jitter.IsUnit) (topRounds : ofRat (most.toRat * jitter.toRat) = .finite top)
    (sumRounds : ofRat (most.toRat + top) = .finite c) (isUnit : pick.IsUnit) :
    ∃ moved, delay.add (pickBetween (delay.mul jitter).neg (delay.mul jitter) pick) =
      .finite moved ∧ moved ≤ c := by
  obtain ⟨jitterFinite, jitterNonneg, jitterSmall⟩ := isUnit_iff.mp share
  have isPoint := nearest_toRat delayFinite rounded
  have exactNonneg : 0 ≤ delay.toRat * jitter.toRat := mul_nonneg nonneg jitterNonneg
  have exactOrder : delay.toRat * jitter.toRat ≤ most.toRat * jitter.toRat :=
    mul_le_mul_of_nonneg_right order jitterNonneg
  have exactSmall : delay.toRat * jitter.toRat ≤ delay.toRat :=
    mul_le_of_le_one_right nonneg jitterSmall
  obtain ⟨spread, isSpread, spreadNonneg, spreadTop, spreadSmall⟩ : ∃ spread,
      delay.mul jitter = .finite spread ∧ 0 ≤ spread ∧ spread ≤ top ∧ spread ≤ delay.toRat := by
    refine ⟨nearest (delay.toRat * jitter.toRat), ?_, nearest_nonneg exactNonneg,
      (nearest_mono exactOrder).trans_eq (nearest_eq_of_ofRat topRounds),
      (nearest_mono exactSmall).trans_eq isPoint⟩
    rw [mul_of_isFinite delayFinite jitterFinite]
    exact ofRat_eq_of_abs_le (by rwa [abs_of_nonneg exactNonneg]) topRounds
  have spreadFinite : (finite spread).isFinite = true := rfl
  have spreadRounded : (finite spread).IsRounded := isSpread ▸ isRounded_mul delay jitter
  have inRange : 2 * spread ≤ most.toRat + top := by linarith
  obtain ⟨part, isPart, partSmall⟩ :=
    exists_pickBetween spreadFinite spreadNonneg spreadRounded inRange sumRounds isUnit
  obtain ⟨partLow, partHigh⟩ := abs_le.mp partSmall
  change -spread ≤ part at partLow
  change part ≤ spread at partHigh
  have within : |delay.toRat + part| ≤ most.toRat + top :=
    abs_le.mpr ⟨by linarith, by linarith⟩
  refine ⟨nearest (delay.toRat + part), ?_, ?_⟩
  · rw [isSpread, isPart, add_of_isFinite delayFinite rfl]
    exact ofRat_eq_of_abs_le within sumRounds
  · exact (le_abs_self _).trans
      ((abs_nearest_le_nearest within).trans_eq (nearest_eq_of_ofRat sumRounds))

/-- A moved delay exceeds no bound on the delay by more than the bound's own share. -/
theorem moved_le (delayNotNegative : (finite 0).le delay = true)
    (mostNotNegative : (finite 0).le most = true) (order : delay.le most = true)
    (rounded : delay.IsRounded) (share : jitter.IsUnit) (some : (finite 0).lt jitter = true)
    (isUnit : pick.IsUnit) : (moved delay jitter pick).le (most.add (most.mul jitter)) = true := by
  have unbounded (isInfinite : most.add (most.mul jitter) = .infinite false) :
      (moved delay jitter pick).le (most.add (most.mul jitter)) = true := by
    rw [isInfinite]
    exact le_infinite (notNegative_greatest _)
  have jitterFinite := share.isFinite
  rcases notNegative_iff.mp mostNotNegative with ⟨mostFinite, mostNonneg⟩ | rfl
  · have isTop := mul_of_isFinite mostFinite jitterFinite
    rcases ofRat_of_nonneg (mul_nonneg mostNonneg (isUnit_iff.mp share).2.1) with
      ⟨top, topNonneg, topRounds⟩ | isInfinite
    · have isSum : most.add (most.mul jitter) = ofRat (most.toRat + top) := by
        rw [isTop, topRounds, add_of_isFinite mostFinite rfl]
        rfl
      rcases ofRat_of_nonneg (add_nonneg mostNonneg topNonneg) with
        ⟨c, cNonneg, sumRounds⟩ | isInfinite
      · obtain ⟨delayFinite, nonneg⟩ : delay.isFinite = true ∧ 0 ≤ delay.toRat := by
          rcases notNegative_iff.mp delayNotNegative with inRange | rfl
          · exact inRange
          · cases most <;> first | cases order | cases mostFinite
        obtain ⟨value, isMoved, small⟩ := exists_moved delayFinite nonneg rounded
          ((le_iff_of_isFinite delayFinite mostFinite).mp order) share topRounds sumRounds isUnit
        rw [isSum, sumRounds, moved, isMoved]
        unfold greatest
        split
        · exact (le_iff_of_isFinite rfl rfl).mpr small
        · exact (le_iff_of_isFinite rfl rfl).mpr cNonneg
      · exact unbounded (isSum.trans isInfinite)
    · apply unbounded
      rw [isTop, isInfinite]
      cases most <;> first | rfl | cases mostFinite
  · have positive : 0 < jitter.toRat := (lt_iff_of_isFinite rfl jitterFinite).mp some
    apply unbounded
    rw [(infinite_mul jitterFinite positive false).1]
    rfl

end Moved

/-! ## The delays of a policy -/

section Delays

variable {policy : RetryPolicy} {attempt : Nat} {pick seconds factor : Binary64}

theorem powerOfTwo_notNegative {exponent : Int} (nonneg : 0 ≤ exponent)
    (isFactor : powerOfTwo exponent = .ok factor) : (finite 0).le factor = true := by
  unfold powerOfTwo at isFactor
  rw [if_neg (by omega), if_neg (by omega)] at isFactor
  split at isFactor
  · cases isFactor
  · cases isFactor
    apply notNegative_ofRat
    positivity

/-- Before it is moved, a delay is at most the greatest one. -/
theorem plainDelay_bounds (valid : policy.IsValid) (rounded : policy.maxDelay.IsRounded)
    (one : 1 ≤ attempt) (isDelay : policy.plainDelay attempt = .ok seconds) :
    (finite 0).le seconds = true ∧ seconds.le policy.maxDelay = true ∧ seconds.IsRounded := by
  obtain ⟨factor, isFactor, rfl⟩ := map_eq_ok_iff.mp isDelay
  have factorNotNegative := powerOfTwo_notNegative (by omega) isFactor
  refine ⟨?_, ?_, isRounded_least rounded (isRounded_mul _ _)⟩
  · unfold least
    split
    · rename_i below
      rcases notNegative_or_nan_mul valid.base factorNotNegative with notNegative | isNan
      · exact notNegative
      · rw [isNan] at below
        cases below
    · exact valid.most
  · unfold least
    split
    · rename_i below
      rw [le, below, Bool.true_or]
    · exact le_self_of_notNegative valid.most

/-- A delay is not negative and at most the ceiling of its policy. -/
theorem delay_bounds (valid : policy.IsValid) (rounded : policy.maxDelay.IsRounded)
    (one : 1 ≤ attempt) (isUnit : pick.IsUnit) (isDelay : policy.delay attempt pick = .ok seconds) :
    (finite 0).le seconds = true ∧ seconds.le policy.ceiling = true := by
  obtain ⟨plain, isPlain, rfl⟩ := map_eq_ok_iff.mp isDelay
  obtain ⟨notNegative, order, plainRounded⟩ := plainDelay_bounds valid rounded one isPlain
  unfold ceiling
  split
  · rename_i some
    exact ⟨notNegative_greatest _,
      moved_le notNegative valid.most order plainRounded valid.share some isUnit⟩
  · exact ⟨notNegative, order⟩

/-- From the 1025th on, the factor of a delay is beyond the format. -/
theorem delay_fails (policy : RetryPolicy) (late : 1024 < attempt) (pick : Binary64) :
    policy.delay attempt pick = .error (.number .integerTooLarge) := by
  have beyond : powerOfTwo ((attempt : Int) - 1) = .error (.number .integerTooLarge) := by
    unfold powerOfTwo
    rw [if_neg (by omega), if_neg (by omega), if_pos (by omega)]
  rw [delay, plainDelay, beyond]
  rfl

/-- What the wait after a reply can be: as long as the reply asks for, else at most the ceiling of
the policy. -/
def Admits (policy : RetryPolicy) (reply : Reply) (seconds : Binary64) : Prop :=
  (finite 0).le seconds = true ∧
    match reply.asked? with
    | some asked => seconds = asked
    | none => seconds.le policy.ceiling = true ∧
        (policy.ceiling.isFinite = true → seconds.isFinite = true)

theorem requestedWait_notNegative {header : Option String}
    (isAsked : requestedWait? header = some seconds) : (finite 0).le seconds = true := by
  obtain ⟨text, -, isAsked⟩ := Option.bind_eq_some_iff.mp isAsked
  split at isAsked
  · cases isAsked
  · obtain ⟨read, -, isAsked⟩ := Option.bind_eq_some_iff.mp isAsked
    split at isAsked
    · cases isAsked
      assumption
    · cases isAsked

theorem admits_of_pause (valid : policy.IsValid) (rounded : policy.maxDelay.IsRounded)
    (one : 1 ≤ attempt) (isUnit : pick.IsUnit) {reply : Reply}
    (isPause : policy.pause attempt pick reply = .ok seconds) : policy.Admits reply seconds := by
  unfold pause at isPause
  unfold Admits
  cases isAsked : reply.asked? with
  | some asked =>
      rw [isAsked] at isPause
      obtain rfl : asked = seconds := Except.ok.inj isPause
      refine ⟨?_, rfl⟩
      cases reply with
      | status code wait => exact requestedWait_notNegative isAsked
      | timeout | networkError => cases isAsked
  | none =>
      rw [isAsked] at isPause
      obtain ⟨notNegative, order⟩ := delay_bounds valid rounded one isUnit isPause
      exact ⟨notNegative, order, isFinite_of_le notNegative order⟩

/-- A pause fails where the reply asks for none and the delay is late. -/
theorem pause_succeeds_or_fails (policy : RetryPolicy) (attempt : Nat) (pick : Binary64)
    (reply : Reply) :
    (1024 < attempt ∧ reply.asked? = none ∧
      policy.pause attempt pick reply = .error (.number .integerTooLarge)) ∨
    ((1024 < attempt → reply.asked? ≠ none) ∧
      ∃ seconds, policy.pause attempt pick reply = .ok seconds) := by
  by_cases late : 1024 < attempt
  · cases isAsked : reply.asked? with
    | some asked =>
        exact .inr ⟨by simp, asked, by rw [pause, isAsked]⟩
    | none =>
        refine .inl ⟨late, rfl, ?_⟩
        rw [pause, isAsked]
        exact delay_fails policy late pick
  · exact .inr ⟨fun isLate => absurd isLate late, pause_succeeds policy (by omega) pick reply⟩

end Delays

end RetryPolicy

/-! ## Deliveries -/

section Deliveries

variable {policy : RetryPolicy} {address : Address} {picks : Nat → Binary64}
  {replies : Nat → Reply}

/-- Where there is no pause after a reply that does not conclude it, a delivery fails. -/
theorem deliverFrom_eq_error {attempt more left : Nat} {failure : Failure}
    (reported : ∀ number, (replies number).receive address = .ok (replies number))
    (inTime : attempt + more ≤ policy.maxAttempts.val) (enough : more ≤ left)
    (goesOn : ∀ number, attempt ≤ number → number ≤ attempt + more →
      ¬policy.Concludes number (replies number))
    (paused : ∀ number, attempt ≤ number → number < attempt + more →
      ∃ seconds, policy.pause number (picks number) (replies number) = .ok seconds)
    (fails : policy.pause (attempt + more) (picks (attempt + more)) (replies (attempt + more)) =
      .error failure) :
    deliverFrom policy address picks replies attempt left = .error failure := by
  induction more generalizing attempt left with
  | zero =>
      have judged := judge_of_not_concludes (by omega) (goesOn attempt le_rfl le_rfl)
        (picks attempt)
      rw [Nat.add_zero] at fails
      rw [fails] at judged
      rw [deliverFrom, reported, ok_bind, judged]
      rfl
  | succ more ih =>
      obtain ⟨left, rfl⟩ := Nat.exists_eq_add_of_le' (by omega : 1 ≤ left)
      have isNext : attempt + (more + 1) = attempt + 1 + more := by omega
      rw [isNext] at inTime goesOn paused fails
      have rest := ih inTime (Nat.le_of_succ_le_succ enough)
        (fun number after => goesOn number (by omega))
        (fun number after => paused number (by omega)) fails
      obtain ⟨seconds, isPause⟩ := paused attempt le_rfl (by omega)
      have judged := judge_of_not_concludes (by omega) (goesOn attempt le_rfl (by omega))
        (picks attempt)
      rw [isPause] at judged
      rw [deliverFrom, reported, ok_bind, judged, Except.map, ok_bind]
      dsimp only
      rw [rest]
      rfl

theorem deliver_eq_error {number : Nat} {failure : Failure} (one : 1 ≤ number)
    (inTime : number ≤ policy.maxAttempts.val)
    (reported : ∀ number, (replies number).receive address = .ok (replies number))
    (goesOn : ∀ other, 1 ≤ other → other ≤ number → ¬policy.Concludes other (replies other))
    (paused : ∀ other, 1 ≤ other → other < number →
      ∃ seconds, policy.pause other (picks other) (replies other) = .ok seconds)
    (fails : policy.pause number (picks number) (replies number) = .error failure) :
    deliver policy address picks replies = .error failure := by
  obtain ⟨more, rfl⟩ := Nat.exists_eq_add_of_le one
  exact deliverFrom_eq_error reported inTime (by omega) goesOn paused fails

/-- Of the late replies that ask for no wait, the first is the one there is no pause after. -/
theorem exists_first_failing (picks : Nat → Binary64) {last : Nat}
    (late : ∃ number, 1024 < number ∧ number < last ∧ (replies number).asked? = none) :
    ∃ failed, 1024 < failed ∧ failed < last ∧
      policy.pause failed (picks failed) (replies failed) = .error (.number .integerTooLarge) ∧
      ∀ number, 1 ≤ number → number < failed →
        ∃ seconds, policy.pause number (picks number) (replies number) = .ok seconds := by
  classical
  obtain ⟨isLate, before, asksNone⟩ := Nat.find_spec late
  refine ⟨Nat.find late, isLate, before, ?_, fun number _ earlier => ?_⟩
  · rcases policy.pause_succeeds_or_fails _ (picks (Nat.find late)) (replies (Nat.find late)) with
      ⟨-, -, fails⟩ | ⟨asks, -⟩
    · exact fails
    · exact absurd asksNone (asks isLate)
  · rcases policy.pause_succeeds_or_fails number (picks number) (replies number) with
      ⟨otherLate, otherNone, -⟩ | ⟨-, succeeds⟩
    · exact absurd ⟨otherLate, earlier.trans before, otherNone⟩ (Nat.find_min late earlier)
    · exact succeeds

end Deliveries

/-- The controller is first slow, then asks to wait forever, and then accepts. -/
def slowThenForever : Nat → Reply
  | 1 => .timeout
  | 2 => .status 503 (some "inf")
  | _ => .status 204 none

/-- More attempts than there are factors for delays, and no delays. -/
def stubborn : RetryPolicy where
  maxAttempts := 1026
  baseDelay := .finite 0
  maxDelay := .finite 0
  jitter := .finite 0

end Eaves
