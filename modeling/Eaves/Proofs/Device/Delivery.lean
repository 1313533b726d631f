import Eaves.Command.Desk
import Eaves.Proofs.Outcome
import Mathlib.Data.Nat.Find
import Mathlib.Order.Bounds.Basic

/-!
# When a delivery ends

A delivery goes on from reply to reply until one of them concludes it: the payload is
accepted, or refused for good, or no attempt is left.  It makes a request for each
reply up to that one and waits once before every request but the first, for as long
as the controller asks for or else for the delay of the policy.  At a desk, all of the
requests carry the payload that was to be delivered, and what the desk writes into
its journal afterwards touches neither the requests nor the waits.
-/

namespace Eaves

open Outcome
open Number (Binary64)

variable {policy : RetryPolicy} {address : Address} {picks : Nat → Binary64}
  {replies : Nat → Reply} {attempt : Nat} {reply : Reply}

/-! ## What a reply means -/

/-- The reply says that the payload was accepted. -/
def Reply.Accepts : Reply → Prop
  | .status code _ => 200 ≤ code ∧ code ≤ 299
  | _ => False

instance : DecidablePred Reply.Accepts
  | .status code _ => inferInstanceAs (Decidable (200 ≤ code ∧ code ≤ 299))
  | .timeout | .networkError => inferInstanceAs (Decidable False)

/-- The reply refuses the payload with a status that is not worth another try. -/
def Reply.Refuses (policy : RetryPolicy) : Reply → Prop
  | .status code _ => ¬(200 ≤ code ∧ code ≤ 299) ∧ code ∉ policy.retryStatuses
  | _ => False

instance (policy : RetryPolicy) : DecidablePred (Reply.Refuses policy)
  | .status code _ =>
      inferInstanceAs (Decidable (¬(200 ≤ code ∧ code ≤ 299) ∧ code ∉ policy.retryStatuses))
  | .timeout | .networkError => inferInstanceAs (Decidable False)

/-- The wait that comes with a reply, where it asks for one that can be read. -/
def Reply.asked? : Reply → Option Binary64
  | .status _ wait => requestedWait? wait
  | _ => none

namespace RetryPolicy

/-- No request follows the reply to request number `attempt`. -/
def Concludes (policy : RetryPolicy) (attempt : Nat) (reply : Reply) : Prop :=
  reply.Accepts ∨ reply.Refuses policy ∨ attempt = policy.maxAttempts.val

instance (policy : RetryPolicy) (attempt : Nat) : DecidablePred (policy.Concludes attempt) :=
  fun reply => inferInstanceAs
    (Decidable (reply.Accepts ∨ reply.Refuses policy ∨ attempt = policy.maxAttempts.val))

/-- The wait after the reply to request number `attempt`. -/
def pause (policy : RetryPolicy) (attempt : Nat) (pick : Binary64) (reply : Reply) :
    Outcome Binary64 :=
  match reply.asked? with
  | some seconds => .ok seconds
  | none => policy.delay attempt pick

/-- A delay can be doubled as often as the format allows. -/
theorem delay_succeeds (policy : RetryPolicy) (small : attempt ≤ 1024) (pick : Binary64) :
    ∃ seconds, policy.delay attempt pick = .ok seconds := by
  have inFormat : ∃ factor, powerOfTwo ((attempt : Int) - 1) = .ok factor := by
    unfold powerOfTwo
    rw [if_neg (by omega)]
    by_cases isNegative : (attempt : Int) - 1 < 0
    · exact ⟨_, if_pos isNegative⟩
    · rw [if_neg isNegative, if_neg (by omega)]
      exact ⟨_, rfl⟩
  rcases inFormat with ⟨factor, isFactor⟩
  exact ⟨_, by rw [delay, plainDelay, isFactor]; rfl⟩

theorem pause_succeeds (policy : RetryPolicy) (small : attempt ≤ 1024) (pick : Binary64)
    (reply : Reply) : ∃ seconds, policy.pause attempt pick reply = .ok seconds := by
  unfold pause
  cases reply.asked? with
  | some seconds => exact ⟨seconds, rfl⟩
  | none => exact policy.delay_succeeds small pick

end RetryPolicy

/-! ## One reply -/

/-- A reply that concludes a delivery says whether the payload was accepted. -/
theorem judge_of_concludes (concludes : policy.Concludes attempt reply) (pick : Binary64) :
    judge policy attempt pick reply = .ok (.done (decide reply.Accepts)) := by
  cases reply with
  | timeout =>
      have isLast : attempt = policy.maxAttempts.val := by
        simpa [RetryPolicy.Concludes, Reply.Accepts, Reply.Refuses] using concludes
      exact if_pos (decide_eq_true isLast.ge)
  | networkError =>
      have isLast : attempt = policy.maxAttempts.val := by
        simpa [RetryPolicy.Concludes, Reply.Accepts, Reply.Refuses] using concludes
      exact if_pos (decide_eq_true isLast.ge)
  | status code wait =>
      by_cases accepted : 200 ≤ code ∧ code ≤ 299
      · simp [judge, isSuccess, accepted, Reply.Accepts]
      · have ends : policy.retries code = false ∨ policy.maxAttempts.val ≤ attempt := by
          rcases concludes with accepts | refuses | isLast
          · exact absurd accepts accepted
          · exact .inl (by simpa [RetryPolicy.retries] using refuses.2)
          · exact .inr isLast.ge
        rcases ends with noRetry | isLast
        · simp [judge, isSuccess, accepted, noRetry, Reply.Accepts]
        · simp [judge, isSuccess, accepted, isLast, Reply.Accepts]

/-- After any other reply there is a pause. -/
theorem judge_of_not_concludes (inTime : attempt ≤ policy.maxAttempts.val)
    (goesOn : ¬policy.Concludes attempt reply) (pick : Binary64) :
    judge policy attempt pick reply = (policy.pause attempt pick reply).map .wait := by
  obtain ⟨notAccepted, notRefused, notLast⟩ : ¬reply.Accepts ∧ ¬reply.Refuses policy ∧
      attempt ≠ policy.maxAttempts.val := by
    simpa only [RetryPolicy.Concludes, not_or] using goesOn
  have early : ¬policy.maxAttempts.val ≤ attempt := by omega
  cases reply with
  | timeout => simp [judge, early, RetryPolicy.pause, Reply.asked?]
  | networkError => simp [judge, early, RetryPolicy.pause, Reply.asked?]
  | status code wait =>
      have notSuccess : isSuccess code = false := decide_eq_false notAccepted
      have retried : policy.retries code = true := by
        by_contra notRetried
        exact notRefused ⟨notAccepted, by simpa [RetryPolicy.retries] using notRetried⟩
      simp only [judge, notSuccess, retried, early, RetryPolicy.pause, Reply.asked?,
        decide_false, Bool.not_true, Bool.or_false, Bool.false_eq_true, if_false]
      cases requestedWait? wait <;> rfl

/-! ## All replies -/

/-- From request number `attempt` on, the delivery makes a request for each reply up to the first
one that concludes it, here `more` replies later, where there is a pause after each one before. -/
theorem deliverFrom_eq_ok
    (reported : ∀ number, (replies number).receive address = .ok (replies number))
    (picks : Nat → Binary64) {more left : Nat}
    (paused : ∀ number, attempt ≤ number → number < attempt + more →
      ∃ seconds, policy.pause number (picks number) (replies number) = .ok seconds)
    (inTime : attempt + more ≤ policy.maxAttempts.val) (enough : more ≤ left)
    (ends : policy.Concludes (attempt + more) (replies (attempt + more)))
    (goesOn : ∀ number, attempt ≤ number → number < attempt + more →
      ¬policy.Concludes number (replies number)) :
    ∃ waits, (List.range' attempt more).mapM
        (fun number => policy.pause number (picks number) (replies number)) = .ok waits ∧
      deliverFrom policy address picks replies attempt left =
        .ok ⟨decide (replies (attempt + more)).Accepts, more + 1, waits⟩ := by
  induction more generalizing attempt left with
  | zero =>
      refine ⟨[], rfl, ?_⟩
      rw [Nat.add_zero] at ends ⊢
      rw [deliverFrom, reported, ok_bind, judge_of_concludes ends]
      rfl
  | succ more ih =>
      obtain ⟨left, rfl⟩ := Nat.exists_eq_add_of_le' (by omega : 1 ≤ left)
      have isNext : attempt + (more + 1) = attempt + 1 + more := by omega
      rw [isNext] at inTime ends goesOn paused ⊢
      obtain ⟨waits, pauses, rest⟩ := ih (fun number after => paused number (by omega)) inTime
        (Nat.le_of_succ_le_succ enough) ends fun number after => goesOn number (by omega)
      obtain ⟨seconds, isPause⟩ := paused attempt le_rfl (by omega)
      refine ⟨seconds :: waits, ?_, ?_⟩
      · rw [List.range'_succ, List.mapM_cons, isPause, ok_bind, pauses]
        rfl
      · have judged := judge_of_not_concludes (by omega) (goesOn attempt le_rfl (by omega))
          (picks attempt)
        rw [isPause] at judged
        rw [deliverFrom, reported, ok_bind, judged]
        rw [Except.map, ok_bind]
        dsimp only
        rw [rest]
        rfl

/-- Some reply concludes a delivery: at the latest, the one to its last attempt. -/
theorem exists_conclusion (policy : RetryPolicy) (replies : Nat → Reply) :
    ∃ last, IsLeast {number | 1 ≤ number ∧ policy.Concludes number (replies number)} last ∧
      last ≤ policy.maxAttempts.val := by
  classical
  have some : ∃ number, 1 ≤ number ∧ policy.Concludes number (replies number) :=
    ⟨policy.maxAttempts.val, policy.maxAttempts.property, .inr (.inr rfl)⟩
  refine ⟨Nat.find some, ⟨Nat.find_spec some, fun number concludes => Nat.find_min' some concludes⟩,
    Nat.find_min' some ?_⟩
  exact ⟨policy.maxAttempts.property, .inr (.inr rfl)⟩

/-- A delivery makes as many requests as there are replies up to the first that concludes it, where
there is a pause after each one before. -/
theorem deliver_eq_ok_of_pauses {last : Nat}
    (isLeast : IsLeast {number | 1 ≤ number ∧ policy.Concludes number (replies number)} last)
    (reported : ∀ number, (replies number).receive address = .ok (replies number))
    (paused : ∀ number, 1 ≤ number → number < last →
      ∃ seconds, policy.pause number (picks number) (replies number) = .ok seconds) :
    ∃ waits, (List.range' 1 (last - 1)).mapM
        (fun number => policy.pause number (picks number) (replies number)) = .ok waits ∧
      deliver policy address picks replies = .ok ⟨decide (replies last).Accepts, last, waits⟩ := by
  obtain ⟨more, rfl⟩ := Nat.exists_eq_add_of_le isLeast.1.1
  have inTime : 1 + more ≤ policy.maxAttempts.val :=
    isLeast.2 ⟨policy.maxAttempts.property, .inr (.inr rfl)⟩
  obtain ⟨waits, pauses, delivered⟩ := deliverFrom_eq_ok reported picks paused inTime
    (by omega : more ≤ policy.maxAttempts.val - 1) isLeast.1.2 fun number one before concludes =>
      absurd (isLeast.2 ⟨one, concludes⟩) (by omega)
  refine ⟨waits, ?_, ?_⟩
  · rwa [Nat.add_sub_cancel_left]
  · rw [deliver, delivered, Nat.add_comm more 1]

/-- There is a pause after each reply where the attempts are few enough. -/
theorem deliver_eq_ok (small : policy.maxAttempts.val ≤ 1024)
    (reported : ∀ number, (replies number).receive address = .ok (replies number))
    (picks : Nat → Binary64) :
    ∃ last waits, IsLeast {number | 1 ≤ number ∧ policy.Concludes number (replies number)} last ∧
      (List.range' 1 (last - 1)).mapM
        (fun number => policy.pause number (picks number) (replies number)) = .ok waits ∧
      deliver policy address picks replies = .ok ⟨decide (replies last).Accepts, last, waits⟩ := by
  rcases exists_conclusion policy replies with ⟨last, isLeast, inTime⟩
  obtain ⟨waits, pauses, delivered⟩ := deliver_eq_ok_of_pauses isLeast reported fun number _ before =>
    policy.pause_succeeds (by omega) (picks number) (replies number)
  exact ⟨last, waits, isLeast, pauses, delivered⟩

/-- The pauses after the first replies, one after another. -/
theorem pauses_getElem? {count : Nat} {waits : List Binary64}
    (paused : (List.range' 1 count).mapM
      (fun number => policy.pause number (picks number) (replies number)) = .ok waits) :
    waits.length = count ∧ ∀ number, 1 ≤ number → number ≤ count →
      ∃ seconds, waits[number - 1]? = some seconds ∧
        policy.pause number (picks number) (replies number) = .ok seconds := by
  have related := mapM_eq_ok_iff.mp paused
  have sameLength : waits.length = count := by simpa using related.length_eq.symm
  refine ⟨sameLength, ?_⟩
  intro number one inRange
  have here : number - 1 < waits.length := by omega
  refine ⟨waits[number - 1], List.getElem?_eq_getElem here, ?_⟩
  have at' := List.Forall₂.get related (i := number - 1) (by simpa using by omega) here
  simpa [Nat.add_sub_cancel' one] using at'

/-! ## Whether the payload was accepted -/

/-- A reply is judged to be the acceptance of the payload exactly if it is one. -/
theorem judge_eq_accepted_iff {pick : Binary64} :
    judge policy attempt pick reply = .ok (.done true) ↔ reply.Accepts := by
  have notLater : (policy.delay attempt pick).map Judgement.wait ≠ .ok (.done true) := by
    intro later
    rcases map_eq_ok_iff.mp later with ⟨_, -, ⟨⟩⟩
  constructor
  · intro judged
    unfold judge at judged
    dsimp only at judged
    cases reply with
    | timeout | networkError =>
        dsimp only at judged
        split at judged
        · cases judged
        · exact absurd judged notLater
    | status code wait =>
        dsimp only at judged
        split at judged
        · rename_i isSuccess
          exact of_decide_eq_true isSuccess
        · split at judged
          · cases judged
          · split at judged
            · cases judged
            · exact absurd judged notLater
  · exact fun accepts => (judge_of_concludes (.inl accepts) pick).trans (by simp [accepts])

theorem eq_of_receive {received : Reply} (receives : reply.receive address = .ok received) :
    received = reply := by
  cases reply with
  | timeout | networkError => exact (Except.ok.inj receives).symm
  | status code wait =>
      unfold Reply.receive at receives
      dsimp only at receives
      split at receives
      · exact (Except.ok.inj receives).symm
      · cases receives

/-- A delivery ends with its first reply, or else that reply does not accept the payload and there
is another request. -/
theorem deliverFrom_cases {left : Nat} {delivery : Delivery}
    (delivered : deliverFrom policy address picks replies attempt left = .ok delivery) :
    delivery = ⟨decide (replies attempt).Accepts, 1, []⟩ ∨
      ¬(replies attempt).Accepts ∧ ∃ more seconds rest, left = more + 1 ∧
        deliverFrom policy address picks replies (attempt + 1) more = .ok rest ∧
        delivery = rest.after seconds := by
  rw [deliverFrom] at delivered
  rcases bind_eq_ok_iff.mp delivered with ⟨received, receives, delivered⟩
  rw [eq_of_receive receives] at delivered
  rcases bind_eq_ok_iff.mp delivered with ⟨judgement, judged, delivered⟩
  have accepts : judge policy attempt (picks attempt) (replies attempt) = .ok (.done true) ↔
      (replies attempt).Accepts := judge_eq_accepted_iff
  rw [judged] at accepts
  cases judgement with
  | done accepted =>
      cases delivered
      left
      cases accepted <;> simpa using accepts
  | wait seconds =>
      have refused : ¬(replies attempt).Accepts := fun accepted => by cases accepts.mpr accepted
      cases left with
      | zero =>
          cases delivered
          exact .inl (by rw [decide_eq_false refused])
      | succ more =>
          rcases bind_eq_ok_iff.mp delivered with ⟨rest, further, given⟩
          cases given
          exact .inr ⟨refused, more, seconds, rest, rfl, further, rfl⟩

/-- A delivery that ends counts as accepted exactly if the reply to one of its requests accepts the
payload. -/
theorem accepted_iff_of_deliverFrom {left : Nat} {delivery : Delivery}
    (delivered : deliverFrom policy address picks replies attempt left = .ok delivery) :
    delivery.accepted = true ↔
      ∃ more, more < delivery.requests ∧ (replies (attempt + more)).Accepts := by
  induction left generalizing attempt delivery with
  | zero =>
      rcases deliverFrom_cases delivered with rfl | ⟨_, _, _, _, ⟨⟩, _⟩
      simp
  | succ left ih =>
      rcases deliverFrom_cases delivered with
        rfl | ⟨refused, more, seconds, rest, isNext, further, rfl⟩
      · simp
      · cases isNext
        rw [Delivery.after, ih further]
        constructor
        · rintro ⟨later, inTime, accepts⟩
          exact ⟨later + 1, by simpa using inTime, by rwa [← Nat.add_assoc, Nat.add_right_comm]⟩
        · rintro ⟨_ | later, inTime, accepts⟩
          · exact absurd accepts refused
          · exact ⟨later, by simpa using inTime, by rwa [Nat.add_right_comm, Nat.add_assoc]⟩
/-! ## At a desk -/

namespace Command

/-- The reply to one of the next requests from a desk, counted from one. -/
def Desk.nextReply (desk : Desk) (number : Nat) : Reply :=
  desk.replies (desk.requests.length + number - 1)

/-- The random pick behind the wait after one of the next requests. -/
def Desk.nextPick (desk : Desk) (number : Nat) : Binary64 :=
  desk.picks (desk.requests.length + number - 1)

/-- The desk once the requests of a delivery are made. -/
def Desk.sent (desk : Desk) (request : Request) (delivery : Delivery) : Desk :=
  { desk with
    requests := desk.requests ++ List.replicate delivery.requests request
    waits := desk.waits ++ delivery.waits }

namespace Act

variable {α β : Type} {act : Act α} {desk : Desk}

/-- One act after another, unless the first stops. -/
theorem run_bind (act : Act α) (next : α → Act β) (desk : Desk) :
    (act >>= next).run desk = match act.run desk with
      | (.ok value, after) => (next value).run after
      | (.error stop, after) => (.error stop, after) := by
  change (ExceptT.bindCont next (act.run desk).1).run (act.run desk).2 = _
  rcases act.run desk with ⟨stop | value, after⟩ <;> rfl

/-- Nothing is asked of the controller, and nothing is waited for. -/
def IsLocal (act : Act α) : Prop :=
  ∀ desk : Desk, (act.run desk).2.requests = desk.requests ∧
    (act.run desk).2.waits = desk.waits

theorem isLocal_pure (value : α) : (pure value : Act α).IsLocal :=
  fun _ => ⟨rfl, rfl⟩

theorem isLocal_ofFiles (outcome : FileOutcome α) : (ofFiles outcome).IsLocal := by
  intro desk
  unfold ofFiles ofOutcome
  cases liftFile outcome <;> exact ⟨rfl, rfl⟩

theorem IsLocal.bind (isLocal : act.IsLocal) {next : α → Act β}
    (nextIsLocal : ∀ value, (next value).IsLocal) : (act >>= next).IsLocal := by
  intro desk
  obtain ⟨sameRequests, sameWaits⟩ := isLocal desk
  rw [run_bind]
  rcases ran : act.run desk with ⟨stop | value, after⟩ <;> rw [ran] at sameRequests sameWaits
  · exact ⟨sameRequests, sameWaits⟩
  · obtain ⟨requestsAfter, waitsAfter⟩ := nextIsLocal value after
    exact ⟨requestsAfter.trans sameRequests, waitsAfter.trans sameWaits⟩

theorem isLocal_forM {members : List α} {each : α → Act Unit}
    (isLocal : ∀ member, (each member).IsLocal) : (members.forM each).IsLocal := by
  induction members with
  | nil => exact isLocal_pure ()
  | cons member rest ih => exact (isLocal member).bind fun _ => ih

theorem isLocal_append (path : Path) (text : String) : (append path text).IsLocal := by
  refine IsLocal.bind (fun _ => ⟨rfl, rfl⟩) fun desk => ?_
  exact (isLocal_ofFiles _).bind fun _ _ => ⟨rfl, rfl⟩

theorem isLocal_putLine (outlet : Journal.Outlet) (text : String) :
    (putLine outlet text).IsLocal := by
  unfold putLine
  split
  · exact isLocal_append _ text
  · split <;> exact fun _ => ⟨rfl, rfl⟩

/-- Making a note asks nothing of the controller. -/
theorem isLocal_note (speaker : String) (gravity : Journal.Gravity) (text : String) :
    (note speaker gravity text).IsLocal := by
  refine IsLocal.bind (fun _ => ⟨rfl, rfl⟩) fun desk => ?_
  split
  · exact isLocal_pure ()
  · exact isLocal_forM fun outlet => isLocal_putLine outlet _

/-- Without a journal nothing is written down. -/
theorem note_run_of_noJournal (noJournal : desk.journal = none) (speaker : String)
    (gravity : Journal.Gravity) (text : String) :
    (note speaker gravity text).run desk = (.ok (), desk) := by
  have looks : (get : Act Desk).run desk = (.ok desk, desk) := rfl
  rw [note, run_bind, looks]
  dsimp only
  rw [noJournal]
  rfl

/-- A delivery that ends makes its requests; then the journal tells of one that came to nothing. -/
theorem deliver_run_eq {root : String} (read : Address.state root = .ok address)
    {delivery : Delivery}
    (delivered : Eaves.deliver policy address desk.nextPick desk.nextReply = .ok delivery)
    (payload : Payload) :
    (deliver root policy payload).run desk =
      (do
        if !delivery.accepted then
          note "glowline.core.transport.http" .warning
            (refusalText root delivery.requests (desk.nextReply delivery.requests))
        return delivery.accepted : Act Bool).run (desk.sent ⟨address, payload⟩ delivery) := by
  unfold deliver
  rw [read]
  change (ofOutcome "" (Eaves.deliver policy address desk.nextPick desk.nextReply) >>= _).run
    desk = _
  rw [delivered]
  rfl

/-- What a delivery at a desk leaves there, and what it says. -/
theorem deliver_run {root : String} (read : Address.state root = .ok address)
    {delivery : Delivery}
    (delivered : Eaves.deliver policy address desk.nextPick desk.nextReply = .ok delivery)
    (payload : Payload) :
    ∃ result after, (deliver root policy payload).run desk = (result, after) ∧
      after.requests = desk.requests ++ List.replicate delivery.requests ⟨address, payload⟩ ∧
      after.waits = desk.waits ++ delivery.waits ∧
      (result = .ok true ↔ delivery.accepted = true) ∧
      (desk.journal = none → result = .ok delivery.accepted) := by
  let sent : Desk := desk.sent ⟨address, payload⟩ delivery
  let refusal : Act Unit := note "glowline.core.transport.http" .warning
    (refusalText root delivery.requests (desk.nextReply delivery.requests))
  rw [deliver_run_eq read delivered payload]
  cases isAccepted : delivery.accepted with
  | true => exact ⟨.ok true, sent, rfl, rfl, rfl, by simp, fun _ => rfl⟩
  | false =>
      obtain ⟨sameRequests, sameWaits⟩ := isLocal_note "glowline.core.transport.http" .warning
        (refusalText root delivery.requests (desk.nextReply delivery.requests)) sent
      have ran : (do
          if !false then refusal
          return false : Act Bool).run sent =
            ((refusal.run sent).1.map fun _ => false, (refusal.run sent).2) := by
        change (refusal >>= fun _ => pure false).run sent = _
        rw [run_bind]
        rcases refusal.run sent with ⟨stop | value, after⟩ <;> rfl
      refine ⟨_, _, ran, sameRequests, sameWaits, ?_, ?_⟩
      · cases (refusal.run sent).1 <;> simp [Except.map]
      · intro noJournal
        have stillNone : sent.journal = none := noJournal
        have quiet : refusal.run sent = (.ok (), sent) := note_run_of_noJournal stillNone ..
        rw [quiet]
        rfl

/-- A desk whose controller is first slow, then busy with and without a readable wait, and then
accepts. -/
def slowThenBusy : Desk where
  replies
    | 0 => .timeout
    | 1 => .status 503 (some "7")
    | 2 => .status 429 (some "soon")
    | 3 => .status 204 none
    | _ => .networkError

/-- The usual policy with two more attempts. -/
def fiveAttempts : RetryPolicy where
  maxAttempts := 5

/-- A strip of ten lights switched to red. -/
def redPayload : Payload where
  brightness := 200
  stop := 10
  scene := .effect [[255, 0, 0]] 0 128 128 none

end Act

end Command

end Eaves
