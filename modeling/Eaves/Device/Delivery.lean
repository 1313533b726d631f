import Eaves.Device.Address
import Eaves.Settings.Basic
import Eaves.Text.Numeral

/-!
# Delivery

A payload is posted to the controller until it is accepted, refused for good, or
out of attempts.  What the controller answers to each request in turn is a
parameter, so a delivery is a function: how many requests it makes, how long it
waits between them, and whether the payload was accepted.

How long it waits doubles from retry to retry up to a bound, and is then moved by a
random share in either direction; a controller may also say itself how long to wait.
Randomness is a parameter too: a pick between zero and one.
-/

namespace Eaves

open Number (Binary64)

/-! ## Waits -/

namespace RetryPolicy

/-- Two to the power of an integer, in the format; a power beyond it is refused, and so is a
negative exponent beyond it. -/
def powerOfTwo (exponent : Int) : Outcome Binary64 :=
  if exponent < -1100 then
    (liftNumber (Binary64.ofInt exponent)).map fun _ => .finite 0
  else if exponent < 0 then .ok (Binary64.ofRat (mkRat 1 (Number.twoTo (-exponent).toNat)))
  else if 1024 ≤ exponent then .error (.number .integerTooLarge)
  else .ok (Binary64.ofRat (Number.twoTo exponent.toNat : Int))

/-- The delay before retry number `attempt`, before it is moved. -/
def plainDelay (policy : RetryPolicy) (attempt : Int) : Outcome Binary64 :=
  (powerOfTwo (attempt - 1)).map fun factor =>
    policy.maxDelay.least (policy.baseDelay.mul factor)

/-- The number at a pick of the way between two. -/
def pickBetween (low high pick : Binary64) : Binary64 :=
  low.add ((high.sub low).mul pick)

/-- A delay moved by at most a share of itself, and not below zero. -/
def moved (delay jitter pick : Binary64) : Binary64 :=
  let spread := delay.mul jitter
  (Binary64.finite 0).greatest (delay.add (pickBetween spread.neg spread pick))

/-- The delay before retry number `attempt`. -/
def delay (policy : RetryPolicy) (attempt : Int) (pick : Binary64) : Outcome Binary64 :=
  (policy.plainDelay attempt).map fun delay =>
    if (Binary64.finite 0).lt policy.jitter then moved delay policy.jitter pick else delay

/-- Whether a status is worth another try. -/
def retries (policy : RetryPolicy) (status : Int) : Bool :=
  policy.retryStatuses.contains status

end RetryPolicy

/-- The seconds a controller asks to wait: a number that is not negative. -/
def requestedWait? (header : Option String) : Option Binary64 := do
  let text ← header
  if text.isEmpty then none
  else
    let seconds ← Text.realNumeral? text.toList
    if (Binary64.finite 0).le seconds then some seconds else none

/-! ## Replies -/

/-- What comes back from one request. -/
inductive Reply where
  | timeout
  | networkError
  /-- A response with a status and perhaps the wait the controller asks for. -/
  | status (code : Int) (wait : Option String)
  deriving DecidableEq, Repr

/-- Whether a status says that the payload was accepted. -/
def isSuccess (code : Int) : Bool :=
  decide (200 ≤ code ∧ code ≤ 299)

/-- A reply as it comes in from an address: no response is taken from one without a scheme. -/
def Reply.receive (address : Address) : Reply → Outcome Reply
  | .status code wait =>
      if address.isTyped then .ok (.status code wait) else .error (.untypedAddress address.text)
  | reply => .ok reply

/-- How a delivery goes on after a reply. -/
inductive Judgement where
  | done (accepted : Bool)
  | wait (seconds : Binary64)
  deriving DecidableEq, Repr

/-- What a reply to request number `attempt` means. -/
def judge (policy : RetryPolicy) (attempt : Nat) (pick : Binary64) (reply : Reply) :
    Outcome Judgement :=
  let isLast := decide (policy.maxAttempts.val ≤ attempt)
  let later : Outcome Judgement := (policy.delay attempt pick).map .wait
  match reply with
  | .timeout | .networkError => if isLast then .ok (.done false) else later
  | .status code wait =>
      if isSuccess code then .ok (.done true)
      else if !policy.retries code || isLast then .ok (.done false)
      else
        match requestedWait? wait with
        | some seconds => .ok (.wait seconds)
        | none => later

/-! ## Deliveries -/

/-- What a delivery came to. -/
structure Delivery where
  accepted : Bool
  requests : Nat
  waits : List Binary64
  deriving DecidableEq, Repr

/-- A delivery with one more request and wait before it. -/
def Delivery.after (seconds : Binary64) (delivery : Delivery) : Delivery :=
  { delivery with requests := delivery.requests + 1, waits := seconds :: delivery.waits }

/-- The delivery to an address from request number `attempt` on, when `left` more may follow;
`replies` gives the reply to each request by its number, `picks` the random pick. -/
def deliverFrom (policy : RetryPolicy) (address : Address) (picks : Nat → Binary64)
    (replies : Nat → Reply) : (attempt left : Nat) → Outcome Delivery
  | attempt, left => do
      let reply ← (replies attempt).receive address
      match ← judge policy attempt (picks attempt) reply with
      | .done accepted => return ⟨accepted, 1, []⟩
      | .wait seconds =>
          match left with
          | 0 => return ⟨false, 1, []⟩
          | more + 1 =>
              let rest ← deliverFrom policy address picks replies (attempt + 1) more
              return rest.after seconds

/-- The delivery of a payload to an address, whose first request has number one. -/
def deliver (policy : RetryPolicy) (address : Address) (picks : Nat → Binary64)
    (replies : Nat → Reply) : Outcome Delivery :=
  deliverFrom policy address picks replies 1 (policy.maxAttempts.val - 1)

end Eaves
