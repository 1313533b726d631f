import Eaves.Check.Verdict
import Eaves.Settings.Basic

/-!
# Checks of spacing rules

Whether a spacing rule fits a number of lights.  A rule that does not fit has a
reason, and alternatives from a small neighbourhood of what was asked for, nearest
first; there is no search beyond the radius in the settings.  A rule whose
parameters no strip could satisfy has none.
-/

namespace Eaves.Check

open Number (Binary64)

/-- Why a rule does not fit, and what might. -/
structure Misfit where
  reason : String
  suggestions : List Suggestion := []
  deriving Repr

/-- Suggestions in order of deviation, those that deviate equally in the order given, cut to
the greatest count. -/
def ranked (settings : CheckSettings) (suggestions : List Suggestion) : List Suggestion :=
  (suggestions.mergeSort fun a b => !b.deviation.lt a.deviation).take
    settings.maxAlternatives.val

/-- The share by which a number deviates from what was asked for. -/
def deviation (candidate wanted : Int) : Outcome Binary64 :=
  liftNumber (Binary64.quotient (candidate - wanted).natAbs wanted)

/-- The ratio of two integers. -/
def ratio (n d : Int) : Outcome Binary64 :=
  liftNumber (Binary64.quotient n d)

/-- The integers at most `radius` away from one. -/
def neighbours (center : Int) (radius : Nat) : List Int :=
  (List.range (2 * radius + 1)).map fun (i : Nat) => center - radius + i

/-! ## Cycles -/

/-- A cycle in words. -/
def cycleLabel (on off : Int) : String :=
  toString on ++ " on, " ++ toString off ++ " off"

/-- The suggestion of another dark count, unless it is none or the one asked for. -/
def otherGap (id description : String) (on off gap : Int) : Outcome (List Suggestion) :=
  if 0 < gap ∧ gap ≠ off then do
    let deviation ← deviation gap off
    return [{
      id := id
      label := cycleLabel on gap
      description := description
      deviation := deviation
      value := .spacing (.pattern on gap true) }]
  else .ok []

/-- The dark count that stretches the full cycles over all lights. -/
def stretched (n on fullCycles : Int) : Outcome Int := do
  let length ← liftNumber (do (← Binary64.quotient n fullCycles).ceil)
  return length - on

/-- The dark count that fits one cycle more. -/
def compressed (n on fullCycles : Int) : Outcome Int :=
  if fullCycles + 1 = 0 then .error (.number .zeroDivisor)
  else .ok (n.fdiv (fullCycles + 1) - on)

/-- The alternatives to a cycle that leaves a remainder. -/
def cycleSuggestions (n on off : Int) (startLit : Bool) (settings : CheckSettings) :
    Outcome (List Suggestion) := do
  let fullCycles := n / (on + off)
  let wider ←
    if 0 < fullCycles then do
      otherGap "stretch" "Wider gaps so the pattern ends cleanly" on off
        (← stretched n on fullCycles)
    else .ok []
  let tighter ← otherGap "compress" "Tighter gaps so the pattern ends cleanly" on off
    (← compressed n on fullCycles)
  let asAsked : Suggestion :=
    { id := "original"
      label := cycleLabel on off ++ " (with remainder)"
      description := "Keep the pattern; the last " ++ toString (n % (on + off)) ++
        " pixels break the rhythm"
      deviation := settings.keepRemainder
      value := .spacing (.pattern on off startLit) }
  return wider ++ tighter ++ [asAsked]

/-- A cycle fits when what remains after the full cycles is at most its lit part. -/
def pattern (n on off : Int) (startLit : Bool) (settings : CheckSettings) :
    Outcome (Option Misfit) :=
  if on ≤ 0 ∨ off < 0 then
    .ok (some { reason := "Invalid spacing: " ++ cycleLabel on off })
  else if n % (on + off) ≤ on then .ok none
  else do
    let suggestions ← cycleSuggestions n on off startLit settings
    return some {
      reason := toString n ++ " pixels leave " ++ toString (n % (on + off)) ++ " extra after " ++
        toString (n / (on + off)) ++ " cycles of " ++ cycleLabel on off
      suggestions := ranked settings suggestions }

/-! ## Equal spacing -/

/-- Whether a number is nearer to an integer than the tolerance. -/
def nearInteger (x tolerance : Binary64) : Outcome Bool :=
  liftNumber do
    let nearest ← Binary64.ofInt (← x.round)
    return (x.sub nearest).abs.lt tolerance

/-- The suggestion to light every light there is, if there is one. -/
def everyLight (n : Int) : List Suggestion :=
  if 1 ≤ n then
    [{ id := "max"
       label := "Use all " ++ toString n ++ " pixels"
       deviation := .decimal 5 1
       value := .spacing (.equallySpaced n) }]
  else []

/-- The suggestion to light half as many lights as there are, if that is one. -/
def halfTheLights (n : Int) : List Suggestion :=
  if 1 ≤ n / 2 then
    [{ id := "half"
       label := "Use " ++ toString (n / 2) ++ " pixels"
       deviation := .decimal 3 1
       value := .spacing (.equallySpaced (n / 2)) }]
  else []

/-- The suggestion of another count, when it is one that fits. -/
def otherCount (n count candidate : Int) (settings : CheckSettings) :
    Outcome (List Suggestion) :=
  if candidate = count ∨ candidate ≤ 1 ∨ n < candidate then .ok []
  else do
    let step ← ratio n (candidate - 1)
    if ← nearInteger step settings.spacingTolerance then do
      let rounded ← liftNumber step.round
      let deviation ← deviation candidate count
      return [{
        id := "count_" ++ toString candidate
        label := toString candidate ++ " LEDs (every " ++ toString rounded ++ " pixels)"
        deviation := deviation
        value := .spacing (.equallySpaced candidate) }]
    else return []

/-- Equal spacing fits when the lights divided by the gaps is nearly whole. -/
def equallySpaced (n count : Int) (settings : CheckSettings) : Outcome (Option Misfit) :=
  if count ≤ 0 then
    .ok (some { reason := "Invalid spacing: count must be positive, got " ++ toString count })
  else if n < count then
    .ok (some {
      reason := "Requested " ++ toString count ++ " lights but the zone has only " ++
        toString n ++ " pixels"
      suggestions := ranked settings (everyLight n ++ halfTheLights n) })
  else if count = 1 then .ok none
  else do
    let step ← ratio n (count - 1)
    if ← nearInteger step settings.spacingTolerance then return none
    else do
      let suggestions ← (neighbours count settings.countRadius.val).mapM fun candidate =>
        otherCount n count candidate settings
      return some {
        reason := toString count ++ " lights over " ++ toString n ++
          " pixels gives uneven spacing of " ++ step.fixed 2
        suggestions := ranked settings suggestions.flatten }

/-! ## Intervals -/

/-- The suggestion of another interval, when it leaves less and fits. -/
def otherInterval (n interval candidate : Int) : Outcome (List Suggestion) :=
  if candidate ≤ 0 ∨ candidate = interval then .ok []
  else if n % candidate < n % interval ∧ n % candidate ≤ candidate / 2 then do
    let deviation ← deviation candidate interval
    return [{
      id := "interval_" ++ toString candidate
      label := "Every " ++ toString candidate ++ " pixels"
      deviation := deviation
      value := .spacing (.everyNth candidate) }]
  else .ok []

/-- An interval fits when at most half of it remains, or when no interval nearby is better. -/
def everyNth (n interval : Int) (settings : CheckSettings) : Outcome (Option Misfit) :=
  if interval ≤ 0 then
    .ok (some {
      reason := "Invalid spacing: interval must be positive, got " ++ toString interval })
  else if n % interval ≤ interval / 2 then .ok none
  else do
    let suggestions := (← (neighbours interval settings.intervalRadius.val).mapM
      fun candidate => otherInterval n interval candidate).flatten
    if suggestions.isEmpty then return none
    else
      return some {
        reason := "Every " ++ toString interval ++ " pixels leaves " ++ toString (n % interval) ++
          " unlit at the end"
        suggestions := ranked settings suggestions }

/-! ## Any rule -/

/-- Why a rule does not fit `n` lights; nothing when it fits. -/
def misfit (n : Int) (rule : Spacing) (settings : CheckSettings) : Outcome (Option Misfit) :=
  match rule with
  | .pattern on off startLit => pattern n on off startLit settings
  | .equallySpaced count => equallySpaced n count settings
  | .everyNth interval => everyNth n interval settings
  | .anchorsOnly | .continuous => .ok none

/-- The verdict on a rule for `n` lights. -/
def spacing (n : Int) (rule : Spacing) (settings : CheckSettings) (layerId : Option String) :
    Outcome Verdict := do
  let misfit ← misfit n rule settings
  return {
    kind := .spacing
    description := rule.description ++ " across " ++ toString n ++ " pixels"
    satisfied := misfit.isNone
    reason := misfit.map Misfit.reason
    suggestions := (misfit.map Misfit.suggestions).getD []
    layerId := layerId }

end Eaves.Check
