import DeviceSuite.DeviceError
import DeviceSuite.Policy
import DeviceSuite.Task.Basic

/-!
# Polling

A probe is called again and again until it finds something, an error comes up, the time of the
policy is over, or the stop flag is raised. Two calls begin at least an interval apart, whatever
part of it the first of them takes.
-/

namespace DeviceSuite

/-- How polling ended without an error: whether it was a success and what was found, if anything,
how long it took, and how many calls were made. -/
structure PollOutcome (α : Type) where
  success : Bool
  found : Option α
  waited : Nat
  iterations : Nat

namespace Task

variable {C : Type} {R : C → Type} {α ε : Type}

/-- The number of calls that can be counted; a task that makes more crashes. -/
def maxPolls : Nat := UInt32.size - 1

/-- Poll on, with so many calls made and so many left that can be counted. -/
def polls (policy : PollPolicy) (stopped : ε) (probe : Task R (Except ε (Option α)))
    (started : Nat) (left : Nat) (iterations : Nat) : Task R (Except ε (PollOutcome α)) := do
  let waited := (← now) - started
  if policy.timeoutMs.toNat ≤ waited then return .ok ⟨false, none, waited, iterations⟩
  if ← isStopped then return .error stopped
  match left with
  | 0 => crash
  | left + 1 =>
    let called ← now
    match ← probe with
    | .error e => return .error e
    | .ok (some a) => return .ok ⟨true, some a, (← now) - started, iterations + 1⟩
    | .ok none =>
      let rest := policy.intervalMs.toNat - ((← now) - called)
      if rest = 0 then yield
      else if !(← sleep rest) then return .error stopped
      polls policy stopped probe started left (iterations + 1)

/-- Poll a probe as the policy says; `stopped` is the error that tells of the stop flag. -/
def pollUntil (policy : PollPolicy) (stopped : ε) (probe : Task R (Except ε (Option α))) :
    Task R (Except ε (PollOutcome α)) := do
  polls policy stopped probe (← now) maxPolls 0

end Task

end DeviceSuite
