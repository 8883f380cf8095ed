import DeviceSuite.DeviceError
import DeviceSuite.Policy
import DeviceSuite.Task.Basic

/-!
# Bounded retry

A failing operation is tried again after a pause, but not without end: only as often as the
policy allows, only after failures that may pass, and not after the stop flag is raised. The last
failure is returned as it is.
-/

namespace DeviceSuite

namespace Task

variable {C : Type} {R : C → Type} {α ε : Type}

/-- Attempt an operation from the attempt with a given number on, with so many attempts left
after it. -/
def attempts (delayMs : Nat) (mayPass : ε → Bool) (onRetry : Nat → ε → Task R Unit)
    (operation : Nat → Task R (Except ε α)) (left : Nat) (attempt : Nat) :
    Task R (Except ε α) :=
  match left with
  | 0 => operation attempt
  | left + 1 => do
    match ← operation attempt with
    | .ok a => return .ok a
    | .error e =>
      if (← isStopped) || !mayPass e then return .error e
      onRetry attempt e
      if ← sleep delayMs then
        attempts delayMs mayPass onRetry operation left (attempt + 1)
      else return .error e

/-- Attempt an operation as often as the policy allows. The operation is told the number of the
attempt, from one on; the hook is told of every failure that another attempt is to follow. -/
def retry (policy : RetryPolicy) (mayPass : ε → Bool) (operation : Nat → Task R (Except ε α))
    (onRetry : Nat → ε → Task R Unit := fun _ _ => done ()) : Task R (Except ε α) :=
  attempts policy.delayMs.toNat mayPass onRetry operation (policy.attempts - 1) 1

end Task

end DeviceSuite
