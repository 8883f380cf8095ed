import DeviceSuite.Proofs.Device.Heed
import DeviceSuite.Proofs.Task.Alike

/-!
# What a device does is timeless

An action never asks what time it is, but only how much has passed since it began. So where the
commands and looks of a device are replied to alike, actions and conditions come to the same
whenever they are begun: the same outcome after the same time.
-/

namespace DeviceSuite

namespace Task

section

variable {C : Type} {R : C → Type} {α β ε τ : Type}

/-- A task that comes to the same in both surroundings. -/
def Timeless (K : Comparison R τ) (t : Task R α) : Prop := t.Alike K (· = ·) t

variable {K : Comparison R τ}

/-- A task that ends at once is timeless. -/
theorem timeless_pure (a : α) : (pure a : Task R α).Timeless K := alike_pure rfl

/-- To make a call that is replied to alike is timeless. -/
theorem timeless_ask {c : C} (h : K.Replies c c (· = ·)) : (ask c).Timeless K := alike_ask h

/-- Whatever goes on alike from each result of a timeless task is alike. -/
theorem Timeless.alike_bind {β' : Type} {F : β → β' → Prop} {t : Task R α} {f : α → Task R β}
    {g : α → Task R β'} (ht : t.Timeless K) (hf : ∀ a, (f a).Alike K F (g a)) :
    (t >>= f).Alike K F (t >>= g) := by
  refine Alike.bind ht ?_
  rintro a _ rfl
  exact hf a

/-- Timeless tasks one after the other are timeless. -/
theorem Timeless.bind {t : Task R α} {f : α → Task R β} (ht : t.Timeless K)
    (hf : ∀ a, (f a).Timeless K) : (t >>= f).Timeless K :=
  ht.alike_bind hf

/-- To read the stop flag is timeless. -/
theorem timeless_isStopped : (isStopped : Task R Bool).Timeless K := alike_isStopped

/-- A pause is timeless. -/
theorem timeless_sleep (ms : Nat) : (sleep ms : Task R Bool).Timeless K := alike_sleep ms

/-- An operation that is retried is timeless if each attempt is. -/
theorem timeless_attempts {mayPass : ε → Bool} {onRetry : Nat → ε → Task R Unit}
    (hhook : ∀ i e, (onRetry i e).Timeless K) {operation : Nat → Task R (Except ε α)}
    (hoperation : ∀ i, (operation i).Timeless K) (delayMs left i : Nat) :
    (attempts delayMs mayPass onRetry operation left i).Timeless K := by
  induction left generalizing i with
  | zero => exact hoperation i
  | succ left ih =>
    rw [attempts]
    refine (hoperation i).bind fun r => ?_
    cases r with
    | ok a => exact timeless_pure _
    | error e =>
      refine timeless_isStopped.bind fun stopped => ?_
      split
      · exact timeless_pure _
      · refine (hhook i e).bind fun _ => (timeless_sleep delayMs).bind fun full => ?_
        cases full with
        | true => exact ih (i + 1)
        | false => exact timeless_pure _

/-- A retried operation is timeless if each attempt is. -/
theorem timeless_retry {mayPass : ε → Bool} {operation : Nat → Task R (Except ε α)}
    (hoperation : ∀ i, (operation i).Timeless K) (policy : RetryPolicy) :
    (retry policy mayPass operation).Timeless K :=
  timeless_attempts (fun _ _ => timeless_pure ()) hoperation _ _ _

/-- A poll counts the time from its beginning, so it is alike to one that began elsewhere. -/
theorem alike_polls {stopped : ε} {probe : Task R (Except ε (Option α))}
    (hprobe : probe.Timeless K) (policy : PollPolicy) {started started' : Nat}
    (h : Level K.start K.start' started started') (left iterations : Nat) :
    (polls policy stopped probe started left iterations).Alike K (· = ·)
      (polls policy stopped probe started' left iterations) := by
  have hpure : ∀ o : Except ε (PollOutcome α), (pure o : Task R _).Timeless K := timeless_pure
  induction left generalizing iterations with
  | zero =>
    rw [polls, polls]
    refine alike_now.bind fun ms ms' hms => ?_
    rw [h.sub hms]
    dsimp only
    split
    · exact hpure _
    · refine timeless_isStopped.alike_bind fun b => ?_
      cases b with
      | true => exact hpure _
      | false => exact alike_crash
  | succ left ih =>
    rw [polls, polls]
    refine alike_now.bind fun ms ms' hms => ?_
    rw [h.sub hms]
    dsimp only
    split
    · exact hpure _
    · refine timeless_isStopped.alike_bind fun b => ?_
      cases b with
      | true => exact hpure _
      | false =>
        refine alike_now.bind fun called called' hcalled => ?_
        refine hprobe.alike_bind fun r => ?_
        rcases r with e | _ | a
        · exact hpure _
        · refine alike_now.bind fun ms ms' hms => ?_
          rw [hcalled.sub hms]
          split
          · exact alike_yield.bind fun _ _ _ => ih (iterations + 1)
          · refine (timeless_sleep _).alike_bind fun full => ?_
            cases full with
            | true => exact ih (iterations + 1)
            | false => exact hpure _
        · refine alike_now.bind fun ms ms' hms => ?_
          rw [h.sub hms]
          exact hpure _

/-- Polling is timeless if the probe is. -/
theorem timeless_pollUntil {stopped : ε} {probe : Task R (Except ε (Option α))}
    (hprobe : probe.Timeless K) (policy : PollPolicy) :
    (pollUntil policy stopped probe).Timeless K :=
  alike_now.bind fun _ _ h => alike_polls hprobe policy h maxPolls 0

end

end Task

open DeviceSuite.Task

variable {τ : Type} {K : Comparison DeviceCall.Reply τ}

/-- The commands and looks of a device are replied to alike. -/
def Comparison.Working (K : Comparison DeviceCall.Reply τ) : Prop :=
  ∀ c : DeviceCall, c.Acts → K.Replies c c (· = ·)

/-- A command is timeless. -/
theorem Command.timeless_conduct (hK : K.Working) (c : Command) (policy : RetryPolicy) :
    (c.conduct policy).Timeless K := by
  rw [conduct]
  refine alike_now.bind fun started started' hstarted => ?_
  have hattempt : ∀ i, Task.Timeless K
      (do return (← ask (DeviceCall.perform c)).map fun outcome => (i, outcome) :
        DeviceTask (Except DeviceError (Nat × Outcome))) := fun i =>
    (timeless_ask (hK (.perform c) trivial)).bind fun _ => timeless_pure _
  refine (timeless_retry hattempt policy).alike_bind fun r => ?_
  rcases r with e | ⟨attempt, outcome⟩
  · exact timeless_pure _
  · refine alike_now.bind fun ended ended' hended => ?_
    rw [hstarted.sub hended]
    exact timeless_pure _

/-- A look is timeless. -/
theorem Target.timeless_look (hK : K.Working) (t : Target) (present : Bool) :
    (t.look present).Timeless K := by
  rw [look]
  refine (timeless_ask (hK (.locate t) trivial)).bind fun r => ?_
  cases r <;> exact timeless_pure _

/-- A wait is timeless. -/
theorem Target.timeless_await (hK : K.Working) (t : Target) (present : Bool)
    (policy : PollPolicy) : (t.await present policy).Timeless K :=
  (timeless_pollUntil (t.timeless_look hK present) policy).bind fun _ => timeless_pure _

namespace Action

/-- A rest is timeless. -/
theorem timeless_rest (ms : UInt64) : (rest ms).Timeless K := by
  rw [rest]
  refine alike_now.bind fun started started' hstarted => ?_
  refine (timeless_sleep _).alike_bind fun full => ?_
  cases full with
  | true =>
    refine alike_now.bind fun ended ended' hended => ?_
    rw [hstarted.sub hended]
    exact timeless_pure _
  | false => exact timeless_pure _

/-- An action is timeless. -/
theorem timeless_conduct (hK : K.Working) (a : Action) (settings : Settings)
    (options : StepOptions) : (a.conduct settings options).Timeless K := by
  cases a with
  | perform command => exact command.timeless_conduct hK _
  | pause ms => exact timeless_rest ms
  | await target present => exact target.timeless_await hK present _

end Action

/-- A condition is timeless. -/
theorem Condition.timeless_holds (hK : K.Working) (c : Condition) (policy : RetryPolicy) :
    (c.holds policy).Timeless K := by
  rw [holds]
  have hlook : ∀ _ : Nat, (ask (DeviceCall.locate c.target)).Timeless K := fun _ =>
    timeless_ask (hK (.locate c.target) trivial)
  refine (timeless_retry hlook policy).bind fun r => ?_
  cases r <;> exact timeless_pure _

namespace Node

/-- The action of a node comes to the same outcome whenever it is begun. -/
theorem timeless_conduct (hK : K.Working) (n : Node) (settings : Settings)
    (options : StepOptions) : (n.conduct settings options).Timeless K := by
  rw [conduct]
  refine alike_now.bind fun started started' hstarted => ?_
  have hrest : ∀ o : Outcome × Bool, Task.Alike K (· = ·)
      (do
        let elapsed := (← now) - started
        let performance := o.1.performance.getD .zero
        let totalMs := if performance.totalMs = 0 then millis elapsed else performance.totalMs
        return (o.1.withPerformance { performance with totalMs := totalMs }, o.2))
      (do
        let elapsed := (← now) - started'
        let performance := o.1.performance.getD .zero
        let totalMs := if performance.totalMs = 0 then millis elapsed else performance.totalMs
        return (o.1.withPerformance { performance with totalMs := totalMs }, o.2)) := by
    refine fun o => alike_now.bind fun ended ended' hended => ?_
    rw [hstarted.sub hended]
    exact timeless_pure _
  cases n.action with
  | error e => exact hrest (.failed e.message, false)
  | ok action =>
    refine (action.timeless_conduct hK settings options).alike_bind fun r => ?_
    rcases r with e | outcome
    · exact hrest (.failed e.text, Decidable.decide (e = DeviceError.stopped))
    · exact hrest (outcome, false)

/-- The answer of a node is timeless. -/
theorem timeless_evaluate (hK : K.Working) (n : Node) (settings : Settings)
    (options : StepOptions) : (n.evaluate settings options).Timeless K := by
  rw [evaluate]
  split
  · exact Condition.timeless_holds hK _ _
  · exact timeless_pure _

end Node

end DeviceSuite
