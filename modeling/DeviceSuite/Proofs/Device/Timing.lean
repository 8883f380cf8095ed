import DeviceSuite.Device.Conduct
import DeviceSuite.Proofs.Device.Waits
import DeviceSuite.Proofs.Task.Reaches

/-!
# How long an action says that it took

A command is timed from before its first attempt, a wait from its first look and a pause from its
beginning, and an action that tells no time is timed as a whole. So whatever a device says itself,
the outcome of an action tells of no more time than has passed since the action began.
-/

namespace DeviceSuite

/-- A span of time is told in full unless it does not fit into a word. -/
theorem toNat_millis (ms : Nat) : (millis ms).toNat = min ms (UInt64.size - 1) :=
  UInt64.toNat_ofNat_of_lt' (Nat.lt_of_le_of_lt (Nat.min_le_right _ _) (by decide))

/-- A longer time is not told to be shorter. -/
theorem millis_mono {ms ms' : Nat} (h : ms ≤ ms') : millis ms ≤ millis ms' := by
  rw [UInt64.le_iff_toNat_le, toNat_millis, toNat_millis]
  omega

/-- An outcome that tells no longer time than this, if it tells one. -/
def Outcome.Within (ms : Nat) (o : Outcome) : Prop := ∀ p ∈ o.performance, p.totalMs ≤ millis ms

namespace Outcome

variable {o : Outcome} {ms : Nat}

/-- A failure tells no time. -/
theorem within_failed (message : String) : (failed message).Within ms := nofun

/-- An outcome tells no longer time than the performance that it is given. -/
theorem within_withPerformance {p : Performance} (h : p.totalMs ≤ millis ms) :
    (o.withPerformance p).Within ms := by
  rintro _ ⟨⟩
  exact h

end Outcome

open DeviceSuite.Task

variable {σ : Type} {s : Service DeviceCall.Reply σ} {m : Moment σ}

/-- A command tells the time from before its first attempt. -/
theorem Command.reaches_conduct (c : Command) (policy : RetryPolicy) :
    (c.conduct policy).Reaches s m fun r m' => ∀ o, r = .ok o → o.Within (m'.now - m.now) := by
  rw [conduct, reaches_now_bind, reaches_bind]
  refine (reaches_later s _ m).mono fun result m₁ _ => ?_
  cases result with
  | error e => exact reaches_pure.2 nofun
  | ok x =>
    rw [reaches_now_bind, reaches_pure]
    rintro _ ⟨⟩
    exact Outcome.within_withPerformance (UInt64.le_refl _)

/-- A wait tells the time from its first look. -/
theorem Target.reaches_await (t : Target) (present : Bool) (policy : PollPolicy) :
    (t.await present policy).Reaches s m
      fun r m' => ∀ o, r = .ok o → o.Within (m'.now - m.now) := by
  rw [await, reaches_bind]
  apply Goes.reaches
  apply goes_watches.mono
  rintro log _ m₁ hwatches r ⟨⟩
  obtain ⟨idle, last, m₀, -, -, hcount, -, hcloses⟩ := hwatches.closes
  rw [reaches_pure]
  rintro _ ho
  cases r with
  | error e => cases ho
  | ok polled =>
    obtain ⟨-, -, hwaited, -⟩ := hcloses.of_ok hcount
    cases ho
    rw [awaited, hwaited]
    split <;> exact Outcome.within_withPerformance (UInt64.le_refl _)

namespace Action

/-- A pause tells the time that it lasted. -/
theorem reaches_rest (ms : UInt64) :
    (rest ms).Reaches s m fun r m' => ∀ o, r = .ok o → o.Within (m'.now - m.now) := by
  rw [rest, reaches_now_bind, reaches_sleep_bind]
  split
  · rw [reaches_now_bind, reaches_pure]
    rintro _ ⟨⟩
    exact Outcome.within_withPerformance (UInt64.le_refl _)
  · exact reaches_pure.2 nofun

/-- An action tells no longer time than it takes. -/
theorem reaches_conduct (a : Action) (settings : Settings) (options : StepOptions) :
    (a.conduct settings options).Reaches s m
      fun r m' => ∀ o, r = .ok o → o.Within (m'.now - m.now) := by
  cases a with
  | perform command => exact command.reaches_conduct _
  | pause ms => exact reaches_rest ms
  | await target present => exact target.reaches_await present _

end Action

namespace Outcome

variable {o : Outcome} {ms : Nat}

/-- The outcome that is made of what an action comes to, and whether it was broken off by a stop. -/
def verdict : Except DeviceError Outcome → Outcome × Bool
  | .ok outcome => (outcome, false)
  | .error e => (failed e.text, decide (e = DeviceError.stopped))

/-- The outcome with a time, which is its own unless that is none. -/
def timed (o : Outcome) (elapsed : Nat) : Outcome :=
  let performance := o.performance.getD .zero
  let totalMs := if performance.totalMs = 0 then millis elapsed else performance.totalMs
  o.withPerformance { performance with totalMs := totalMs }

/-- The verdict on an action tells no longer time than the action does. -/
theorem Within.verdict {result : Except DeviceError Outcome}
    (h : ∀ o, result = .ok o → o.Within ms) : (verdict result).1.Within ms := by
  cases result with
  | ok o => exact h o rfl
  | error e => exact within_failed _

/-- An outcome always tells its time once that has been measured, and never more than that. -/
theorem Within.timed (h : o.Within ms) :
    ∃ p, (o.timed ms).performance = some p ∧ p.totalMs ≤ millis ms := by
  refine ⟨_, rfl, ?_⟩
  dsimp only
  split
  · exact UInt64.le_refl _
  · cases hp : o.performance with
    | none => exact UInt64.zero_le
    | some p => exact h p hp

end Outcome

namespace Node

/-- What the action of a node comes to; a node without an action fails. -/
def attempt (n : Node) (settings : Settings) (options : StepOptions) :
    DeviceTask (Except DeviceError Outcome) :=
  match n.action with
  | .ok action => action.conduct settings options
  | .error e => pure (.ok (.failed e.message))

/-- The outcome of a node is made of what its action comes to, and of the time that this took. -/
theorem conduct_eq (n : Node) (settings : Settings) (options : StepOptions) :
    n.conduct settings options = (do
      let started ← now
      let result ← n.attempt settings options
      let ended ← now
      return ((Outcome.verdict result).1.timed (ended - started), (Outcome.verdict result).2)) := by
  rw [conduct, attempt]
  refine congrArg _ (funext fun started => ?_)
  cases n.action with
  | ok a =>
    refine congrArg _ (funext fun result => ?_)
    cases result <;> rfl
  | error e => rfl

/-- The outcome of the action of a node tells a time, and no longer one than has passed. -/
theorem reaches_conduct (n : Node) (settings : Settings) (options : StepOptions) :
    (n.conduct settings options).Reaches s m
      fun x m' => ∃ p, x.1.performance = some p ∧ p.totalMs ≤ millis (m'.now - m.now) := by
  have hattempt : (n.attempt settings options).Reaches s m
      fun r m' => ∀ o, r = .ok o → o.Within (m'.now - m.now) := by
    rw [attempt]
    cases n.action with
    | ok a => exact a.reaches_conduct settings options
    | error e =>
      rw [reaches_pure]
      rintro _ ⟨⟩
      exact Outcome.within_failed _
  rw [conduct_eq, reaches_now_bind, reaches_bind]
  refine hattempt.mono fun result m' hresult => ?_
  rw [reaches_now_bind, reaches_pure]
  exact (Outcome.Within.verdict hresult).timed

end Node

end DeviceSuite
