import DeviceSuite.Device.Conduct
import DeviceSuite.Proofs.Device.Heed
import DeviceSuite.Proofs.Device.Waits
import DeviceSuite.Proofs.Task.Spending
import Mathlib.Algebra.Order.Floor.Div

/-!
# How often a device is worked

A command and a condition work the device as often as they may be attempted. A wait works it as
often as its interval fits into its time: its looks begin at least an interval apart, however long
they take, and all of them begin before the time is over.
-/

namespace DeviceSuite

variable {σ : Type}

instance : DecidablePred DeviceCall.Acts
  | .perform _ | .locate _ => .isTrue trivial
  | .environment | .appInfo | .screenshot => .isFalse id

/-- How often an action may work the device. -/
def Action.callLimit (settings : Settings) (options : StepOptions) : Action → Nat
  | perform _ => (settings.retryFor options).attempts
  | pause _ => 0
  | await _ _ =>
    (settings.pollFor options).timeoutMs.toNat ⌈/⌉ (settings.pollFor options).intervalMs.toNat

/-- How often a node may work the device at a visit, under its own options. -/
def Node.callLimit (n : Node) (settings : Settings) : Nat :=
  if n.options.disabled then 0 else
  match n.kind with
  | .start | .finish => 0
  | .condition => match n.condition with
    | .ok _ => (settings.retryFor n.options).attempts
    | .error _ => 0
  | .action => match n.action with
    | .ok action => action.callLimit settings n.options
    | .error _ => 0

/-- What fits into a time fits into it with something to spare. -/
theorem lt_ceilDiv {k interval time : Nat} (hinterval : 1 ≤ interval) (h : k * interval < time) :
    k < time ⌈/⌉ interval := by
  rw [← Nat.not_le, ceilDiv_le_iff_le_mul hinterval, Nat.mul_comm, Nat.not_le]
  exact h

namespace Target

variable {t : Target} {present : Bool} {policy : PollPolicy} {s : Service DeviceCall.Reply σ}
  {m m' : Moment σ} {log : List (Exchange DeviceCall.Reply)}
  {r : Option (Except DeviceError (PollOutcome Finding))}

/-- The looks of a wait are no more than the intervals that begin in its time. -/
theorem Looks.length_le (h : t.Looks policy m.now m log)
    (hinterval : 1 ≤ policy.intervalMs.toNat) :
    log.length ≤ policy.timeoutMs.toNat ⌈/⌉ policy.intervalMs.toNat := by
  rcases hlen : log.length with _ | k
  · exact Nat.zero_le _
  · have hk : k < log.length := hlen ▸ Nat.lt_succ_self k
    have hbegan := h.paced.le_began (List.getElem?_eq_getElem hk)
    have hearly := h.early log[k] (List.getElem_mem hk)
    exact lt_ceilDiv hinterval (by omega)

/-- A wait whose looks are answered crashes only if it has time for more looks than it can count. -/
theorem Watches.lt_of_none (h : t.Watches present policy m.now 0 m log none m')
    (hinterval : 1 ≤ policy.intervalMs.toNat) (hanswered : ∀ x ∈ log, x.look? ≠ none) :
    Task.maxPolls < policy.timeoutMs.toNat ⌈/⌉ policy.intervalMs.toNat := by
  obtain ⟨-, idle, last, m₀, rfl, -, -, hlate, hcloses⟩ := h
  rcases hcloses.of_none with ⟨x, hx, hlook⟩ | ⟨-, hmax, rfl, hwait⟩
  · exact absurd hlook (hanswered x (List.mem_append_right _ hx))
  · have hspent := Exchange.le_nextAt policy.intervalMs.toNat m.now idle
    rw [Nat.zero_add] at hmax
    rw [← hlate, hmax] at hspent
    exact lt_ceilDiv hinterval (by omega)

end Target

open DeviceSuite.Task

section

variable {s : Service DeviceCall.Reply σ} {X : Prop} {k : Nat}

/-- A command or a look that is answered works the device once. -/
theorem spends_act (h : s.Replies DeviceCall.Acts) {c : DeviceCall} (hc : c.Acts) :
    (ask c).Spends s (fun c => decide c.Acts) X 1 := by
  have hone : (decide c.Acts).toNat = 1 := by simp [hc]
  exact hone ▸ spends_ask fun now state c' hc' => h now state c' (hc' ▸ hc)

/-- A command works the device as often as there are attempts at most. -/
theorem Command.spends_conduct (h : s.Replies DeviceCall.Acts) (c : Command)
    (policy : RetryPolicy) :
    (c.conduct policy).Spends s (fun c => decide c.Acts) X policy.attempts := by
  have hattempt : ∀ i, (do return (← ask (DeviceCall.perform c)).map fun outcome => (i, outcome) :
      DeviceTask (Except DeviceError (Nat × Outcome))).Spends s (fun c => decide c.Acts) X 1 :=
    fun i => (spends_act h (c := .perform c) trivial).bind_free fun _ => spends_pure _
  rw [conduct]
  apply Spends.now_bind
  intro started
  have hretry := spends_retry policy DeviceError.isRetryable hattempt
  rw [Nat.mul_one] at hretry
  apply hretry.bind_free
  intro r
  cases r with
  | error e => exact spends_pure _
  | ok x => exact Spends.now_bind fun _ => spends_pure _

/-- A wait works the device as often at most as intervals fit into its time. -/
theorem Target.spends_await (h : s.Replies DeviceCall.Acts) (t : Target) (present : Bool)
    (policy : PollPolicy) (hinterval : 1 ≤ policy.intervalMs.toNat)
    (hX : Task.maxPolls < policy.timeoutMs.toNat ⌈/⌉ policy.intervalMs.toNat → X) :
    (t.await present policy).Spends s (fun c => decide c.Acts) X
      (policy.timeoutMs.toNat ⌈/⌉ policy.intervalMs.toNat) := by
  have hpoll : (pollUntil policy .stopped (t.look present)).Spends s (fun c => decide c.Acts) X
      (policy.timeoutMs.toNat ⌈/⌉ policy.intervalMs.toNat) := by
    intro m
    have hwatches : t.Watches present policy m.now 0 m _ _ _ := goes_watches (s := s)
    refine ⟨List.countP_le_length.trans (hwatches.looks.length_le hinterval), fun hnone => ?_⟩
    rw [hnone] at hwatches
    refine hX (hwatches.lt_of_none hinterval fun x hx hlook => ?_)
    obtain ⟨m', hx'⟩ := exists_record hx
    rw [hwatches.looks.target x hx] at hx'
    have hacts : (DeviceCall.locate t).Acts := trivial
    obtain ⟨reply, hreply⟩ := h.exchange (m := m') hacts
    have hsome : (s.record m' (.locate t)).look? = some reply := hreply
    cases (hx' ▸ hlook).symm.trans hsome
  rw [await]
  exact hpoll.bind_free fun _ => spends_pure _

/-- An action works the device no more often than it may. -/
theorem Action.spends_conduct (h : s.Replies DeviceCall.Acts) (a : Action) (settings : Settings)
    (options : StepOptions)
    (hinterval : a.kind.isWait = true → 1 ≤ (settings.pollFor options).intervalMs.toNat)
    (hX : Task.maxPolls < a.callLimit settings options → X) :
    (a.conduct settings options).Spends s (fun c => decide c.Acts) X
      (a.callLimit settings options) := by
  cases a with
  | perform command => exact command.spends_conduct h _
  | pause ms =>
    apply Spends.now_bind
    intro started
    apply Spends.sleep_bind
    intro full
    cases full with
    | true => exact Spends.now_bind fun _ => spends_pure _
    | false => exact spends_pure _
  | await target present =>
    have hwait : (Action.await target present).kind.isWait = true := by
      cases target <;> cases present <;> rfl
    exact target.spends_await h present _ (hinterval hwait) hX

/-- A condition works the device as often as there are attempts at most. -/
theorem Condition.spends_holds (h : s.Replies DeviceCall.Acts) (c : Condition)
    (policy : RetryPolicy) :
    (c.holds policy).Spends s (fun c => decide c.Acts) X policy.attempts := by
  have hlook (_ : Nat) :
      (ask (DeviceCall.locate c.target)).Spends s (fun c => decide c.Acts) X 1 :=
    spends_act h (c := .locate c.target) trivial
  have hretry := spends_retry policy DeviceError.isRetryable hlook
  rw [Nat.mul_one] at hretry
  rw [holds]
  apply hretry.bind_free
  intro r
  cases r <;> exact spends_pure _

namespace Node

variable {n : Node} {settings : Settings}

/-- The action of a node works the device no more often than the node may. -/
theorem spends_conduct (h : s.Replies DeviceCall.Acts) (henabled : n.options.disabled = false)
    (hkind : n.kind = .action)
    (hinterval : ∀ a, n.action = .ok a → a.kind.isWait = true →
      1 ≤ (settings.pollFor n.options).intervalMs.toNat)
    (hX : Task.maxPolls < n.callLimit settings → X) :
    (n.conduct settings n.options).Spends s (fun c => decide c.Acts) X (n.callLimit settings) := by
  rw [conduct]
  apply Spends.now_bind
  intro started
  simp only [callLimit, henabled, hkind, Bool.false_eq_true, ↓reduceIte] at hX ⊢
  cases haction : n.action with
  | error e => exact Spends.now_bind fun _ => spends_pure _
  | ok a =>
    rw [haction] at hX
    apply (a.spends_conduct h settings n.options (hinterval a haction) hX).bind_free
    intro result
    exact Spends.now_bind fun _ => spends_pure _

/-- An enabled condition node works the device no more often than its limit allows. -/
theorem spends_evaluate (h : s.Replies DeviceCall.Acts) (henabled : n.options.disabled = false)
    (hkind : n.kind = .condition) :
    (n.evaluate settings n.options).Spends s (fun c => decide c.Acts) X (n.callLimit settings) := by
  simp only [callLimit, evaluate, henabled, hkind, Bool.false_eq_true, ↓reduceIte]
  cases n.condition with
  | error e => exact spends_pure _
  | ok c => exact c.spends_holds h _

end Node

end

end DeviceSuite
