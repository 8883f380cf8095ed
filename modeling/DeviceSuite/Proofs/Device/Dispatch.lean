import DeviceSuite.Proofs.Codec.Actions
import DeviceSuite.Proofs.Device.Timing
import DeviceSuite.Proofs.Task.Tries

/-!
# The calls of an action

Whatever action a node names, it is made of one kind of call to the device, and the call is told by
the name of the action and by the arguments that are read with it. A command is called until it
succeeds, as often as the retry policy allows; a wait looks for its target; a pause calls nothing,
and neither does a node whose action cannot be read.
-/

namespace DeviceSuite

open DeviceSuite.Task

/-- The name of the call that an action of the kind is made of, unless it needs none. -/
def ActionKind.method? : ActionKind → Option String
  | wait => none
  | waitUntilExists | waitUntilGone => some "elementExists"
  | waitUntilTextExists | waitUntilTextGone => some "textExists"
  | waitUntilImage | waitUntilImageGone => some "findImage"
  | kind => some kind.name

/-- The call that an action is made of, unless it needs none. -/
def Action.call? : Action → Option DeviceCall
  | perform c => some (.perform c)
  | pause _ => none
  | await t _ => some (.locate t)

/-- The name of the call is told by the kind of the action alone. -/
theorem Action.method?_kind (a : Action) : a.kind.method? = a.call?.map DeviceCall.name := by
  cases a with
  | perform c => cases c <;> rfl
  | pause ms => rfl
  | await t present => cases t <;> cases present <;> rfl

/-- There are fewer attempts than a word can count. -/
theorem RetryPolicy.attempts_lt (policy : RetryPolicy) : policy.attempts < UInt32.size :=
  Nat.max_lt.2 ⟨by decide, policy.maxAttempts.toNat_lt⟩

/-- What a command comes to in a call, if it is answered. -/
def Exchange.outcome? : Exchange DeviceCall.Reply → Option (Except DeviceError Outcome)
  | ⟨.perform _, _, _, reply⟩ => reply
  | _ => none

/-- A command that comes to nothing has not been answered. -/
theorem Exchange.reply_of_outcome? {x : Exchange DeviceCall.Reply} {c : Command}
    (hx : x.call = .perform c) (h : x.outcome? = none) : x.reply = none := by
  obtain ⟨call, began, ended, reply⟩ := x
  cases hx
  exact h

/-- A look that comes to nothing has not been answered. -/
theorem Exchange.reply_of_look? {x : Exchange DeviceCall.Reply} {t : Target}
    (hx : x.call = .locate t) (h : x.look? = none) : x.reply = none := by
  obtain ⟨call, began, ended, reply⟩ := x
  cases hx
  exact h

/-- An outcome with the time and the number of the attempts that it took. -/
def Outcome.tried (elapsed attempts : Nat) (o : Outcome) : Outcome :=
  o.withPerformance
    { o.performance.getD .zero with
      totalMs := millis elapsed
      attempts := some (.ofNat attempts) }

namespace Command

/-- A command is called at least once and no more often than the limit allows. It is called again
only after a failure that may pass, and the reply to the last call counts. -/
structure Tries (c : Command) (limit : Nat) (calls : List (Exchange DeviceCall.Reply))
    (reply : Option (Except DeviceError Outcome)) : Prop where
  own : ∀ x ∈ calls, x.call = .perform c
  one_le : 1 ≤ calls.length
  le_limit : calls.length ≤ limit
  again : ∀ x ∈ calls.dropLast, ∃ e, x.outcome? = some (.error e) ∧ e.isRetryable = true
  last : calls.getLast?.bind Exchange.outcome? = reply

variable {σ : Type} {s : Service DeviceCall.Reply σ} {m : Moment σ} {c : Command} {limit : Nat}
  {calls : List (Exchange DeviceCall.Reply)} {reply : Option (Except DeviceError Outcome)}

/-- A call that is tried again and again makes tries of the command. -/
theorem Tries.of_call
    (h : Task.Tries (.perform c) Exchange.outcome? DeviceError.isRetryable limit calls reply) :
    c.Tries limit calls reply := ⟨h.own, h.one_le, h.le_limit, h.again, h.last⟩

/-- The last call is not answered when the command comes to nothing. -/
theorem Tries.crashed (h : c.Tries limit calls none) : ∃ x ∈ calls, x.reply = none := by
  have hne : calls ≠ [] := List.length_pos_iff.1 h.one_le
  have hmem := List.getLast_mem hne
  have hlast := h.last
  rw [List.getLast?_eq_some_getLast hne] at hlast
  exact ⟨_, hmem, Exchange.reply_of_outcome? (h.own _ hmem) hlast⟩

/-- One attempt at a command, with its number. -/
def attempt (c : Command) (i : Nat) : DeviceTask (Except DeviceError (Nat × Outcome)) := do
  return (← Task.ask (DeviceCall.perform c)).map fun outcome => (i, outcome)

/-- An attempt at a command makes one call, and numbers what the reply says. -/
theorem callsOnce_attempt (c : Command) (m : Moment σ) (i : Nat) :
    CallsOnce s m (.perform c) Exchange.outcome? (fun o => (i, o)) (c.attempt i) := by
  rw [CallsOnce, attempt, goes_bind, goes_ask]
  cases hreply : (s.exchange m (DeviceCall.perform c)).1 with
  | none => exact ⟨_, rfl, rfl, congrArg (Option.map _) hreply.symm⟩
  | some reply => exact ⟨_, rfl, rfl, congrArg (Option.map _) hreply.symm⟩

/-- A command comes to what its last attempt comes to, with the number of its attempts. -/
theorem goes_conduct (policy : RetryPolicy) : (c.conduct policy).Goes s m fun calls came _ =>
    ∃ reply elapsed, c.Tries policy.attempts calls reply ∧
      came = reply.map fun r => r.map (Outcome.tried elapsed calls.length) := by
  rw [conduct, goes_now_bind, goes_bind]
  refine (goes_retry c.callsOnce_attempt policy).mono fun calls told m₁ h => ?_
  obtain ⟨reply, hcalls, rfl⟩ := h
  have htries := Tries.of_call hcalls
  rcases reply with _ | e | o
  · exact ⟨none, 0, htries, rfl⟩
  · dsimp only [Option.map_some, Except.map, Option.elim]
    rw [goes_pure, List.append_nil]
    exact ⟨some (.error e), 0, htries, rfl⟩
  · dsimp only [Option.map_some, Except.map, Option.elim]
    rw [goes_now_bind, goes_pure, List.append_nil]
    exact ⟨some (.ok o), m₁.now - m.now, htries, rfl⟩

end Command

namespace Node

/-- What is done for the action of a node from one moment to another: the calls to the device, and
what the action comes to. -/
structure Dispatches {σ : Type} (n : Node) (settings : Settings) (options : StepOptions)
    (m : Moment σ) (calls : List (Exchange DeviceCall.Reply))
    (came : Option (Except DeviceError Outcome)) (m' : Moment σ) : Prop where
  /-- Without an action nothing is called, and the failure says what is wrong with the node. -/
  unreadable : ∀ e, n.action = .error e → calls = [] ∧ came = some (.ok (.failed e.message))
  /-- The action is the one that the node names, and nothing else than its own call is made. -/
  own : ∀ a, n.action = .ok a → n.actionType = some a.kind.name ∧
    Action.codec.ofJson (.ofMap n.params) = .ok a ∧
    ∀ x ∈ calls, a.call? = some x.call ∧ a.kind.method? = some x.call.name
  rested : ∀ ms, n.action = .ok (.pause ms) → calls = [] ∧
    ((∃ o, came = some (.ok o) ∧ o.success = true) ∨
      came = some (.error .stopped) ∧ m'.isStopped = true)
  tried : ∀ c, n.action = .ok (.perform c) → ∃ reply elapsed,
    c.Tries (settings.retryFor options).attempts calls reply ∧
      came = reply.map fun r => r.map (Outcome.tried elapsed calls.length)
  awaited : ∀ t present, n.action = .ok (.await t present) →
    t.Waits present (settings.pollFor options) m calls came m'

variable {σ : Type} {s : Service DeviceCall.Reply σ} {m : Moment σ} {n : Node}
  {settings : Settings} {options : StepOptions}

/-- An action that can be read is the one that its name tells, and so is its call. -/
theorem owns {a : Action} (h : n.action = .ok a) {calls : List (Exchange DeviceCall.Reply)}
    (hcalls : ∀ x ∈ calls, a.call? = some x.call) :
    ∀ a', n.action = .ok a' → n.actionType = some a'.kind.name ∧
      Action.codec.ofJson (.ofMap n.params) = .ok a' ∧
      ∀ x ∈ calls, a'.call? = some x.call ∧ a'.kind.method? = some x.call.name := by
  intro a' h'
  cases h.symm.trans h'
  obtain ⟨-, hname, hread⟩ := action_eq_ok h
  refine ⟨hname, hread, fun x hx => ⟨hcalls x hx, ?_⟩⟩
  rw [Action.method?_kind, hcalls x hx]
  rfl

namespace Dispatches

variable {calls : List (Exchange DeviceCall.Reply)} {came : Option (Except DeviceError Outcome)}
  {m' : Moment σ}

/-- A command that ends well tells how often it has been called. -/
theorem counted (h : n.Dispatches settings options m calls came m') {c : Command}
    (hc : n.action = .ok (.perform c)) {o : Outcome} (ho : came = some (.ok o)) :
    ∃ q, o.performance = some q ∧ q.attempts.map UInt32.toNat = some calls.length := by
  obtain ⟨reply, elapsed, htries, hcame⟩ := h.tried c hc
  obtain ⟨result, -, hresult⟩ := Option.map_eq_some_iff.1 (hcame.symm.trans ho)
  obtain ⟨o', -, rfl⟩ := map_eq_ok.1 hresult
  have hlt := Nat.lt_of_le_of_lt htries.le_limit (RetryPolicy.attempts_lt _)
  exact ⟨_, rfl, congrArg some (UInt32.toNat_ofNat_of_lt' hlt)⟩

/-- An action comes to nothing only when a call is not answered, or when no more looks can be
counted. -/
theorem crashed (h : n.Dispatches settings options m calls none m') :
    (∃ x ∈ calls, x.reply = none) ∨
      calls.length = Task.maxPolls ∧ ∃ t present, n.action = .ok (.await t present) := by
  cases haction : n.action with
  | error e => cases (h.unreadable e haction).2
  | ok a =>
    cases a with
    | perform c =>
      obtain ⟨reply, elapsed, htries, hcame⟩ := h.tried c haction
      rw [eq_comm, Option.map_eq_none_iff] at hcame
      exact .inl (hcame ▸ htries).crashed
    | pause ms =>
      obtain ⟨-, ⟨o, ho, -⟩ | ⟨ho, -⟩⟩ := h.rested ms haction
      · cases ho
      · cases ho
    | await t present =>
      have hwaits := h.awaited t present haction
      rcases hwaits.crashed rfl with ⟨x, hx, hlook⟩ | ⟨hmax, -⟩
      · exact .inl ⟨x, hx, Exchange.reply_of_look? (hwaits.looks.target x hx) hlook⟩
      · exact .inr ⟨hmax, t, present, rfl⟩

end Dispatches

/-- A node without an action calls nothing, and fails with the message of its parameters. -/
theorem dispatches_of_error {e : ParamsError} (h : n.action = .error e) :
    n.Dispatches settings options m [] (some (.ok (.failed e.message))) m where
  unreadable e' h' := by
    cases h.symm.trans h'
    exact ⟨rfl, rfl⟩
  own a h' := nomatch h.symm.trans h'
  rested ms h' := nomatch h.symm.trans h'
  tried c h' := nomatch h.symm.trans h'
  awaited t present h' := nomatch h.symm.trans h'

/-- A pause calls nothing, and is over unless it is broken off by the stop. -/
theorem goes_rest {ms : UInt64} (h : n.action = .ok (.pause ms)) :
    (Action.rest ms).Goes s m (n.Dispatches settings options m) := by
  have hdispatches {came : Option (Except DeviceError Outcome)} {m' : Moment σ}
      (hcame : (∃ o, came = some (.ok o) ∧ o.success = true) ∨
        came = some (.error .stopped) ∧ m'.isStopped = true) :
      n.Dispatches settings options m [] came m' :=
    { unreadable := fun e h' => nomatch h.symm.trans h'
      own := owns h nofun
      rested := fun _ _ => ⟨rfl, hcame⟩
      tried := fun c h' => nomatch h.symm.trans h'
      awaited := fun t present h' => nomatch h.symm.trans h' }
  rw [Action.rest, goes_now_bind, goes_sleep_bind]
  cases hpause : m.pause ms.toNat with
  | mk full m' =>
    cases full with
    | true => exact hdispatches (.inl ⟨_, rfl, rfl⟩)
    | false => exact hdispatches (.inr ⟨rfl, (Moment.of_pause_false hpause).2.2⟩)

/-- A node with a command does it, within the attempts that its options allow. -/
theorem goes_command {c : Command} (h : n.action = .ok (.perform c)) :
    (c.conduct (settings.retryFor options)).Goes s m (n.Dispatches settings options m) := by
  refine (c.goes_conduct _).mono fun calls came m' hcame => ?_
  obtain ⟨reply, elapsed, htries, hcame⟩ := hcame
  have hcalls : ∀ x ∈ calls, (Action.perform c).call? = some x.call :=
    fun x hx => congrArg some (htries.own x hx).symm
  exact {
    unreadable := fun e h' => nomatch h.symm.trans h'
    own := owns h hcalls
    rested := fun ms h' => nomatch h.symm.trans h'
    tried := fun c' h' => by
      cases h.symm.trans h'
      exact ⟨reply, elapsed, htries, hcame⟩
    awaited := fun t present h' => nomatch h.symm.trans h' }

/-- A node with a wait does it, at the pace that its options set. -/
theorem goes_wait {t : Target} {present : Bool} (h : n.action = .ok (.await t present)) :
    (t.await present (settings.pollFor options)).Goes s m (n.Dispatches settings options m) := by
  refine (t.waits_exactly s present _ m).mono fun calls came m' hwaits => ?_
  have hcalls : ∀ x ∈ calls, (Action.await t present).call? = some x.call :=
    fun x hx => congrArg some (hwaits.looks.target x hx).symm
  exact {
    unreadable := fun e h' => nomatch h.symm.trans h'
    own := owns h hcalls
    rested := fun ms h' => nomatch h.symm.trans h'
    tried := fun c h' => nomatch h.symm.trans h'
    awaited := fun t' present' h' => by
      cases h.symm.trans h'
      exact hwaits }

/-- Whatever the action of a node is, it goes as its kind demands. -/
theorem goes_attempt (n : Node) (settings : Settings) (options : StepOptions) :
    (n.attempt settings options).Goes s m (n.Dispatches settings options m) := by
  rw [attempt]
  cases h : n.action with
  | error e => exact goes_pure.2 (dispatches_of_error h)
  | ok a =>
    cases a with
    | perform c => exact goes_command h
    | pause ms => exact goes_rest h
    | await t present => exact goes_wait h

end Node

end DeviceSuite
