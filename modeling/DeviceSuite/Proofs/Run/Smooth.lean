import DeviceSuite.Proofs.Device.Dispatch
import DeviceSuite.Proofs.Graph.Straight
import Mathlib.Tactic.FinCases

/-!
# Runs without a hitch

A slot is told nothing bad when the stop flag is never read as raised, every call is answered and
every command of the device succeeds. If the nodes of its route act by commands, then each of them
is called once and leaves one record that it has passed. So a slot of a list of actions does just
that list.
-/

namespace DeviceSuite

/-- An answer that nothing goes wrong with: the stop flag is down, a command succeeds, and any other
call is answered somehow. -/
def Answer.Smooth : Answer RunCall.Reply → Prop
  | .flag raised => raised = false
  | .reply (.device (.perform _)) r => ∃ o, r = some (.ok o) ∧ o.success = true
  | .reply _ r => r.isSome = true
  | _ => True

/-- The call to the device that is answered, if it is one. -/
def Answer.deviceCall? : Answer RunCall.Reply → Option DeviceCall
  | .reply (.device c) _ => some c
  | _ => none

/-- The calls to the device of which a task is told. -/
def deviceCalls (told : List (Answer RunCall.Reply)) : List DeviceCall :=
  told.filterMap Answer.deviceCall?

/-- The calls of two transcripts one after the other are those of each. -/
theorem deviceCalls_append (told more : List (Answer RunCall.Reply)) :
    deviceCalls (told ++ more) = deviceCalls told ++ deviceCalls more :=
  List.filterMap_append

namespace Task

variable {α β : Type} {t : RunTask α} {f : α → RunTask β} {P : List DeviceCall → α → Prop}
  {Q : List DeviceCall → β → Prop}

/-- When nothing goes wrong, the task has a result, and `Q` is true of its calls to the device and
of its result. -/
def Smoothly (t : RunTask α) (Q : List DeviceCall → α → Prop) : Prop :=
  t.Ends fun told r => (∀ answer ∈ told, answer.Smooth) → ∃ a, r = some a ∧ Q (deviceCalls told) a

/-- A task that goes smoothly does so by any weaker account. -/
theorem Smoothly.mono {Q Q' : List DeviceCall → α → Prop} (h : t.Smoothly Q)
    (hQ : ∀ calls a, Q calls a → Q' calls a) : t.Smoothly Q' :=
  Ends.mono h fun _ _ hr hsmooth => (hr hsmooth).imp fun a ha => ⟨ha.1, hQ _ a ha.2⟩

/-- Tasks one after the other go smoothly if each does. -/
theorem Smoothly.bind (h : t.Smoothly P)
    (hf : ∀ calls a, P calls a → (f a).Smoothly fun more => Q (calls ++ more)) :
    (t >>= f).Smoothly Q := by
  apply ends_bind.2
  apply Ends.mono h
  intro told r hr
  cases r with
  | none =>
    intro hsmooth
    obtain ⟨a, ha, -⟩ := hr hsmooth
    cases ha
  | some a =>
    apply ends_of_forall
    intro more r' hyields hsmooth
    rw [List.forall_mem_append] at hsmooth
    obtain ⟨a', ha, hP⟩ := hr hsmooth.1
    cases ha
    obtain ⟨b, hb, hQ⟩ := (hf _ _ hP).of_yields hyields hsmooth.2
    exact ⟨b, hb, by rwa [deviceCalls_append]⟩

/-- A task that ends at once goes smoothly. -/
theorem smoothly_pure {a : α} (h : P [] a) : (pure a : RunTask α).Smoothly P :=
  fun _ => ⟨a, rfl, h⟩

/-- To read the clock goes smoothly. -/
theorem Smoothly.now_bind {f : Nat → RunTask β} (h : ∀ ms, (f ms).Smoothly Q) :
    ((now : RunTask Nat) >>= f).Smoothly Q := by
  refine Smoothly.bind (P := fun calls _ => calls = []) (fun ms _ => ⟨ms, rfl, rfl⟩) ?_
  rintro _ ms rfl
  exact h ms

/-- When all goes smoothly, the stop flag is down. -/
theorem Smoothly.isStopped_bind {f : Bool → RunTask β} (h : (f false).Smoothly Q) :
    ((isStopped : RunTask Bool) >>= f).Smoothly Q := by
  refine Smoothly.bind (P := fun calls stopped => calls = [] ∧ stopped = false) ?_ ?_
  · intro stopped hsmooth
    exact ⟨stopped, rfl, rfl, hsmooth _ (List.mem_singleton_self _)⟩
  · rintro _ _ ⟨rfl, rfl⟩
    exact h

/-- To tell an event goes smoothly. -/
theorem Smoothly.emit_bind {e : Event} {f : Unit → RunTask β} (h : (f ()).Smoothly Q) :
    (RunTask.emit e >>= f).Smoothly Q := by
  refine Smoothly.bind (P := fun calls _ => calls = []) ?_ ?_
  · apply ends_ask.2
    intro r hsmooth
    obtain ⟨reply, hreply⟩ := Option.isSome_iff_exists.1 (hsmooth _ (List.mem_singleton_self _))
    exact ⟨reply, hreply, rfl⟩
  · rintro _ _ rfl
    exact h

/-- A command is called once, and succeeds. -/
theorem Smoothly.perform_bind {c : Command} {f : Except DeviceError Outcome → RunTask β}
    (h : ∀ o, o.success = true → (f (.ok o)).Smoothly fun more => Q (.perform c :: more)) :
    ((ask (RunCall.device (.perform c)) : RunTask (Except DeviceError Outcome)) >>= f).Smoothly
      Q := by
  refine Smoothly.bind
    (P := fun calls came => calls = [.perform c] ∧ ∃ o, came = .ok o ∧ o.success = true) ?_ ?_
  · apply ends_ask.2
    intro r hsmooth
    obtain ⟨o, ho, hsuccess⟩ := hsmooth _ (List.mem_singleton_self _)
    exact ⟨.ok o, ho, rfl, o, rfl, hsuccess⟩
  · rintro _ _ ⟨rfl, o, rfl, hsuccess⟩
    exact h o hsuccess

end Task

namespace RunTask

variable {α : Type}

/-- Tasks of a device one after the other are so as tasks of a run. -/
theorem onDevice_bind {β : Type} (t : DeviceTask α) (f : α → DeviceTask β) :
    onDevice (t >>= f) = onDevice t >>= fun a => onDevice (f a) := by
  induction t with
  | done a => rfl
  | crash => rfl
  | clock next ih => exact congrArg Task.clock (funext ih)
  | stopRequested next ih => exact congrArg Task.stopRequested (funext ih)
  | pause ms next ih => exact congrArg (Task.pause ms) (funext ih)
  | giveWay next ih => exact congrArg Task.giveWay ih
  | call c next ih => exact congrArg (Task.call _) (funext fun _ => ih _)

/-- A call to a device is a call of a run. -/
theorem onDevice_ask (c : DeviceCall) :
    onDevice (Task.ask c) = Task.ask (RunCall.device c) := by
  refine congrArg (Task.call _) (funext fun r => ?_)
  cases r <;> rfl

end RunTask

open DeviceSuite.Task DeviceSuite.RunTask

namespace Command

variable (c : Command)

/-- When all goes smoothly, the first attempt is a success. -/
theorem smoothly_attempt (i : Nat) : (onDevice (c.attempt i)).Smoothly fun calls came =>
    calls = [.perform c] ∧ ∃ o, came = .ok (i, o) ∧ o.success = true := by
  rw [attempt, onDevice_bind, onDevice_ask]
  refine Smoothly.perform_bind fun o ho => ?_
  exact smoothly_pure ⟨rfl, o, rfl, ho⟩

/-- A command that has succeeded is not attempted again. -/
theorem smoothly_attempts (delayMs left : Nat) (mayPass : DeviceError → Bool)
    (onRetry : Nat → DeviceError → DeviceTask Unit) (i : Nat) :
    (onDevice (attempts delayMs mayPass onRetry c.attempt left i)).Smoothly fun calls came =>
      calls = [.perform c] ∧ ∃ o, came = .ok (i, o) ∧ o.success = true := by
  cases left with
  | zero => exact c.smoothly_attempt i
  | succ left =>
    rw [attempts, onDevice_bind]
    refine (c.smoothly_attempt i).bind fun calls came hcame => ?_
    obtain ⟨rfl, o, rfl, ho⟩ := hcame
    exact smoothly_pure ⟨rfl, o, rfl, ho⟩

/-- When all goes smoothly, a command is called once and succeeds. -/
theorem smoothly_conduct (policy : RetryPolicy) :
    (onDevice (c.conduct policy)).Smoothly fun calls came =>
      calls = [.perform c] ∧ ∃ o, came = .ok o ∧ o.success = true := by
  rw [conduct, onDevice_bind]
  refine Smoothly.now_bind fun began => ?_
  rw [onDevice_bind]
  refine (c.smoothly_attempts _ _ _ _ 1).bind fun calls came hcame => ?_
  obtain ⟨rfl, o, rfl, ho⟩ := hcame
  rw [onDevice_bind]
  refine Smoothly.now_bind fun ended => ?_
  exact smoothly_pure ⟨rfl, _, rfl, ho⟩

end Command

/-- A known kind of action counts as waiting by what it does. -/
theorem ActionKind.isWaitName_name (kind : ActionKind) :
    isWaitName kind.name = kind.isWait := by
  rw [isWaitName, ofName?_eq_some_iff.2 rfl]

namespace Node

/-- The node acts by a command. -/
def Performs (n : Node) (c : Command) : Prop :=
  n.options.disabled = false ∧ n.action = .ok (.perform c)

variable {n : Node} {c : Command}

/-- Only an action acts by a command. -/
theorem Performs.kind (h : n.Performs c) : n.kind = .action := (action_eq_ok h.2).1

/-- A step of a command does not count as waiting. -/
theorem Performs.isWaitName (h : n.Performs c) : ActionKind.isWaitName n.stepType = false := by
  have hname : n.stepType = (Action.perform c).kind.name := by
    rw [stepType, h.kind, (action_eq_ok h.2).2.1]
    rfl
  rw [hname, ActionKind.isWaitName_name]
  cases c <;> rfl

/-- When all goes smoothly, a node that acts by a command calls it once and succeeds. -/
theorem Performs.smoothly_conduct (h : n.Performs c) (settings : Settings)
    (options : StepOptions) : (onDevice (n.conduct settings options)).Smoothly fun calls came =>
      calls = [.perform c] ∧ came.1.success = true := by
  rw [conduct_eq, onDevice_bind]
  refine Smoothly.now_bind fun began => ?_
  rw [onDevice_bind, attempt, h.2]
  refine (c.smoothly_conduct _).bind fun calls came hcame => ?_
  obtain ⟨rfl, o, rfl, ho⟩ := hcame
  rw [onDevice_bind]
  refine Smoothly.now_bind fun ended => ?_
  exact smoothly_pure ⟨rfl, ho⟩

end Node

namespace SlotPlan

variable (p : SlotPlan) {n : Node} {c : Command}

/-- To tell a record calls no device. -/
theorem smoothly_complete (result : ScenarioResult) (step : StepResult) :
    (p.complete result step).Smoothly fun calls r =>
      calls = [] ∧ r = { result with stepResults := result.stepResults ++ [step] } :=
  Smoothly.emit_bind (smoothly_pure ⟨rfl, rfl⟩)

/-- What has succeeded is not photographed. -/
theorem smoothly_conduct (h : n.Performs c) (options : StepOptions) :
    (p.conduct n options).Smoothly fun calls x =>
      calls = [.perform c] ∧ x.1.success = true ∧ x.2 = none := by
  rw [conduct]
  refine (h.smoothly_conduct p.settings options).bind fun calls came hcame => ?_
  obtain ⟨rfl, hsuccess⟩ := hcame
  simp only [hsuccess, Bool.not_true, Bool.false_and, Bool.false_eq_true, ↓reduceIte]
  exact smoothly_pure ⟨rfl, hsuccess, rfl⟩

/-- The step of a command is one call, and leaves the record that it has passed. -/
theorem smoothly_act (h : n.Performs c) (options : StepOptions) (started : Nat)
    (result : ScenarioResult) : (p.act n options started result).Smoothly fun calls x =>
      calls = [.perform c] ∧ ∃ step, step.nodeId = n.id ∧ step.status = .passed ∧
        x = ({ result with stepResults := result.stepResults ++ [step] }, .next none) := by
  have hforewarn : p.forewarn n started result = pure result := by
    simp only [forewarn, h.isWaitName, Bool.false_eq_true, ↓reduceIte]
  rw [act_eq, hforewarn, pure_bind]
  refine (p.smoothly_conduct h options).bind fun calls came hcame => ?_
  obtain ⟨rfl, hsuccess, hpicture⟩ := hcame
  refine Smoothly.now_bind fun ended => ?_
  simp only [conclude, hsuccess, hpicture, ↓reduceIte, Option.toList_none, List.append_nil]
  refine (p.smoothly_complete _ _).bind fun calls r hr => ?_
  obtain ⟨rfl, rfl⟩ := hr
  exact smoothly_pure ⟨rfl, _, rfl, rfl, rfl⟩

/-- What comes of nodes that act by commands, one after the other: each is called once, and leaves
the record that it has passed. -/
structure Performed (nodes : List Node) (result : ScenarioResult) (calls : List DeviceCall)
    (r : ScenarioResult) : Prop where
  records : ∃ steps, r = { result with stepResults := result.stepResults ++ steps } ∧
    List.Forall₂ (fun n step => step.nodeId = n.id ∧ step.status = .passed)
      (nodes.filter fun n => n.IsInner) steps
  called : List.Forall₂ (fun n call => ∃ c, n.action = .ok (.perform c) ∧ call = .perform c)
    (nodes.filter fun n => n.IsInner) calls

/-- A node that is a start or an end leaves nothing to record. -/
theorem performed_outer (h : ¬ n.IsInner) (result : ScenarioResult) :
    Performed [n] result [] result where
  records := ⟨[], by rw [List.append_nil], by simp [h]⟩
  called := by simp [h]

/-- What comes of nodes after others adds to what has come of those. -/
theorem Performed.append {nodes more : List Node} {calls later : List DeviceCall}
    {result r r' : ScenarioResult} (h : Performed nodes result calls r)
    (h' : Performed more r later r') : Performed (nodes ++ more) result (calls ++ later) r' where
  records := by
    obtain ⟨steps, rfl, hsteps⟩ := h.records
    obtain ⟨steps', rfl, hsteps'⟩ := h'.records
    refine ⟨steps ++ steps', by rw [List.append_assoc], ?_⟩
    rw [List.filter_append]
    exact List.rel_append hsteps hsteps'
  called := by
    rw [List.filter_append]
    exact List.rel_append h.called h'.called

/-- The step of a node that leads on by itself. -/
theorem smoothly_step (h : ¬ n.IsInner ∨ ∃ c, n.Performs c) (result : ScenarioResult) :
    (p.step n result).Smoothly fun calls x =>
      ∃ r, x = (r, .next none) ∧ Performed [n] result calls r := by
  rw [step]
  rcases h with houter | ⟨c, hc⟩
  · have hends : (n.kind = .start || n.kind = .finish) = true := by
      simpa [Node.IsInner, imp_iff_not_or, Decidable.not_not] using houter
    rw [if_pos hends]
    exact smoothly_pure ⟨result, rfl, performed_outer houter result⟩
  · have hinner : n.IsInner := Node.isInner_of_action hc.kind
    simp only [hc.kind, hc.1, reduceCtorEq, decide_false, Bool.or_self, Bool.false_eq_true,
      ↓reduceIte]
    refine Smoothly.now_bind fun started => Smoothly.emit_bind ?_
    refine (p.smoothly_act hc _ started result).mono fun calls x hx => ?_
    obtain ⟨rfl, last, hid, hpassed, rfl⟩ := hx
    refine ⟨_, rfl, ⟨[last], rfl, ?_⟩, ?_⟩
    · simpa [hinner] using ⟨hid, hpassed⟩
    · simpa [hinner] using hc.2

/-- A walk along a route of commands makes all of them, and passes. -/
theorem smoothly_walk (nav : Navigator) (n : Node) (result : ScenarioResult)
    (hroute : ∀ m ∈ nav.route n [], ¬ m.IsInner ∨ ∃ c, m.Performs c) :
    (p.walk nav n result).Smoothly (Performed (nav.route n []) result) := by
  induction nav, n, result using SlotPlan.walk.induct with
  | case1 nav n result ih =>
    have hn : ¬ n.IsInner ∨ ∃ c, n.Performs c := by
      obtain ⟨rest, hrest⟩ := nav.route_eq_cons n []
      exact hroute n (hrest ▸ List.mem_cons_self)
    rw [walk]
    apply Smoothly.isStopped_bind
    simp only [Bool.and_false, Bool.false_eq_true, ↓reduceIte]
    refine (p.smoothly_step hn result).bind fun calls x hx => ?_
    obtain ⟨r, rfl, hr⟩ := hx
    dsimp only
    split
    · next hnext =>
      rw [Navigator.route_of_none hnext]
      exact smoothly_pure ((List.append_nil calls).symm ▸ hr)
    · next nav' next hnext =>
      have hsplit : nav.route n [] = [n] ++ nav'.route next [] := Navigator.route_of_some hnext
      rw [hsplit] at hroute ⊢
      have hrest := ih r none nav' next hnext fun m hm =>
        hroute m (List.mem_append_right _ hm)
      exact hrest.mono fun later r' hr' => hr.append hr'

/-- A slot whose route is one of commands makes all of them, and passes. -/
theorem smoothly_run {g : Graph} {nav : Navigator} (iteration : UInt32)
    (hstart : (Navigator.new g p.settings.maxNodeVisits).start? = some (nav, n))
    (hroute : ∀ m ∈ nav.route n [], ¬ m.IsInner ∨ ∃ c, m.Performs c) :
    (p.run g iteration).Smoothly fun calls r => ∃ began ended,
      Performed (nav.route n [])
        { ScenarioResult.blank g iteration began with
          completedAt := ended, durationMs := r.durationMs } calls r := by
  rw [run]
  refine Smoothly.now_bind fun began => ?_
  rw [hstart]
  refine (p.smoothly_walk nav n _ hroute).bind fun calls r hr => ?_
  refine Smoothly.now_bind fun ended => ?_
  obtain ⟨⟨steps, rfl, hsteps⟩, hcalls⟩ := hr
  refine smoothly_pure ⟨.ofMillis began, .ofMillis ended, ⟨steps, rfl, hsteps⟩, ?_⟩
  rwa [List.append_nil]

end SlotPlan

namespace Graph

/-- The nodes of a list of actions that leave records are those of the actions. -/
theorem filter_isInner_linear (id : String) (actions : List Json) :
    ((linear id actions).nodes.filter fun n => n.IsInner) = actionNodes 1 actions := by
  have hactions : (actionNodes 1 actions).filter (fun n => n.IsInner) = actionNodes 1 actions := by
    rw [List.filter_eq_self]
    intro n hn
    obtain ⟨x, -, rfl⟩ := List.mem_map.1 hn
    exact decide_eq_true (Node.isInner_of_action rfl)
  rw [linear_nodes, List.cons_append, List.filter_cons_of_neg, List.filter_append, hactions]
  · exact List.append_nil _
  · decide

/-- A node of a list of commands leaves no record, or performs its command. -/
theorem performs_of_mem_linear {id : String} {actions : List Json}
    (hperforms : ∀ n ∈ actionNodes 1 actions, ∃ c, n.Performs c) {m : Node}
    (hm : m ∈ (linear id actions).nodes) : ¬ m.IsInner ∨ ∃ c, m.Performs c := by
  by_cases hinner : m.IsInner
  · have hmem : m ∈ (linear id actions).nodes.filter fun n => n.IsInner :=
      List.mem_filter.2 ⟨hm, decide_eq_true hinner⟩
    rw [filter_isInner_linear] at hmem
    exact .inr (hperforms m hmem)
  · exact .inl hinner

/-- Records that have passed, each with the identifier of its node. -/
theorem map_of_passed {nodes : List Node} {steps : List StepResult}
    (h : List.Forall₂ (fun n step => step.nodeId = n.id ∧ step.status = .passed) nodes steps) :
    steps.map (fun step => (step.nodeId, step.status)) =
      (nodes.map Node.id).map fun id => (id, .passed) := by
  induction h with
  | nil => rfl
  | cons hstep _ ih => rw [List.map_cons, List.map_cons, List.map_cons, ih, hstep.1, hstep.2]

/-- The graph of a list of actions is walked straight through, whatever the limit of visits and
whatever the answers: its nodes are the start, one for each action in their order, and the end. So
when all actions are commands, none of them disabled, and neither a stop nor a failure comes in
between, the slot passes: it makes the calls of the commands in their order and no other call to
the device, and leaves one record for each, which says that it has passed. -/
theorem linear_walked_straight (id : String) (actions : List Json) :
    (linear id actions).nodes.map Node.id = "start" ::
        ((List.range' 1 actions.length).map fun i => "a" ++ toString i) ++ ["end"] ∧
      (∀ maxNodeVisits answers, ∃ nav n,
        (Navigator.new (linear id actions) maxNodeVisits).start? = some (nav, n) ∧
          nav.route n answers = (linear id actions).nodes) ∧
      ∀ (p : SlotPlan) (iteration : UInt32) (told : List (Answer RunCall.Reply))
        (r : Option ScenarioResult),
        (∀ n ∈ actionNodes 1 actions, ∃ c, n.Performs c) →
        (p.run (linear id actions) iteration).Yields told r → (∀ answer ∈ told, answer.Smooth) →
        ∃ result, r = some result ∧ result.status = .passed ∧ result.error = none ∧
          result.screenshots = [] ∧
          result.stepResults.map (fun step => (step.nodeId, step.status)) =
            ((List.range' 1 actions.length).map fun i => "a" ++ toString i).map (·, .passed) ∧
          List.Forall₂ (fun n call => ∃ c, n.action = .ok (.perform c) ∧ call = .perform c)
            (actionNodes 1 actions) (deviceCalls told) ∧
          (deviceCalls told).length = actions.length := by
  have hwalked (maxNodeVisits : UInt32) (answers : List (Option Bool)) :=
    (linear_straight id actions).walked_through (linear_nodes id actions) rfl maxNodeVisits answers
  refine ⟨linear_ids id actions, fun maxNodeVisits answers => ⟨_, _, hwalked maxNodeVisits answers⟩,
    ?_⟩
  intro p iteration told r hperforms hyields hsmooth
  obtain ⟨hstart, hroute⟩ := hwalked p.settings.maxNodeVisits []
  have hrun := p.smoothly_run iteration hstart
    (hroute.symm ▸ fun _ hm => performs_of_mem_linear hperforms hm)
  rw [hroute] at hrun
  obtain ⟨result, hr, began, ended, ⟨steps, hresult, hsteps⟩, hcalls⟩ :=
    hrun.of_yields hyields hsmooth
  rw [filter_isInner_linear] at hsteps hcalls
  have hlength : actions.length = (actionNodes 1 actions).length := by
    rw [actionNodes, List.length_map, List.length_zipIdx]
  refine ⟨result, hr, ?status, ?error, ?screenshots, ?records, hcalls, ?length⟩
  case status => rw [hresult]; rfl
  case error => rw [hresult]; rfl
  case screenshots => rw [hresult]; rfl
  case records =>
    rw [← actionNodes_ids, ← map_of_passed hsteps, hresult]
    rfl
  case length => rw [hlength, hcalls.length_eq]

end Graph

/-- A task that is alone with a service which answers well and raises no stop is told nothing
bad. -/
theorem exists_smooth_yields {σ α : Type} {s : Service RunCall.Reply σ} {H : RunCall → Prop}
    {P : α → Prop} {t : RunTask α} (ht : t.Only H P)
    (hanswer : ∀ m c, H c → (Answer.reply c (s.exchange m c).1).Smooth)
    (hstop : ∀ m c, (s.exchange m c).2.stopAt = m.stopAt) (m : Moment σ) (hm : m.stopAt = none) :
    ∃ told, t.Yields told (t.runAlone s m).1 ∧ ∀ answer ∈ told, answer.Smooth := by
  induction t generalizing m with
  | done a => exact ⟨[], .done, List.forall_mem_nil _⟩
  | crash => exact ⟨[], .crash, List.forall_mem_nil _⟩
  | clock next ih =>
    obtain ⟨told, hyields, hsmooth⟩ := ih m.now (ht m.now) m hm
    exact ⟨_, .clock hyields, List.forall_mem_cons.2 ⟨trivial, hsmooth⟩⟩
  | stopRequested next ih =>
    obtain ⟨told, hyields, hsmooth⟩ := ih m.isStopped (ht m.isStopped) m hm
    have hflag : m.isStopped = false := by rw [Moment.isStopped, hm]; rfl
    exact ⟨_, .stopRequested hyields, List.forall_mem_cons.2 ⟨hflag, hsmooth⟩⟩
  | pause ms next ih =>
    have hpause : (m.pause ms).2.stopAt = none := by
      simp [Moment.pause, Moment.isStopped, hm]
    obtain ⟨told, hyields, hsmooth⟩ := ih (m.pause ms).1 (ht _) (m.pause ms).2 hpause
    exact ⟨_, .pause hyields, List.forall_mem_cons.2 ⟨trivial, hsmooth⟩⟩
  | giveWay next ih =>
    obtain ⟨told, hyields, hsmooth⟩ := ih ht m hm
    exact ⟨_, .giveWay hyields, List.forall_mem_cons.2 ⟨trivial, hsmooth⟩⟩
  | call c next ih =>
    obtain ⟨told, hyields, hsmooth⟩ :=
      ih _ (ht.2 (s.exchange m c).1) (s.exchange m c).2 ((hstop m c).trans hm)
    exact ⟨_, .call hyields, List.forall_mem_cons.2 ⟨hanswer m c ht.1, hsmooth⟩⟩

namespace Sample

/-- A service of a device that does everything. -/
def obliging : Service RunCall.Reply Unit where
  accept _ _ _ := ⟨(), 0, []⟩
  answer _ _
    | .device (.perform _) => ((), some (.ok .ok))
    | .device .screenshot => ((), some (.ok []))
    | .device (.locate _) => ((), some (.ok .absent))
    | .device .appInfo => ((), some (.ok none))
    | .device .environment => ((), some (.error .stopped))
    | .save _ _ => ((), some (.error .closed))
    | .emit _ => ((), some ())
    | _ => ((), none)

/-- The parameters of a tap. -/
def tapParams : Json := .object [("actionType", .text "tap"), ("x", .int 1), ("y", .int 2)]

/-- With a device that does everything, all goes smoothly. -/
theorem obliging_smooth (m : Moment Unit) {c : RunCall} (hc : c.OfStep) :
    (Answer.reply c (obliging.exchange m c).1).Smooth := by
  cases c with
  | device c =>
    cases c with
    | perform c => exact ⟨.ok, rfl, rfl⟩
    | _ => rfl
  | save context artifact => rfl
  | emit e => rfl
  | _ => cases hc

end Sample

/-- Two taps, one after the other. -/
theorem linear_walked_straight_taps :
    ∃ told r, (∀ n ∈ Graph.actionNodes 1 [Sample.tapParams, Sample.tapParams],
        ∃ c, n.Performs c) ∧
      (Sample.tappingPlan.run (.linear "g" [Sample.tapParams, Sample.tapParams]) 1).Yields told r ∧
      (∀ answer ∈ told, answer.Smooth) ∧
      ∃ result, r = some result ∧ result.status = .passed ∧
        result.stepResults.map (fun step => (step.nodeId, step.status)) =
          [("a1", .passed), ("a2", .passed)] ∧
        (deviceCalls told).length = 2 := by
  have hperforms : ∀ n ∈ Graph.actionNodes 1 [Sample.tapParams, Sample.tapParams],
      ∃ c, n.Performs c := by
    intro n hn
    refine ⟨.tap 1 2, ?_⟩
    fin_cases hn <;> exact ⟨by decide +kernel, rfl⟩
  obtain ⟨told, hyields, hsmooth⟩ := exists_smooth_yields (s := Sample.obliging)
    (Sample.tappingPlan.only_run (.linear "g" [Sample.tapParams, Sample.tapParams]) 1)
    (fun m _ hc => Sample.obliging_smooth m hc.1) (fun _ _ => rfl) (.initial none ()) rfl
  obtain ⟨result, hr, hstatus, -, -, hrecords, -, hlength⟩ :=
    (Graph.linear_walked_straight "g" [Sample.tapParams, Sample.tapParams]).2.2 Sample.tappingPlan 1
      told _ hperforms hyields hsmooth
  exact ⟨told, _, hperforms, hyields, hsmooth, result, hr, hstatus, hrecords, hlength⟩

end DeviceSuite
