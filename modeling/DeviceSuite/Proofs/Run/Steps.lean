import DeviceSuite.Proofs.Run.Slot
import DeviceSuite.Proofs.Task.Transcript

/-!
# What a step leaves

The step of an inner node leaves records, and tells an event of each when it is made; the step of a
start or an end node leaves nothing. A step that fails is the last of its walk. After any other the
walk goes on: where a condition is evaluated, with the answer that this evaluation gave.
-/

namespace DeviceSuite

/-- The event that was told with an answered call; a call that crashed has told none. -/
def Answer.event? : Answer RunCall.Reply → Option Event
  | .reply c (some _) => c.event?
  | _ => none

/-- The events that a task has told, by what it was told itself. -/
def eventsOf (told : List (Answer RunCall.Reply)) : List Event := told.filterMap Answer.event?

section EventsOf

variable {told more : List (Answer RunCall.Reply)}

/-- Where nothing is told, there are no events. -/
@[simp] theorem eventsOf_nil : eventsOf [] = [] := rfl

/-- Two transcripts one after the other have the events of each. -/
@[simp] theorem eventsOf_append : eventsOf (told ++ more) = eventsOf told ++ eventsOf more :=
  List.filterMap_append

/-- To read the clock tells no event. -/
@[simp] theorem eventsOf_time {ms : Nat} : eventsOf (.time ms :: told) = eventsOf told := rfl

/-- To read the stop flag tells no event. -/
@[simp] theorem eventsOf_flag {b : Bool} : eventsOf (.flag b :: told) = eventsOf told := rfl

/-- To pause tells no event. -/
@[simp] theorem eventsOf_rested {full : Bool} : eventsOf (.rested full :: told) = eventsOf told := rfl

/-- An event that is told comes first. -/
theorem eventsOf_emit {e : Event} {reply : RunCall.Reply (.emit e)} :
    eventsOf (.reply (.emit e) (some reply) :: told) = e :: eventsOf told := rfl

/-- Calls that tell no event leave no events. -/
theorem eventsOf_eq_nil (h : ∀ c ∈ told.filterMap Answer.call?, c.event? = none) :
    eventsOf told = [] := by
  induction told with
  | nil => rfl
  | cons answer rest ih =>
    cases answer with
    | reply c r =>
      obtain ⟨hc, hrest⟩ := List.forall_mem_cons.1 h
      cases r with
      | none => exact ih hrest
      | some a => simpa [eventsOf, Answer.event?, hc] using ih hrest
    | _ => exact ih h

end EventsOf

/-- The record that an event of a step carries. -/
def Event.step? : Event → Option StepResult
  | stepWaiting _ _ _ step | stepComplete _ _ _ step => some step
  | _ => none

/-- A task whose calls tell no events. -/
theorem Task.Only.silent {α : Type} {t : RunTask α} {H : RunCall → Prop} {P : α → Prop}
    (h : t.Only H P) (hH : ∀ c, H c → c.event? = none) :
    t.Ends fun told r => eventsOf told = [] ∧ ∀ a ∈ r, P a :=
  h.ends.mono fun _ _ hr => ⟨eventsOf_eq_nil fun c hc => hH c (hr.1 c hc), hr.2⟩

/-- A task that has told an event goes on. -/
theorem RunTask.returns_emit_bind {α : Type} {e : Event} {f : Unit → RunTask α}
    {Q : List (Answer RunCall.Reply) → α → Prop}
    (h : (f ()).Returns fun more => Q (.reply (.emit e) (some ()) :: more)) :
    (emit e >>= f).Returns Q :=
  Task.Returns.ask_bind fun _ => h

/-- A task whose calls tell no event is silent. -/
theorem Task.Only.silent_returns {α : Type} {t : RunTask α} {H : RunCall → Prop} {P : α → Prop}
    (h : t.Only H P) (hH : ∀ c, H c → c.event? = none) :
    t.Returns fun told a => eventsOf told = [] ∧ P a :=
  (h.silent hH).mono fun _ _ hr a ha => ⟨hr.1, hr.2 a ha⟩

/-- The answer along which a walk goes on, if there is one. -/
def Flow.answer : Flow → Option Bool
  | next answer => answer
  | halt _ => none

/-- The record of a step of a node carries the names of the node. -/
structure StepResult.IsOf (step : StepResult) (n : Node) : Prop where
  nodeId : step.nodeId = n.id
  nodeName : step.nodeName = n.displayName
  actionType : step.actionType = n.stepType

namespace Node

/-- A node whose step leaves records. -/
def IsInner (n : Node) : Prop := n.kind ≠ .start ∧ n.kind ≠ .finish

instance (n : Node) : Decidable n.IsInner := inferInstanceAs (Decidable (_ ∧ _))

/-- The node says before it acts that its step waits, if it does. -/
inductive Forewarns (n : Node) : List StepResult → Prop where
  | silent : ActionKind.isWaitName n.stepType = false → Forewarns n []
  | waiting {step : StepResult} : ActionKind.isWaitName n.stepType = true → step.IsOf n →
    step.status = .waiting → Forewarns n [step]

/-- The records that the step of a node leaves, and how the walk goes on. -/
inductive Leaves (n : Node) : List StepResult → Flow → Prop where
  | nothing : ¬ n.IsInner → Leaves n [] (.next none)
  | skipped {step : StepResult} : n.IsInner → n.options.disabled = true → step.IsOf n →
    step.status = .skipped → Leaves n [step] (.next none)
  | decided {step : StepResult} {b : Bool} : n.kind = .condition → n.options.disabled = false →
    step.IsOf n → step.status = .passed → Leaves n [step] (.next (some b))
  | passed {waiting : List StepResult} {last : StepResult} : n.kind = .action →
    n.options.disabled = false → n.Forewarns waiting → last.IsOf n → last.status = .passed →
    Leaves n (waiting ++ [last]) (.next none)
  | failed {waiting : List StepResult} {last : StepResult} {error : String} : n.kind = .action →
    n.options.disabled = false → n.Forewarns waiting → last.IsOf n → last.status = .failed →
    last.error = some error → Leaves n (waiting ++ [last]) (.halt error)

variable {n : Node} {waiting : List StepResult}

/-- An action leaves records. -/
theorem isInner_of_action (h : n.kind = .action) : n.IsInner := by simp [IsInner, h]

/-- A condition leaves records. -/
theorem isInner_of_condition (h : n.kind = .condition) : n.IsInner := by simp [IsInner, h]

/-- Only actions and conditions leave records. -/
theorem IsInner.kind (h : n.IsInner) : n.kind = .action ∨ n.kind = .condition := by
  cases hkind : n.kind with
  | start => exact absurd hkind h.1
  | finish => exact absurd hkind h.2
  | action => exact .inl rfl
  | condition => exact .inr rfl

/-- What is said before an action is that it waits. -/
theorem Forewarns.status (h : n.Forewarns waiting) : ∀ step ∈ waiting, step.status = .waiting := by
  cases h with
  | silent => exact List.forall_mem_nil _
  | waiting _ _ hstatus => exact List.forall_mem_singleton.2 hstatus

/-- What is said before an action has no other status. -/
theorem Forewarns.status_ne (h : n.Forewarns waiting) {status : StepStatus}
    (hstatus : status ≠ .waiting) : ∀ step ∈ waiting, step.status ≠ status := fun step hstep heq =>
  hstatus (heq ▸ h.status step hstep)

/-- The step of a disabled inner node leaves one skipped record, and that of any other none. -/
theorem Leaves.countP_skipped {steps : List StepResult} {flow : Flow} (h : n.Leaves steps flow) :
    (steps.countP fun step => step.status = .skipped) =
      if n.IsInner ∧ n.options.disabled = true then 1 else 0 := by
  cases h with
  | nothing hinner => simp [hinner]
  | skipped hinner hdisabled _ hstatus => simp [hinner, hdisabled, hstatus]
  | decided _ henabled _ hstatus => simp [henabled, hstatus]
  | passed _ henabled hwaiting _ hstatus =>
    have hnone : StepStatus.skipped ≠ .waiting := nofun
    simpa [henabled, hstatus] using hwaiting.status_ne hnone
  | failed _ henabled hwaiting _ hstatus =>
    have hnone : StepStatus.skipped ≠ .waiting := nofun
    simpa [henabled, hstatus] using hwaiting.status_ne hnone

/-- The step of a condition leads on, with an answer unless the condition is disabled. -/
theorem Leaves.of_condition {steps : List StepResult} {flow : Flow} (h : n.Leaves steps flow)
    (hkind : n.kind = .condition) :
    ∃ answer, flow = .next answer ∧ (answer = none ↔ n.options.disabled = true) := by
  cases h with
  | nothing hinner => exact absurd (isInner_of_condition hkind) hinner
  | skipped _ hdisabled => exact ⟨_, rfl, by simp [hdisabled]⟩
  | decided _ henabled => exact ⟨_, rfl, by simp [henabled]⟩
  | passed haction => simp [hkind] at haction
  | failed haction => simp [hkind] at haction

end Node

namespace SlotPlan

variable (p : SlotPlan) (n : Node) (options : StepOptions)

/-- The answer that a step gives to its node, by what the step was told. An enabled condition is
answered by its evaluation, which comes between the events of its step; any other node is not
answered. -/
def Decides (p : SlotPlan) (n : Node) (told : List (Answer RunCall.Reply))
    (answer : Option Bool) : Prop :=
  if n.kind = .condition ∧ n.options.disabled = false then
    ∃ began ended first last asked b,
      told = [.time began, .reply (.emit first) (some ())] ++ asked ++
        [.time ended, .reply (.emit last) (some ())] ∧
      (RunTask.onDevice (n.evaluate p.settings n.options)).Yields asked (some b) ∧
      answer = some b
  else answer = none

/-- A step has ended: what it was told, the results of its slot before and after it, and how the
walk goes on. -/
structure Stepped (p : SlotPlan) (n : Node) (result : ScenarioResult)
    (told : List (Answer RunCall.Reply)) (x : ScenarioResult × Flow) : Prop where
  status : x.1.status = result.status
  error : x.1.error = result.error
  records : x.1.stepResults = result.stepResults ++ (eventsOf told).filterMap Event.step?
  leaves : n.Leaves ((eventsOf told).filterMap Event.step?) x.2
  decides : p.Decides n told x.2.answer

/-- Only an enabled condition is answered. -/
theorem decides_none {n : Node} (h : ¬ (n.kind = .condition ∧ n.options.disabled = false))
    {told : List (Answer RunCall.Reply)} : p.Decides n told none :=
  (if_neg h).mpr rfl

variable {p n options}

/-- The record of a step is told when it is appended. -/
theorem returns_complete (result : ScenarioResult) (step : StepResult) :
    (p.complete result step).Returns fun told x =>
      told = [.reply (.emit (.stepComplete p.context.runId p.context.deviceId result.scenarioId
        step)) (some ())] ∧
      x = { result with stepResults := result.stepResults ++ [step] } := by
  apply RunTask.returns_emit_bind
  exact Task.returns_pure.2 ⟨rfl, rfl⟩

/-- A record that is made for a node has its names. -/
theorem isOf_record (time : Instant) (status : StepStatus) (durationMs : Nat)
    (error : Option String) (performance : Option Performance) :
    (record n time status durationMs error performance).IsOf n := ⟨rfl, rfl, rfl⟩

/-- A node that waits says so in a record first. -/
theorem returns_forewarn (started : Nat) (result : ScenarioResult) :
    (p.forewarn n started result).Returns fun told x =>
      ∃ waiting, (eventsOf told).filterMap Event.step? = waiting ∧ n.Forewarns waiting ∧
        x = { result with stepResults := result.stepResults ++ waiting } := by
  rw [forewarn]
  split
  · next hwaits =>
    apply RunTask.returns_emit_bind
    exact Task.returns_pure.2 ⟨_, rfl, .waiting hwaits (isOf_record ..) rfl, rfl⟩
  · next hwaits =>
    exact Task.returns_pure.2 ⟨[], rfl, .silent (by simpa using hwaits),
      (by rw [List.append_nil])⟩

/-- A node that has acted says how that went in its last record. -/
theorem returns_conclude (hkind : n.kind = .action) (henabled : n.options.disabled = false)
    (started : Nat) (result : ScenarioResult) (outcome : Outcome) (picture : Option String)
    (ended : Nat) {waiting : List StepResult} (hwaiting : n.Forewarns waiting) :
    (p.conclude n started result outcome picture ended).Returns fun told x =>
      x.1.status = result.status ∧ x.1.error = result.error ∧
        x.1.stepResults = result.stepResults ++ (eventsOf told).filterMap Event.step? ∧
        n.Leaves (waiting ++ (eventsOf told).filterMap Event.step?) x.2 ∧
        x.2.answer = none := by
  simp only [conclude]
  split
  · apply (returns_complete _ _).bind
    rintro told x ⟨rfl, rfl⟩
    exact Task.returns_pure.2 ⟨rfl, rfl, rfl,
      .passed hkind henabled hwaiting (isOf_record ..) rfl, rfl⟩
  · apply (returns_complete _ _).bind
    rintro told x ⟨rfl, rfl⟩
    exact Task.returns_pure.2 ⟨rfl, rfl, rfl,
      .failed hkind henabled hwaiting (isOf_record ..) rfl rfl, rfl⟩

/-- The step of an enabled action leaves its records, and no answer. -/
theorem returns_act (hkind : n.kind = .action) (henabled : n.options.disabled = false)
    (started : Nat) (result : ScenarioResult) :
    (p.act n options started result).Returns fun told x =>
      x.1.status = result.status ∧ x.1.error = result.error ∧
        x.1.stepResults = result.stepResults ++ (eventsOf told).filterMap Event.step? ∧
        n.Leaves ((eventsOf told).filterMap Event.step?) x.2 ∧
        x.2.answer = none := by
  rw [act_eq]
  apply (returns_forewarn started result).bind
  rintro forewarned _ ⟨waiting, hevents, hwaiting, rfl⟩
  apply ((p.only_conduct n options).silent_returns fun _ h => h.event?).bind
  rintro acted x ⟨hsilent, -⟩
  apply Task.Returns.now_bind
  intro ended
  apply (returns_conclude hkind henabled started _ x.1 x.2 ended hwaiting).mono
  rintro concluded y ⟨hstatus, herror, hrecords, hleaves, hanswer⟩
  simp only [eventsOf_append, eventsOf_time, hsilent, List.nil_append, List.filterMap_append,
    hevents]
  exact ⟨hstatus, herror, hrecords.trans (List.append_assoc _ _ _), hleaves, hanswer⟩

/-- A condition is answered by its evaluation, and leaves one record. -/
theorem returns_decide (hkind : n.kind = .condition) (henabled : n.options.disabled = false)
    (started : Nat) (result : ScenarioResult) :
    (p.decide n options started result).Returns fun told x =>
      (∃ step, (eventsOf told).filterMap Event.step? = [step] ∧ n.Leaves [step] x.2 ∧
        x.1 = { result with stepResults := result.stepResults ++ [step] }) ∧
      ∃ ended last asked b, told = asked ++ [.time ended, .reply (.emit last) (some ())] ∧
        (RunTask.onDevice (n.evaluate p.settings options)).Yields asked (some b) ∧
        x.2 = .next (some b) := by
  have hsilent := (RunTask.only_onDevice (n.evaluate p.settings options)).silent_returns
    fun _ h => h.event?
  apply ((Task.returns_yields _).and hsilent).bind
  rintro asked b ⟨hasked, hsilent, -⟩
  apply Task.Returns.now_bind
  intro ended
  apply (returns_complete _ _).bind
  rintro told x ⟨rfl, rfl⟩
  refine Task.returns_pure.2 ⟨⟨_, ?_, .decided hkind henabled (isOf_record ..) rfl, rfl⟩,
    ended, _, asked, b, rfl, hasked, rfl⟩
  rw [eventsOf_append, hsilent]
  rfl

/-- A step leaves the records that it tells, and answers its node as it was told. -/
theorem returns_step (p : SlotPlan) (n : Node) (result : ScenarioResult) :
    (p.step n result).Returns (p.Stepped n result) := by
  rw [step]
  split
  · next hends =>
    have hinner : ¬ n.IsInner := by
      intro h
      simp [h.1, h.2] at hends
    have hkind : n.kind ≠ .condition := by
      intro h
      simp [h] at hends
    exact Task.returns_pure.2 ⟨rfl, rfl, (List.append_nil _).symm, .nothing hinner,
      p.decides_none fun h => hkind h.1⟩
  · next hends =>
    have hinner : n.IsInner := by simpa [Node.IsInner] using hends
    apply Task.Returns.now_bind
    intro started
    apply RunTask.returns_emit_bind
    split
    · next hdisabled =>
      apply (returns_complete _ _).bind
      rintro told x ⟨rfl, rfl⟩
      have hanswer : ¬ (n.kind = .condition ∧ n.options.disabled = false) := by simp [hdisabled]
      exact Task.returns_pure.2 ⟨rfl, rfl, rfl, .skipped hinner hdisabled (isOf_record ..) rfl,
        p.decides_none hanswer⟩
    · next henabled =>
      have henabled : n.options.disabled = false := by simpa using henabled
      split
      · next hkind =>
        apply (returns_decide hkind henabled started result).mono
        rintro told x ⟨⟨step, hevents, hleaves, hx⟩, ended, last, asked, b, rfl, hasked, hflow⟩
        constructor
        case status => rw [hx]
        case error => rw [hx]
        case records => exact hx ▸ congrArg (result.stepResults ++ ·) hevents.symm
        case leaves => exact hevents.symm ▸ hleaves
        case decides =>
          rw [hflow]
          exact (if_pos ⟨hkind, henabled⟩).mpr
            ⟨started, ended, _, last, asked, b, rfl, hasked, rfl⟩
      · next hkind =>
        apply (returns_act (hinner.kind.resolve_right hkind) henabled started result).mono
        rintro told x ⟨hstatus, herror, hrecords, hleaves, hanswer⟩
        exact ⟨hstatus, herror, hrecords, hleaves,
          hanswer.symm ▸ p.decides_none fun h => hkind h.1⟩

end SlotPlan

end DeviceSuite
