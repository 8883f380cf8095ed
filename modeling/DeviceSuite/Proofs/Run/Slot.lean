import DeviceSuite.Proofs.Run.Books
import DeviceSuite.Run.Tour

/-!
# What a slot does

The scenario of a slot is run by calls to the device, saves of pictures and events of steps, and,
if it is recorded, between a start and a stop of the recorder. Whatever comes of it, the result is
that of this scenario in this repeat, and not that of a skipped one.
-/

namespace DeviceSuite

namespace RunCall

/-- The calls that carry out an action: those to the device, and saves of pictures. -/
def OfAction : RunCall → Prop
  | device _ | save _ _ => True
  | _ => False

/-- The calls of steps. -/
def OfStep : RunCall → Prop
  | device _ | save _ _ | emit (.stepStart ..) | emit (.stepWaiting ..) | emit (.stepComplete ..) =>
    True
  | _ => False

/-- The calls of a slot that is run. -/
def OfSlot : RunCall → Prop
  | startVideo _ | stopVideo _ => True
  | c => c.OfStep

/-- The calls that only the lead of a run makes. -/
def isLeads : RunCall → Bool
  | tours | archive _ | retire => true
  | _ => false

/-- The event that a call tells. -/
def event? : RunCall → Option Event
  | emit e => some e
  | _ => none

/-- A call that tells nothing but what is about one device of a run. -/
def Concerns (runId deviceId : String) (c : RunCall) : Prop :=
  ∀ e ∈ c.event?, e.runId = runId ∧ e.deviceId? = some deviceId

/-- Whether a call reaches beyond the books of the run. -/
def isOutward : RunCall → Bool
  | device _ | save _ _ | startVideo _ | stopVideo _ => true
  | _ => false

/-- A call that only keeps the books. -/
def Bookkeeping (c : RunCall) : Prop := c.Steady ∧ c.isOutward = false

/-- A call of a lead: it only keeps the books, and waits for nothing but the tours. -/
def OfLead (c : RunCall) : Prop := c.Bookkeeping ∧ (c.pace.waits = true → c = tours)

/-- What carries out an action is a call of a step. -/
theorem OfAction.ofStep {c : RunCall} (h : c.OfAction) : c.OfStep := by
  cases c <;> trivial

/-- What carries out an action tells no event. -/
theorem OfAction.event? {c : RunCall} (h : c.OfAction) : c.event? = none := by
  cases c <;> first | rfl | cases h

/-- What is true of all events is true of those of a call that tells none. -/
theorem forall_event? {c : RunCall} {P : Event → Prop} (h : c.event? = none) :
    ∀ e ∈ c.event?, P e := by
  intro e he
  rw [h] at he
  cases he

/-- A call without an event is about any device. -/
theorem concerns_of_event? {c : RunCall} (h : c.event? = none) (runId deviceId : String) :
    c.Concerns runId deviceId :=
  forall_event? h

/-- An event of a device concerns that device. -/
theorem concerns_emit {e : Event} {runId deviceId : String} (hrun : e.runId = runId)
    (hdevice : e.deviceId? = some deviceId) : (emit e).Concerns runId deviceId := by
  rintro e' ⟨⟩
  exact ⟨hrun, hdevice⟩

/-- A call of a step is one of a slot. -/
theorem OfStep.ofSlot {c : RunCall} (h : c.OfStep) : c.OfSlot := by
  cases c <;> trivial

/-- A call of a slot is not one of the lead. -/
theorem OfSlot.isLeads {c : RunCall} (h : c.OfSlot) : c.isLeads = false := by
  cases c <;> first | rfl | cases h

/-- A call of a slot is steady. -/
theorem OfSlot.steady {c : RunCall} (h : c.OfSlot) : c.Steady := by
  rintro f rfl
  cases h

/-- A call that reaches beyond the books is steady. -/
theorem steady_of_outward {c : RunCall} (h : c.isOutward = true) : c.Steady := by
  rintro f rfl
  cases h

/-- A call that neither changes the state nor reaches beyond the books keeps the books. -/
theorem bookkeeping_of_changes {c : RunCall} (h : c.changes = false) (hout : c.isOutward = false) :
    c.Bookkeeping := ⟨steady_of_changes h, hout⟩

/-- To tell an event is to keep the books. -/
theorem bookkeeping_emit (e : Event) : (emit e).Bookkeeping := bookkeeping_of_changes rfl rfl

/-- To keep the books without waiting is for a lead to do. -/
theorem ofLead_of_waits {c : RunCall} (h : c.Bookkeeping) (hwaits : c.pace.waits = false) : c.OfLead :=
  ⟨h, fun h => by simp [hwaits] at h⟩

/-- A steady change of the state is for a lead to do. -/
theorem ofLead_of_changes {c : RunCall} (h : c.Steady) (hchanges : c.changes = true) : c.OfLead := by
  cases c with
  | update f => exact ofLead_of_waits ⟨h, rfl⟩ rfl
  | _ => cases hchanges

end RunCall

namespace ScenarioResult

/-- A result for the same scenario in the same repeat, and not that of a skipped one. -/
def Follows (r r' : ScenarioResult) : Prop :=
  r'.scenarioId = r.scenarioId ∧ r'.scenarioName = r.scenarioName ∧ r'.iteration = r.iteration ∧
    (r.status ≠ .skipped → r'.status ≠ .skipped)

/-- A result follows itself. -/
theorem Follows.refl (r : ScenarioResult) : r.Follows r := ⟨rfl, rfl, rfl, id⟩

/-- What follows a result that follows another follows that. -/
theorem Follows.trans {r r' r'' : ScenarioResult} (h : r.Follows r') (h' : r'.Follows r'') :
    r.Follows r'' :=
  ⟨h'.1.trans h.1, h'.2.1.trans h.2.1, h'.2.2.1.trans h.2.2.1, h'.2.2.2 ∘ h.2.2.2⟩

/-- A result with a failure follows the one without. -/
theorem follows_withFailure (r : ScenarioResult) (error : String) :
    r.Follows (r.withFailure error) :=
  ⟨rfl, rfl, rfl, fun _ h => by cases h⟩

end ScenarioResult

namespace RunTask

variable {H : RunCall → Prop}

/-- A task that tells an event makes only certain calls if that is one of them. -/
@[simp] theorem only_emit {e : Event} {P : Unit → Prop} :
    (emit e).Only H P ↔ H (.emit e) ∧ ∀ r, P r :=
  Task.only_ask

/-- A task that changes the state makes only certain calls if that is one of them. -/
@[simp] theorem only_update {f : RunState → RunState} {P : Unit → Prop} :
    (update f).Only H P ↔ H (.update f) ∧ ∀ r, P r :=
  Task.only_ask

/-- To read the instant calls nothing. -/
@[simp] theorem only_instant {P : Instant → Prop} :
    instant.Only H P ↔ ∀ ms, P (.ofMillis ms) := Iff.rfl

/-- A task of the device makes calls to the device. -/
theorem only_onDevice {α : Type} (t : DeviceTask α) :
    (onDevice t).Only RunCall.OfAction fun _ => True :=
  Task.only_embed (fun _ => trivial) fun _ => trivial

/-- A task that makes one call makes only calls like it. -/
theorem only_call {c : RunCall} (hc : H c) : (Task.ask c : RunTask c.Reply).Only H fun _ => True :=
  Task.only_ask.2 ⟨hc, fun _ => trivial⟩

/-- What is done on a device is steady. -/
theorem only_steady_onDevice {α : Type} (t : DeviceTask α) :
    (onDevice t).Only RunCall.Steady fun _ => True :=
  (only_onDevice t).weaken fun _ h => h.ofStep.ofSlot.steady

end RunTask

namespace SlotPlan

open ScenarioResult

variable (p : SlotPlan) (n : Node) (options : StepOptions)

/-- The calls of the steps of a slot. -/
def Makes (p : SlotPlan) (c : RunCall) : Prop :=
  c.OfStep ∧ c.Concerns p.context.runId p.context.deviceId

/-- An event of a step that is about the run and the device may be told in a slot. -/
theorem makes_emit {e : Event} (h : (RunCall.emit e).OfStep) (hrun : e.runId = p.context.runId)
    (hdevice : e.deviceId? = some p.context.deviceId) : p.Makes (.emit e) :=
  ⟨h, RunCall.concerns_emit hrun hdevice⟩

/-- What carries out an action may be called in a slot. -/
theorem makes_of_action {c : RunCall} (h : c.OfAction) : p.Makes c :=
  ⟨h.ofStep, RunCall.concerns_of_event? h.event? _ _⟩

/-- To photograph a failure is part of carrying out an action. -/
theorem only_photograph : (p.photograph n).Only RunCall.OfAction fun _ => True := by
  apply Task.only_bind.2
  apply (RunTask.only_onDevice _).mono
  intro shot _
  cases shot with
  | error e => trivial
  | ok bytes =>
    simp only [Task.only_bind, RunTask.only_instant, Task.only_ask]
    intro ms
    refine ⟨trivial, ?_⟩
    intro receipt
    cases receipt <;> trivial

/-- An action is carried out with the device and the saves alone. -/
theorem only_conduct : (p.conduct n options).Only RunCall.OfAction fun _ => True := by
  apply Task.only_bind.2
  apply (RunTask.only_onDevice _).mono
  intro outcome _
  dsimp only
  split
  · exact Task.only_bind.2 ((p.only_photograph n).mono fun _ _ => trivial)
  · trivial

/-- A record that is told belongs to the slot. -/
theorem only_complete (result : ScenarioResult) (step : StepResult) :
    (p.complete result step).Only p.Makes result.Follows := by
  simp only [complete, Task.only_bind, RunTask.only_emit, Task.only_pure]
  exact ⟨p.makes_emit trivial rfl rfl, fun _ => ⟨rfl, rfl, rfl, id⟩⟩

/-- The record that an action node leaves before it acts, if it waits. -/
def forewarn (p : SlotPlan) (n : Node) (started : Nat) (result : ScenarioResult) :
    RunTask ScenarioResult :=
  if ActionKind.isWaitName n.stepType then do
    let waiting := record n (.ofMillis started) .waiting 0 none none
    RunTask.emit (.stepWaiting p.context.runId p.context.deviceId result.scenarioId waiting)
    pure { result with stepResults := result.stepResults ++ [waiting] }
  else pure result

/-- The record that an action node leaves when it has acted. -/
def conclude (p : SlotPlan) (n : Node) (started : Nat) (result : ScenarioResult)
    (outcome : Outcome) (picture : Option String) (ended : Nat) :
    RunTask (ScenarioResult × Flow) :=
  let result := { result with screenshots := result.screenshots ++ picture.toList }
  let time := Instant.ofMillis (if ActionKind.isWaitName n.stepType then ended else started)
  if outcome.success then do
    let step := record n time .passed (ended - started) none outcome.performance
    return (← p.complete result step, .next none)
  else do
    let error := outcome.message.getD (n.stepType ++ " failed")
    let step := record n time .failed (ended - started) (some error) outcome.performance
    return (← p.complete result step, .halt error)

/-- An action node leaves a record before it acts and one when it has acted. -/
theorem act_eq (started : Nat) (result : ScenarioResult) :
    p.act n options started result = (do
      let result ← p.forewarn n started result
      let x ← p.conduct n options
      p.conclude n started result x.1 x.2 (← Task.now)) := by
  cases hw : ActionKind.isWaitName n.stepType <;>
    simp only [act, forewarn, conclude, hw, Bool.false_eq_true, ↓reduceIte, pure_bind, bind_assoc]

/-- A record that a step waits belongs to the slot. -/
theorem only_forewarn (started : Nat) (result : ScenarioResult) :
    (p.forewarn n started result).Only p.Makes result.Follows := by
  rw [forewarn]
  split
  · simp only [Task.only_bind, RunTask.only_emit, Task.only_pure]
    exact ⟨p.makes_emit trivial rfl rfl, fun _ => ⟨rfl, rfl, rfl, id⟩⟩
  · exact .refl result

/-- A step is concluded within the slot. -/
theorem only_conclude {r result : ScenarioResult} (h : r.Follows result) (started : Nat)
    (outcome : Outcome) (picture : Option String) (ended : Nat) :
    (p.conclude n started result outcome picture ended).Only p.Makes
      fun x => r.Follows x.1 := by
  have hr : r.Follows { result with screenshots := result.screenshots ++ picture.toList } :=
    ⟨h.1, h.2.1, h.2.2.1, h.2.2.2⟩
  simp only [conclude]
  split
  · exact Task.only_bind.2 ((p.only_complete _ _).mono fun _ h' => hr.trans h')
  · exact Task.only_bind.2 ((p.only_complete _ _).mono fun _ h' => hr.trans h')

/-- An action is carried out within the slot. -/
theorem only_act (started : Nat) (result : ScenarioResult) :
    (p.act n options started result).Only p.Makes fun x => result.Follows x.1 := by
  rw [act_eq]
  apply Task.only_bind.2
  apply (p.only_forewarn n started result).mono
  intro result' hr
  apply Task.only_bind.2
  apply ((p.only_conduct n options).weaken fun _ => p.makes_of_action).mono
  intro x _
  exact Task.only_bind.2 fun ended => p.only_conclude n hr started x.1 x.2 ended

/-- A condition is decided within the slot. -/
theorem only_decide (started : Nat) (result : ScenarioResult) :
    (p.decide n options started result).Only p.Makes fun x => result.Follows x.1 := by
  apply Task.only_bind.2
  apply ((RunTask.only_onDevice _).weaken fun _ => p.makes_of_action).mono
  intro answer _
  exact Task.only_bind.2 fun ended => Task.only_bind.2 (p.only_complete result _)

/-- A step is made within the slot. -/
theorem only_step (result : ScenarioResult) :
    (p.step n result).Only p.Makes fun x => result.Follows x.1 := by
  rw [step]
  split
  · exact .refl result
  · simp only [Task.only_bind, Task.only_now, RunTask.only_emit]
    intro started
    refine ⟨p.makes_emit trivial rfl rfl, ?_⟩
    intro _
    split
    · exact Task.only_bind.2 (p.only_complete result _)
    · split
      · exact p.only_decide n _ _ result
      · exact p.only_act n _ _ result

/-- A walk is made within the slot. -/
theorem only_walk (nav : Navigator) (result : ScenarioResult) :
    (p.walk nav n result).Only p.Makes result.Follows := by
  induction nav, n, result using SlotPlan.walk.induct with
  | case1 nav n result ih =>
    rw [walk]
    simp only [Task.only_taskBind, Task.only_isStopped]
    intro stopped
    split
    · exact follows_withFailure result _
    · apply Task.only_taskBind.2
      apply (p.only_step n result).mono
      intro x hx
      rcases x with ⟨result', answer | error⟩
      · dsimp only at hx ⊢
        split
        · exact hx
        · next nav' next hnext => exact (ih _ _ _ _ hnext).mono fun _ h => hx.trans h
      · exact hx.trans (follows_withFailure result' error)

/-- A slot is run to a result of its scenario and repeat that is not a skipped one. -/
theorem only_run (g : Graph) (iteration : UInt32) :
    (p.run g iteration).Only p.Makes fun r =>
      r.scenarioId = g.id ∧ r.scenarioName = g.name ∧ r.iteration = iteration ∧
        r.status ≠ .skipped := by
  simp only [run, Task.only_bind, Task.only_now]
  intro started
  split
  · exact Task.only_bind.2 fun _ => ⟨rfl, rfl, rfl, fun h => by cases h⟩
  · next nav n _ =>
    exact Task.only_bind.2 ((p.only_walk n nav _).mono fun r hr _ =>
      ⟨hr.1, hr.2.1, hr.2.2.1, hr.2.2.2 fun h => by cases h⟩)

end SlotPlan

namespace Tour

variable (t : Tour) (g : Graph) (k : Nat)

/-- Start to record a slot if the run is to be recorded, and tell whether the recording goes on. -/
def startFilm : RunTask Bool :=
  if t.run.request.recordVideo then do
    return (← Task.ask (RunCall.startVideo (t.plan g k).context)).success
  else pure false

/-- End the recording of a slot if one goes on, and note where the video is. -/
def endFilm (recording : Bool) (result : ScenarioResult) : RunTask ScenarioResult :=
  if recording then do
    let outcome ← Task.ask (RunCall.stopVideo (t.plan g k).context)
    return { result with videoPath := if outcome.success then outcome.localPath else none }
  else pure result

/-- A recording begins before the scenario of its slot and ends after it. -/
theorem film_eq : t.film g k = (do
    let recording ← t.startFilm g k
    let result ← (t.plan g k).run g (t.iteration k)
    t.endFilm g k recording result) := by
  rw [film, startFilm]
  split <;> simp only [bind_assoc, pure_bind, endFilm]

/-- Nothing is called during a rest. -/
theorem only_rest {H : RunCall → Prop} : (t.rest k).Only H fun _ => True := by
  rw [rest]
  split
  · exact Task.only_bind.2 fun _ => trivial
  · exact trivial

end Tour

end DeviceSuite
