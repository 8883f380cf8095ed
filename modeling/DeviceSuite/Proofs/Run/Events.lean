import DeviceSuite.Proofs.Run.Accounting
import DeviceSuite.Proofs.Run.Steps

/-!
# What a tour tells of its results

Every record that a tour makes is told in the order in which it is made. Between the beginning and
the end of a slot that is run, the steps carry its records; its last event carries its result, and
the last event of the tour carries the result of the device, which has the results of the slots
that were run in the order in which they were told.
-/

namespace DeviceSuite

/-- An event of a step. -/
def Event.OfStep : Event → Prop
  | stepStart .. | stepWaiting .. | stepComplete .. => True
  | _ => False

/-- The result that the last event of a slot carries. -/
def Event.slot? : Event → Option ScenarioResult
  | scenarioComplete _ _ result => some result
  | _ => none

/-- The result that the last event of a tour carries. -/
def Event.device? : Event → Option DeviceResult
  | deviceComplete _ result => some result
  | _ => none

/-- The slot that an event begins: its scenario and the repeat. -/
def Event.slotStart? : Event → Option (String × UInt32)
  | scenarioStart _ _ scenarioId _ iteration _ => some (scenarioId, iteration)
  | _ => none

/-- The events of a slot with this result. -/
def SlotEvents (runId deviceId : String) (r : ScenarioResult) (part : List Event) : Prop :=
  ∃ now report steps,
    part = .scenarioStart runId deviceId r.scenarioId r.scenarioName r.iteration now ::
      .progress report :: (steps ++ [.scenarioComplete runId deviceId r]) ∧
    (∀ e ∈ steps, e.OfStep) ∧ steps.filterMap Event.step? = r.stepResults

/-- The results of the slots that were run. -/
def DeviceResult.ran (d : DeviceResult) : List ScenarioResult :=
  d.scenarioResults.filter fun r => r.status ≠ .skipped

/-- The events of a tour with this result: the events of its slots, one slot after the other,
between the first event and the last. -/
def TourEvents (runId deviceId : String) (d : DeviceResult) (events : List Event) : Prop :=
  ∃ now parts, events = .deviceStart runId deviceId now ::
      (parts.flatten ++ [.deviceComplete runId d]) ∧
    List.Forall₂ (SlotEvents runId deviceId) d.ran parts

section Stream

variable {runId deviceId : String} {r : ScenarioResult} {part : List Event} {d : DeviceResult}
  {events : List Event}

/-- What is not said by steps is said at the beginning and the end of a slot. -/
theorem SlotEvents.filterMap {α : Type} {f : Event → Option α} (h : SlotEvents runId deviceId r part)
    (hf : ∀ e : Event, e.OfStep → f e = none) : ∃ now report, part.filterMap f =
      (f (.scenarioStart runId deviceId r.scenarioId r.scenarioName r.iteration now)).toList ++
        ((f (.progress report)).toList ++ (f (.scenarioComplete runId deviceId r)).toList) := by
  obtain ⟨now, report, steps, rfl, hsteps, -⟩ := h
  have hnone : steps.filterMap f = [] := List.filterMap_eq_nil_iff.2 fun e he => hf e (hsteps e he)
  have hcons : ∀ e rest, (e :: rest).filterMap f = (f e).toList ++ rest.filterMap f := by
    intro e rest
    rw [List.filterMap_cons]
    cases f e <;> rfl
  refine ⟨now, report, ?_⟩
  rw [hcons, hcons, List.filterMap_append, hnone, hcons]
  simp

/-- What the events of a tour say is said by those of its slots and by the last. -/
theorem TourEvents.filterMap {α : Type} {f : Event → Option α} {g : ScenarioResult → List α}
    (h : TourEvents runId deviceId d events)
    (hslot : ∀ r part, SlotEvents runId deviceId r part → part.filterMap f = g r)
    (hfirst : ∀ now, f (.deviceStart runId deviceId now) = none) :
    events.filterMap f = d.ran.flatMap g ++ (f (.deviceComplete runId d)).toList := by
  obtain ⟨now, parts, rfl, hparts⟩ := h
  have hflat : ∀ {results parts}, List.Forall₂ (SlotEvents runId deviceId) results parts →
      parts.flatten.filterMap f = results.flatMap g := by
    intro results parts hparts
    induction hparts with
    | nil => rfl
    | cons hpart _ ih =>
      rw [List.flatten_cons, List.filterMap_append, hslot _ _ hpart, ih, List.flatMap_cons]
  cases hlast : f (.deviceComplete runId d) <;> simp [hfirst, hlast, hflat hparts]

/-- The results told at the ends of the slots are those of the slots that were run. -/
theorem TourEvents.slots (h : TourEvents runId deviceId d events) :
    events.filterMap Event.slot? = d.ran := by
  have hsaid := h.filterMap (f := Event.slot?) (g := fun r => [r]) ?_ (fun _ => rfl)
  · rw [hsaid]
    simp [Event.slot?]
  · intro r part hpart
    obtain ⟨now, report, htold⟩ :=
      hpart.filterMap (f := Event.slot?) fun e he => by cases e <;> first | rfl | cases he
    exact htold

/-- One slot is begun for each that was run. -/
theorem TourEvents.begun (h : TourEvents runId deviceId d events) :
    events.filterMap Event.slotStart? = d.ran.map fun r => (r.scenarioId, r.iteration) := by
  have hsaid := h.filterMap (f := Event.slotStart?) (g := fun r => [(r.scenarioId, r.iteration)]) ?_
    (fun _ => rfl)
  · rw [hsaid, List.map_eq_flatMap]
    simp [Event.slotStart?]
  · intro r part hpart
    obtain ⟨now, report, htold⟩ :=
      hpart.filterMap (f := Event.slotStart?) fun e he => by cases e <;> first | rfl | cases he
    exact htold

/-- The last event of a tour carries the result of the device. -/
theorem TourEvents.devices (h : TourEvents runId deviceId d events) :
    events.filterMap Event.device? = [d] := by
  have hsaid := h.filterMap (f := Event.device?) (g := fun _ => []) ?_ (fun _ => rfl)
  · rw [hsaid]
    simp [Event.device?]
  · intro r part hpart
    obtain ⟨now, report, htold⟩ :=
      hpart.filterMap (f := Event.device?) fun e he => by cases e <;> first | rfl | cases he
    exact htold

end Stream

section EventsOf

variable {told : List (Answer RunCall.Reply)} {P : Event → Prop}

/-- What is true of the events of the calls is true of the events that are told. -/
theorem forall_eventsOf (h : ∀ c ∈ told.filterMap Answer.call?, ∀ e ∈ c.event?, P e) :
    ∀ e ∈ eventsOf told, P e := by
  intro e he
  obtain ⟨answer, hanswer, htold⟩ := List.mem_filterMap.1 he
  cases answer with
  | reply c r =>
    have hc : c ∈ told.filterMap Answer.call? := List.mem_filterMap.2 ⟨_, hanswer, rfl⟩
    cases r with
    | none => cases htold
    | some a => exact h c hc e htold
  | _ => cases htold

/-- A call of a slot tells of nothing but steps. -/
theorem RunCall.OfSlot.event {c : RunCall} (h : c.OfSlot) : ∀ e ∈ c.event?, e.OfStep := by
  rintro e he
  cases c with
  | emit e' =>
    obtain rfl : e' = e := Option.some.inj he
    cases e' <;> trivial
  | _ => cases he

/-- An answer to a call that tells nothing adds no event. -/
theorem eventsOf_silent {c : RunCall} {reply : Option c.Reply} (h : c.event? = none) :
    eventsOf (.reply c reply :: told) = eventsOf told := by
  cases reply with
  | none => rfl
  | some a => exact List.filterMap_cons_none h

end EventsOf

namespace SlotPlan

variable (p : SlotPlan) (n : Node) (nav : Navigator) (result : ScenarioResult)

/-- A walk tells its records as it makes them. -/
theorem returns_walk_records : (p.walk nav n result).Returns fun told r =>
    r.stepResults = result.stepResults ++ (eventsOf told).filterMap Event.step? := by
  induction nav, n, result using SlotPlan.walk.induct with
  | case1 nav n result ih =>
    rw [walk]
    apply Task.Returns.isStopped_bind
    intro stopped
    split
    · exact Task.returns_done.2 (List.append_nil _).symm
    · apply (returns_step p n result).bind
      rintro told ⟨result', answer | error⟩ hstep
      · dsimp only
        split
        · exact Task.returns_done.2 (by simpa using hstep.records)
        · next nav' next hnext =>
          apply (ih _ _ _ _ hnext).mono
          intro more r hr
          rw [hr, hstep.records]
          simp
      · exact Task.returns_done.2 (by simpa [ScenarioResult.withFailure] using hstep.records)

/-- The steps that a slot tells to be complete are its records. -/
theorem returns_run_records (g : Graph) (iteration : UInt32) :
    (p.run g iteration).Returns fun told r =>
      (eventsOf told).filterMap Event.step? = r.stepResults := by
  rw [run]
  apply Task.Returns.now_bind
  intro began
  dsimp only
  split
  · exact Task.Returns.now_bind fun ended => Task.returns_pure.2 rfl
  · next nav n _ =>
    apply (p.returns_walk_records n nav _).bind
    intro told r hr
    apply Task.Returns.now_bind
    intro ended
    refine Task.returns_pure.2 ?_
    rw [hr]
    simp [ScenarioResult.blank]

end SlotPlan

namespace Tour

variable (t : Tour) (g : Graph) (k : Nat) (d : DeviceResult)

/-- A recording changes nothing about what a slot tells of its steps. -/
theorem returns_film_records : (t.film g k).Returns fun told r =>
    (eventsOf told).filterMap Event.step? = r.stepResults := by
  have hend : ∀ recording : Bool, ((t.plan g k).run g (t.iteration k) >>= fun r =>
      (if recording then do
        let outcome ← Task.ask (RunCall.stopVideo (t.plan g k).context)
        return { r with videoPath := if outcome.success then outcome.localPath else none }
      else return r : RunTask ScenarioResult)).Returns fun told r =>
        (eventsOf told).filterMap Event.step? = r.stepResults := by
    intro recording
    apply ((t.plan g k).returns_run_records g (t.iteration k)).bind
    intro told r hr
    cases recording with
    | false => exact Task.returns_pure.2 (by simpa using hr)
    | true =>
      apply Task.Returns.ask_bind
      intro outcome
      refine Task.returns_pure.2 ?_
      rw [eventsOf_append, eventsOf_silent rfl, eventsOf_nil, List.append_nil]
      exact hr
  simp only [film]
  split
  · apply Task.Returns.ask_bind
    intro outcome
    exact hend outcome.success
  · exact hend false

/-- The events of a slot that is filmed are those of its steps, and they carry its records. -/
theorem returns_film : (t.film g k).Returns fun told r =>
    ((∀ e ∈ eventsOf told, e.OfStep) ∧ (eventsOf told).filterMap Event.step? = r.stepResults) ∧
      r.scenarioId = g.id ∧ r.scenarioName = g.name ∧ r.iteration = t.iteration k ∧
      r.status ≠ .skipped := by
  apply ((t.returns_film_records g k).and (only_film k).returns).mono
  rintro told r ⟨hrecords, hcalls, hr⟩
  exact ⟨⟨forall_eventsOf fun c hc => (hcalls c hc).1.event, hrecords⟩, hr⟩

/-- A slot that is run tells its result. -/
theorem returns_visit : (t.visit g k d).Returns fun told d' => ∃ r, d' = d.push r ∧
    r.status ≠ .skipped ∧ SlotEvents t.run.runId t.deviceId r (eventsOf told) := by
  have hrest : (t.rest k).Returns fun told _ => eventsOf told = [] := by
    rw [rest]
    split
    · exact Task.Returns.sleep_bind fun full => Task.returns_pure.2 rfl
    · exact Task.returns_pure.2 rfl
  simp only [visit, announce, updateDevice, settle, bind_assoc, pure_bind]
  apply Task.Returns.ask_bind
  intro _
  apply Task.Returns.now_bind
  intro ms
  apply RunTask.returns_emit_bind
  apply Task.Returns.ask_bind
  intro percent
  apply RunTask.returns_emit_bind
  apply (t.returns_film g k).bind
  rintro told r ⟨⟨hsteps, hrecords⟩, hid, hname, hiteration, hran⟩
  apply RunTask.returns_emit_bind
  apply Task.Returns.ask_bind
  intro _
  apply hrest.bind
  intro more _ hmore
  refine Task.returns_pure.2 ⟨r, rfl, hran, ?_⟩
  rw [List.append_nil, eventsOf_silent rfl, eventsOf_time, eventsOf_emit, eventsOf_silent rfl,
    eventsOf_emit,
    eventsOf_append, eventsOf_emit, eventsOf_silent rfl, hmore, ← hid, ← hname, ← hiteration]
  exact ⟨_, _, _, rfl, hsteps, hrecords⟩

/-- A slot that is skipped tells nothing. -/
theorem returns_skip : (t.skip g k d).Returns fun told d' => ∃ r, d' = d.push r ∧
    r.status = .skipped ∧ eventsOf told = [] := by
  apply Task.Returns.now_bind
  intro ms
  apply Task.Returns.ask_bind
  intro _
  exact Task.returns_pure.2 ⟨_, rfl, rfl, rfl⟩

/-- The slots tell the results of those that were run, one after the other. -/
theorem returns_slots (left : Nat) : (t.slots left k d).Returns fun told d' =>
    ∃ results parts, d'.deviceId = d.deviceId ∧
      d'.scenarioResults = d.scenarioResults ++ results ∧
      eventsOf told = parts.flatten ∧ List.Forall₂ (SlotEvents t.run.runId t.deviceId)
        (results.filter fun r => r.status ≠ .skipped) parts := by
  induction left generalizing k d with
  | zero => exact Task.returns_done.2 ⟨[], [], rfl, (List.append_nil _).symm, rfl, .nil⟩
  | succ left ih =>
    rw [slots]
    split
    · exact Task.returns_done.2 ⟨[], [], rfl, (List.append_nil _).symm, rfl, .nil⟩
    · next g _ =>
      apply Task.Returns.isStopped_bind
      intro stopped
      cases stopped with
      | true =>
        apply (t.returns_skip g k d).bind
        rintro told _ ⟨r, rfl, hskipped, hsilent⟩
        apply (ih (k + 1) (d.push r)).mono
        rintro more d' ⟨results, parts, hid, hresults, hevents, hparts⟩
        refine ⟨r :: results, parts, hid, ?_, ?_, ?_⟩
        · simp [hresults, DeviceResult.push]
        · simp [hsilent, hevents]
        · simpa [hskipped] using hparts
      | false =>
        apply (t.returns_visit g k d).bind
        rintro told _ ⟨r, rfl, hran, hpart⟩
        apply (ih (k + 1) (d.push r)).mono
        rintro more d' ⟨results, parts, hid, hresults, hevents, hparts⟩
        refine ⟨r :: results, eventsOf told :: parts, hid, ?_, ?_, ?_⟩
        · simp [hresults, DeviceResult.push]
        · simp [hevents]
        · rw [List.filter_cons_of_pos (by simpa using hran)]
          exact .cons hpart hparts

/-- A device that begins with no results has those that are told when its slots are done. -/
theorem returns_work (hblank : d.scenarioResults = []) : (t.work d).Returns fun told d' =>
    d'.deviceId = d.deviceId ∧ ∃ parts, eventsOf told = parts.flatten ∧
      List.Forall₂ (SlotEvents t.run.runId t.deviceId) d'.ran parts := by
  rw [work]
  apply Task.Returns.ask_bind
  intro _
  apply Task.returns_ensuring.2
  apply (t.returns_slots 0 d t.size).mono
  rintro told d' ⟨results, parts, hid, hresults, hevents, hparts⟩
  apply Task.returns_ask.2
  intro _
  refine ⟨hid, parts, ?_, ?_⟩
  · rw [eventsOf_silent rfl, eventsOf_append, eventsOf_silent rfl, hevents, eventsOf_nil,
      List.append_nil]
  · rw [DeviceResult.ran, hresults, hblank, List.nil_append]
    exact hparts

/-- The events of a tour carry its result and those of its slots. -/
theorem returns_conduct : t.conduct.Returns fun told r => ∀ d, r = .ok d →
    d.deviceId = t.deviceId ∧ TourEvents t.run.runId t.deviceId d (eventsOf told) := by
  rw [conduct]
  apply ((RunTask.only_onDevice _).silent_returns fun _ h => h.event?).bind
  rintro asked r ⟨hasked, -⟩
  cases r with
  | error e => exact Task.returns_pure.2 fun d hd => by cases hd
  | ok environment =>
    apply ((RunTask.only_onDevice _).silent_returns fun _ h => h.event?).bind
    rintro known appInfo ⟨hknown, -⟩
    apply Task.Returns.ask_bind
    intro _
    apply Task.Returns.now_bind
    intro ms
    apply RunTask.returns_emit_bind
    apply (t.returns_work _ rfl).bind
    rintro told d ⟨hid, parts, hevents, hparts⟩
    apply Task.Returns.ask_bind
    intro _
    apply RunTask.returns_emit_bind
    refine Task.returns_pure.2 ?_
    rintro d' hd
    obtain rfl : d = d' := Except.ok.inj hd
    refine ⟨hid, ?_⟩
    rw [eventsOf_append, hasked, eventsOf_append, hknown, eventsOf_silent rfl, eventsOf_time,
      eventsOf_emit, eventsOf_append, hevents, eventsOf_silent rfl, eventsOf_emit]
    exact ⟨_, parts, rfl, hparts⟩

/-- The slots of a tour leave its device as it is. -/
theorem only_slots (left : Nat) : (t.slots left k d).Only t.Makes fun d' =>
    d'.deviceId = d.deviceId := by
  induction left generalizing k d with
  | zero => exact rfl
  | succ left ih =>
    rw [slots]
    split
    · exact rfl
    · next g _ =>
      apply Task.only_bind.2
      apply Task.only_isStopped.2
      intro stopped
      have hrest : ∀ r, (t.slots left (k + 1) (d.push r)).Only t.Makes fun d' =>
          d'.deviceId = d.deviceId := fun r => ih (k + 1) (d.push r)
      cases stopped with
      | true =>
        apply Task.only_bind.2
        apply ((only_skip k d).weaken fun _ h => ⟨h.1.1, h.2.1, h.2.2⟩).mono
        rintro _ ⟨r, rfl, -⟩
        exact hrest r
      | false =>
        apply Task.only_bind.2
        apply (only_visit k d).mono
        rintro _ ⟨r, rfl, -⟩
        exact hrest r

/-- The work of a tour leaves its device as it is. -/
theorem only_work : (t.work d).Only t.Makes fun d' => d'.deviceId = d.deviceId := by
  have hregister : t.Makes (.register t.context) :=
    makes_of_event? (RunCall.steady_of_changes rfl) rfl rfl
  have hunregister : t.Makes (.unregister t.context) :=
    makes_of_event? (RunCall.steady_of_changes rfl) rfl rfl
  exact Task.only_bind.2 ((RunTask.only_call hregister).mono fun _ _ =>
    (t.only_slots 0 d t.size).ensuring (RunTask.only_call hunregister))

/-- The calls of a tour concern its device. -/
theorem only_conduct : t.conduct.Only t.Makes fun _ => True := by
  have hdevice : ∀ {α : Type} (task : DeviceTask α),
      (RunTask.onDevice task).Only t.Makes fun _ => True := fun task =>
    (RunTask.only_onDevice task).weaken fun _ h =>
      makes_of_event? h.ofStep.ofSlot.steady h.ofStep.ofSlot.isLeads h.event?
  have hupdate : ∀ f, (t.updateDevice f).Only t.Makes fun _ => True := fun f =>
    RunTask.only_call (makes_of_event? (RunCall.steady_updateDevice _ f) rfl rfl)
  rw [conduct]
  apply Task.only_bind.2
  apply (hdevice _).mono
  rintro (e | environment) _
  · trivial
  · simp only [Task.only_bind, RunTask.only_instant, RunTask.only_emit, Task.only_pure]
    apply (hdevice _).mono
    intro appInfo _
    apply (hupdate _).mono
    intro _ _ ms
    refine ⟨makes_emit rfl rfl, fun _ => ?_⟩
    apply (t.only_work _).mono
    intro d hid
    apply (hupdate _).mono
    intro _ _
    exact ⟨makes_emit rfl (congrArg some hid), fun _ => trivial⟩

end Tour

end DeviceSuite
