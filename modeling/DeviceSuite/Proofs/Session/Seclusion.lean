import DeviceSuite.Proofs.Run.Seclusion
import DeviceSuite.Proofs.Run.Slot
import DeviceSuite.Proofs.Session.Opening
import DeviceSuite.Proofs.Session.Seats
import DeviceSuite.Proofs.TextMap

/-!
# A device to itself

Where saves and recordings take no time, and no device asks for a stop, a tour sees of the world
the clock, the stop flag of its run, and its device. The tasks that have nothing to do with that
device change none of this, and the calls of the tour itself go as if it were on its own.
-/

namespace DeviceSuite

/-- What a recorder has become that takes no time. One that had no answers prepared has none, and so
answers as the context tells. -/
structure Recorder.Goes (before after : Recorder) : Prop where
  startDelay : ∀ c, after.startDelay c = 0
  stopDelay : ∀ c, after.stopDelay c = 0
  starts : before.starts = [] → after.starts = []
  stops : before.stops = [] → after.stops = []
  ending : after.ending = before.ending

/-- Saves and recordings of a plan take no time, and nobody stands at a new desk. -/
structure SessionPlan.Swift {σ : Type} (plan : SessionPlan σ) : Prop where
  queue : plan.Furnished
  saves : ∀ make, plan.desk = some make → ∀ places context artifact,
    (make places).delay context artifact = 0
  starts : ∀ context, plan.recorder.startDelay context = 0
  stops : ∀ context, plan.recorder.stopDelay context = 0

namespace World

variable {σ : Type} {service : Service DeviceCall.Reply σ} {w : World σ} {l : Role} {c : RunCall}
  {n : Nat} {id : String} {stopAt : Option Nat} {recorder : Recorder}

/-- What a tour sees of the world. -/
def seen (stopAt : Option Nat) (id : String) (w : World σ) : Moment (Option σ) :=
  ⟨w.now, stopAt, w.devices.get? id⟩

/-- Saves and recordings take no time. -/
structure Swift (recorder : Recorder) (w : World σ) : Prop where
  desk : ∀ desk, w.desk = some desk → ∀ context artifact, desk.delay context artifact = 0
  recorder : recorder.Goes w.recorder

/-- The stop flag of a run is raised from an instant on, if at all. -/
def Flagged (n : Nat) (stopAt : Option Nat) (w : World σ) : Prop :=
  ∃ state, w.registry.run? n = some state ∧ state.stopRequested = stopAt.any (· ≤ w.now)

/-- Nothing in the world disturbs the tours of a run: saves and recordings take no time, nobody
stands at the desk, and only the stop raises the flag of the run. -/
structure Calm (n : Nat) (stopAt : Option Nat) (recorder : Recorder) (w : World σ) : Prop where
  swift : w.Swift recorder
  idle : ∀ q, w.queue? = some q → q.Idle
  flagged : w.Flagged n stopAt

/-! ## What calls do to the clock and the devices -/

/-- A tour does not see that a call is announced. -/
@[simp] theorem announce_seen (w : World σ) (l : Role) (c : RunCall) :
    (w.announce l c).seen stopAt id = w.seen stopAt id := by
  cases c <;> rfl

/-- A tour does not see that a task has ended. -/
@[simp] theorem finish_seen (w : World σ) (l : Role) (ending : Option RoleResult) :
    (w.finish l ending).seen stopAt id = w.seen stopAt id := by
  cases l <;> rfl

/-- A tour does not see an answer that is not from a device. -/
theorem answer_seen (service : Service DeviceCall.Reply σ) (w : World σ) (l : Role)
    (hc : c.isDevice = false) : (w.answer service l c).1.seen stopAt id = w.seen stopAt id := by
  have hanswers := w.answers service l c
  generalize (w.answer service l c).1 = w' at hanswers ⊢
  cases hanswers with
  | device => cases hc
  | _ => rfl

/-- The beginning of a call to a device that stops nothing concerns that device alone. -/
theorem acceptDevice_eq (ha : service.Aloof) (w : World σ) (id : String) (c : DeviceCall) :
    let taken := service.optional.accept w.now (w.devices.get? id) c
    ∃ devices snapshots, w.acceptDevice service id c =
        ({ w with devices := devices, snapshots := snapshots }, taken.latency) ∧
      devices.get? id = taken.state ∧ ∀ id' ≠ id, devices.get? id' = w.devices.get? id' := by
  cases hdevice : w.devices.get? id with
  | none =>
    refine ⟨w.devices, w.snapshots, ?_, hdevice, fun _ _ => rfl⟩
    simp [acceptDevice, hdevice, Service.optional]
  | some state =>
    let taken := service.accept w.now state c
    have hheed : ∀ signals : List Signal, .stop ∉ signals → ∀ w : World σ,
        ∃ snapshots, signals.foldl heed w = { w with snapshots := snapshots } := by
      intro signals
      induction signals with
      | nil => exact fun _ w => ⟨w.snapshots, rfl⟩
      | cons signal rest ih =>
        intro hstop w
        obtain ⟨hsignal, hrest⟩ := not_or.1 (List.mem_cons.not.1 hstop)
        cases signal with
        | stop => exact absurd rfl hsignal
        | snapshot =>
          obtain ⟨snapshots, h⟩ := ih hrest (w.heed .snapshot)
          exact ⟨snapshots, h⟩
    obtain ⟨snapshots, h⟩ := hheed taken.signals (ha w.now state c)
      { w with devices := w.devices.insert id taken.state }
    refine ⟨_, snapshots, ?_, TextMap.get?_insert_self _ _ _,
      fun id' hne => TextMap.get?_insert_of_ne _ hne _⟩
    simp only [acceptDevice, hdevice]
    exact Prod.ext h rfl

/-- The end of a call to a device concerns that device alone. -/
theorem answerDevice_eq (service : Service DeviceCall.Reply σ) (w : World σ) (id : String)
    (c : DeviceCall) :
    let answered := service.optional.answer w.now (w.devices.get? id) c
    ∃ devices, w.answerDevice service id c = ({ w with devices := devices }, answered.2) ∧
      devices.get? id = answered.1 ∧ ∀ id' ≠ id, devices.get? id' = w.devices.get? id' := by
  cases hdevice : w.devices.get? id with
  | none =>
    refine ⟨w.devices, ?_, hdevice, fun _ _ => rfl⟩
    simp [answerDevice, hdevice, Service.optional]
  | some state =>
    refine ⟨_, ?_, TextMap.get?_insert_self _ _ _, fun id' hne => TextMap.get?_insert_of_ne _ hne _⟩
    simp only [answerDevice, hdevice]
    rfl

/-! ## What calls do to the flag and to the time that others take -/

/-- Helpers stay swift when a call is announced. -/
theorem Swift.announce (h : w.Swift recorder) (l : Role) (c : RunCall) :
    (w.announce l c).Swift recorder := by
  refine ⟨?_, ?_⟩
  · cases c with
    | save context artifact =>
      intro desk hdesk
      obtain ⟨desk', hdesk', rfl⟩ := Option.map_eq_some_iff.1 hdesk
      exact h.desk desk' hdesk'
    | _ => exact h.desk
  · cases c <;> exact h.recorder

/-- Helpers stay swift when a call is accepted. -/
theorem Swift.accept (h : w.Swift recorder) (service : Service DeviceCall.Reply σ) (l : Role)
    (c : RunCall) : (w.accept service l c).1.Swift recorder := by
  obtain ⟨_, _, _, haccept⟩ := w.accept_eq service l c
  rw [haccept]
  exact ⟨h.desk, h.recorder⟩

/-- Helpers stay swift when a call is answered. -/
theorem Swift.answer (h : w.Swift recorder) (service : Service DeviceCall.Reply σ) (l : Role)
    (c : RunCall) : (w.answer service l c).1.Swift recorder := by
  have hsink : ∀ f, (w.updateSink f).Swift recorder := by
    refine fun f => ⟨fun desk hdesk => ?_, h.recorder⟩
    obtain ⟨desk', hdesk', rfl⟩ := Option.map_eq_some_iff.1 hdesk
    exact h.desk desk' hdesk'
  have hanswers := w.answers service l c
  generalize (w.answer service l c).1 = w' at hanswers ⊢
  cases hanswers with
  | @saved context artifact desk hdesk =>
    refine ⟨fun desk' hdesk' => ?_, h.recorder⟩
    obtain rfl := Option.some.inj hdesk'
    rw [ArtifactDesk.save_delay]
    exact h.desk desk hdesk
  | startVideo =>
    refine ⟨h.desk, h.recorder.startDelay, h.recorder.stopDelay, fun hnone => ?_, h.recorder.stops,
      h.recorder.ending⟩
    exact congrArg List.tail (h.recorder.starts hnone)
  | stopVideo =>
    refine ⟨h.desk, h.recorder.startDelay, h.recorder.stopDelay, h.recorder.starts, fun hnone => ?_,
      h.recorder.ending⟩
    exact congrArg List.tail (h.recorder.stops hnone)
  | register => exact hsink _
  | unregister => exact hsink _
  | _ => exact ⟨h.desk, h.recorder⟩

/-- Helpers stay swift when a task ends. -/
theorem Swift.finish (h : w.Swift recorder) (l : Role) (ending : Option RoleResult) :
    (w.finish l ending).Swift recorder := by
  cases l <;> exact ⟨h.desk, h.recorder⟩

/-- A flag stays as it is when a call is announced. -/
theorem Flagged.announce (h : w.Flagged n stopAt) (l : Role) (c : RunCall) :
    (w.announce l c).Flagged n stopAt := by
  cases c <;> exact h

/-- A flag stays as it is when a call is accepted by devices that stop no run. -/
theorem Flagged.accept (h : w.Flagged n stopAt) (ha : service.Aloof) (l : Role) (c : RunCall) :
    (w.accept service l c).1.Flagged n stopAt := by
  cases c with
  | device c =>
    obtain ⟨_, _, haccept, -⟩ := acceptDevice_eq ha w (deviceOf l) c
    simp only [World.accept, haccept]
    exact h
  | _ => exact h

/-- A flag stays as it is when a steady call is answered. -/
theorem Flagged.answer (h : w.Flagged n stopAt) (service : Service DeviceCall.Reply σ) (l : Role)
    (hc : c.Steady) : (w.answer service l c).1.Flagged n stopAt := by
  have hanswers := w.answers service l c
  generalize (w.answer service l c).1 = w' at hanswers ⊢
  cases hanswers with
  | @update f =>
    obtain ⟨state, hstate, hflag⟩ := h
    have hruns : w.registry.runs[n]? = some state := hstate
    by_cases hl : l.run = n
    · refine ⟨f state, ?_, ((hc f rfl state).2).trans hflag⟩
      simp [updateRun, Registry.run?, Registry.update, hl, hruns]
    · refine ⟨state, ?_, hflag⟩
      simpa [updateRun, Registry.run?, Registry.update, hl] using hruns
  | _ => exact h

/-- A flag stays as it is when a task ends. -/
theorem Flagged.finish (h : w.Flagged n stopAt) (l : Role) (ending : Option RoleResult) :
    (w.finish l ending).Flagged n stopAt := by
  cases l <;> exact h

/-! ## What calls leave the desk deserted -/

/-- Nobody stands at the desk. -/
def Deserted (w : World σ) : Prop := ∀ q, w.queue? = some q → q.Idle

/-- The desk stays deserted when a call is answered. -/
theorem Deserted.answer (h : w.Deserted) (service : Service DeviceCall.Reply σ) (l : Role)
    (c : RunCall) : (w.answer service l c).1.Deserted := by
  intro q hq
  rw [answer_queue?] at hq
  split at hq
  · obtain ⟨q', hq', rfl⟩ : ∃ q', w.queue? = some q' ∧ q'.leave l = q := Option.map_eq_some_iff.1 hq
    exact (h q' hq').leave
  · exact h q hq

/-- Whoever goes in and out again leaves nobody at the desk. -/
theorem Deserted.answer_announce (h : w.Deserted) (service : Service DeviceCall.Reply σ)
    (l : Role) (c : RunCall) : ((w.announce l c).answer service l c).1.Deserted := by
  intro q hq
  rw [answer_queue?, announce_queue?] at hq
  split at hq
  · obtain ⟨q', hq', rfl⟩ : ∃ q', w.queue?.map (·.request l) = some q' ∧ q'.leave l = q :=
      Option.map_eq_some_iff.1 hq
    obtain ⟨q'', hq'', rfl⟩ := Option.map_eq_some_iff.1 hq'
    exact (h q'' hq'').leave_request
  · exact h q hq

/-- The desk stays deserted when a call is announced that saves nothing. -/
theorem Deserted.announce (h : w.Deserted) (l : Role) (hc : c.saves = false) :
    (w.announce l c).Deserted := by
  intro q hq
  rw [announce_queue?, hc] at hq
  exact h q hq

/-- The desk stays deserted when a call is accepted. -/
theorem Deserted.accept (h : w.Deserted) (service : Service DeviceCall.Reply σ) (l : Role)
    (c : RunCall) : (w.accept service l c).1.Deserted :=
  fun q hq => h q (accept_queue? service w l c ▸ hq)

/-- The desk stays deserted when a task ends. -/
theorem Deserted.finish (h : w.Deserted) (l : Role) (ending : Option RoleResult) :
    (w.finish l ending).Deserted :=
  fun q hq => h q (finish_queue? w l ending ▸ hq)

/-- A save is begun at once where nobody stands at the desk. -/
theorem Deserted.admits_announce (h : w.Deserted) (hc : c.saves = true) :
    (w.announce l c).admits l c = true := by
  cases c with
  | save context artifact =>
    simp only [World.announce, admits, Option.all_map]
    cases hdesk : w.desk with
    | none => rfl
    | some desk =>
      have hqueue : w.queue? = some desk.queue := congrArg (Option.map _) hdesk
      exact (h _ hqueue).admits_request
  | _ => cases hc

/-- Only calls to the device and those of the lead take time. -/
theorem Swift.accept_eq (h : w.Swift recorder) (service : Service DeviceCall.Reply σ) (l : Role)
    (hc : c.isDevice = false) :
    ∃ ms, w.accept service l c = (w, ms) ∧ (c.isLeads = false → ms = 0) := by
  cases c with
  | device c => cases hc
  | save context artifact =>
    refine ⟨_, rfl, fun _ => ?_⟩
    cases hdesk : w.desk with
    | none => rfl
    | some desk => exact h.desk desk hdesk context artifact
  | startVideo context => exact ⟨_, rfl, fun _ => h.recorder.startDelay context⟩
  | stopVideo context => exact ⟨_, rfl, fun _ => h.recorder.stopDelay context⟩
  | archive result => exact ⟨_, rfl, fun hc => by cases hc⟩
  | _ => exact ⟨0, rfl, fun _ => rfl⟩

/-- Saves and recordings take no time, and nobody stands at the desk. -/
def Smooth (recorder : Recorder) (w : World σ) : Prop := w.Swift recorder ∧ w.Deserted

/-- Where saves take no time, whatever is called leaves nobody at the desk. -/
theorem keeps_smooth (service : Service DeviceCall.Reply σ) (l : Role) (recorder : Recorder) :
    (host service).Keeps l (fun _ => True) (Smooth recorder) (fun _ => Smooth recorder)
      fun _ => Smooth recorder := by
  have htakes : ∀ {w : World σ} {c}, w.Smooth recorder →
      (host service).Takes l (Smooth recorder) (fun _ => Smooth recorder) c w := by
    intro w c hw
    have hbegun : (w.accept service l c).1.Smooth recorder :=
      ⟨hw.1.accept service l c, hw.2.accept service l c⟩
    simp only [Host.Takes, Host.take, host]
    by_cases hms : (w.accept service l c).2 = 0
    · simp only [hms, ↓reduceIte]
      exact ⟨hbegun.1.answer service l c, hbegun.2.answer service l c⟩
    · simp only [hms, ↓reduceIte]
      exact hbegun
  constructor
  case announced =>
    intro w c _ hw hadm
    cases hsaves : c.saves with
    | false => exact ⟨hw.1.announce l c, hw.2.announce l hsaves⟩
    | true => exact absurd (hw.2.admits_announce hsaves) (by simpa [host] using hadm)
  case begun =>
    intro w c _ hw _
    cases hsaves : c.saves with
    | false => exact htakes ⟨hw.1.announce l c, hw.2.announce l hsaves⟩
    | true =>
      -- A save is answered at once, and only then is nobody at the desk again.
      have hdevice : c.isDevice = false := by cases c <;> first | rfl | cases hsaves
      have hlead : c.isLeads = false := by cases c <;> first | rfl | cases hsaves
      obtain ⟨ms, haccept, hms⟩ := (hw.1.announce l c).accept_eq service l hdevice
      obtain rfl := hms hlead
      simp only [Host.Takes, Host.take, host, haccept, ↓reduceIte]
      exact ⟨(hw.1.announce l c).answer service l c, hw.2.answer_announce service l c⟩
  case resumed => exact fun _ hw _ => htakes hw
  case answered => exact fun _ hw => ⟨hw.1.answer service l _, hw.2.answer service l _⟩

/-! ## What calls leave calm -/

/-- In a calm world the desk is deserted. -/
theorem Calm.deserted (h : w.Calm n stopAt recorder) : w.Deserted := h.idle

/-- A call that is answered leaves the world calm. -/
theorem Calm.answer (h : w.Calm n stopAt recorder) (service : Service DeviceCall.Reply σ) (l : Role)
    (hc : c.Steady) : (w.answer service l c).1.Calm n stopAt recorder :=
  ⟨h.swift.answer service l c, h.deserted.answer service l c, h.flagged.answer service l hc⟩

/-- A call that is announced and answered at once leaves the world calm. -/
theorem Calm.answer_announce (h : w.Calm n stopAt recorder) (service : Service DeviceCall.Reply σ)
    (l : Role) (hc : c.Steady) :
    ((w.announce l c).answer service l c).1.Calm n stopAt recorder :=
  ⟨(h.swift.announce l c).answer service l c, h.deserted.answer_announce service l c,
    (h.flagged.announce l c).answer service l hc⟩

/-- The world stays calm when a call is announced that saves nothing. -/
theorem Calm.announce (h : w.Calm n stopAt recorder) (l : Role) (hc : c.saves = false) :
    (w.announce l c).Calm n stopAt recorder :=
  ⟨h.swift.announce l c, h.deserted.announce l hc, h.flagged.announce l c⟩

/-- The world stays calm when a task ends. -/
theorem Calm.finish (h : w.Calm n stopAt recorder) (l : Role) (ending : Option RoleResult) :
    (w.finish l ending).Calm n stopAt recorder :=
  ⟨h.swift.finish l ending, h.deserted.finish l ending, h.flagged.finish l ending⟩

/-- The world is calm, and a tour sees what it has seen. -/
def Unseen (n : Nat) (stopAt : Option Nat) (recorder : Recorder) (id : String)
    (m : Moment (Option σ)) (w : World σ) : Prop :=
  w.Calm n stopAt recorder ∧ w.seen stopAt id = m

section Unseen

variable {m : Moment (Option σ)}

/-- A tour does not see that a call is accepted unless it goes to its own device. -/
theorem Unseen.accept (h : w.Unseen n stopAt recorder id m) (ha : service.Aloof)
    (hc : c.isDevice = true → deviceOf l ≠ id) :
    (w.accept service l c).1.Unseen n stopAt recorder id m := by
  cases c with
  | device c =>
    obtain ⟨hcalm, rfl⟩ := h
    obtain ⟨devices, _, haccept, -, hothers⟩ := acceptDevice_eq ha w (deviceOf l) c
    refine ⟨⟨hcalm.swift.accept service l _, fun q hq => hcalm.idle q (accept_queue? .. ▸ hq),
      hcalm.flagged.accept ha l _⟩, ?_⟩
    simp only [World.accept, haccept, seen]
    rw [hothers id (hc rfl).symm]
  | _ => exact h

/-- A tour does not see that a call is answered unless it goes to its own device. -/
theorem Unseen.answer (h : w.Unseen n stopAt recorder id m) (service : Service DeviceCall.Reply σ)
    (hc : c.Steady ∧ (c.isDevice = true → deviceOf l ≠ id)) :
    (w.answer service l c).1.Unseen n stopAt recorder id m := by
  obtain ⟨hcalm, rfl⟩ := h
  refine ⟨hcalm.answer service l hc.1, ?_⟩
  cases c with
  | device c =>
    obtain ⟨devices, hanswer, -, hothers⟩ := answerDevice_eq service w (deviceOf l) c
    simp only [World.answer, hanswer, seen]
    rw [hothers id (hc.2 rfl).symm]
  | _ => exact answer_seen service w l rfl

/-- A tour does not see what comes of a call that is taken unless it goes to its own device. -/
theorem Unseen.takes (h : w.Unseen n stopAt recorder id m) (ha : service.Aloof)
    (hc : c.Steady ∧ (c.isDevice = true → deviceOf l ≠ id)) :
    (host service).Takes l (Unseen n stopAt recorder id m)
      (fun _ => Unseen n stopAt recorder id m) c w := by
  have hbegun := h.accept (l := l) ha hc.2
  simp only [Host.Takes, Host.take, host]
  by_cases hms : (w.accept service l c).2 = 0
  · simp only [hms, ↓reduceIte]
    exact hbegun.answer service hc
  · simp only [hms, ↓reduceIte]
    exact hbegun

/-- A tour does not see that a call is announced which saves nothing. -/
theorem Unseen.announce (h : w.Unseen n stopAt recorder id m) (hc : c.saves = false) :
    (w.announce l c).Unseen n stopAt recorder id m :=
  ⟨h.1.announce l hc, (announce_seen w l c).trans h.2⟩

/-- A task that makes no calls to a device does nothing that the tour of that device sees. -/
theorem keeps_unseen (ha : service.Aloof) {H : RunCall → Prop}
    (hH : ∀ c, H c → c.Steady ∧ (c.isDevice = true → deviceOf l ≠ id)) :
    (host service).Keeps l H (Unseen n stopAt recorder id m)
      (fun _ => Unseen n stopAt recorder id m) fun _ => Unseen n stopAt recorder id m := by
  constructor
  case announced =>
    intro w c _ hw hadm
    cases hsaves : c.saves with
    | false => exact hw.announce hsaves
    | true => exact absurd (hw.1.deserted.admits_announce hsaves) (by simpa [host] using hadm)
  case begun =>
    intro w c hc hw _
    cases hsaves : c.saves with
    | false => exact (hw.announce hsaves).takes ha (hH c hc)
    | true =>
      -- A save is answered at once, and only then is nobody at the desk again.
      have hdevice : c.isDevice = false := by cases c <;> first | rfl | cases hsaves
      have hlead : c.isLeads = false := by cases c <;> first | rfl | cases hsaves
      obtain ⟨ms, haccept, hms⟩ := (hw.1.swift.announce l c).accept_eq service l hdevice
      obtain rfl := hms hlead
      simp only [Host.Takes, Host.take, host, haccept, ↓reduceIte]
      exact ⟨hw.1.answer_announce service l (hH c hc).1,
        (answer_seen service _ l hdevice).trans ((announce_seen w l c).trans hw.2)⟩
  case resumed => exact fun hc hw _ => hw.takes ha (hH _ hc)
  case answered => exact fun hc hw => hw.answer service (hH _ hc)

end Unseen

/-! ## The calls of a tour -/

/-- A run has begun. -/
def Begun (n : Nat) (w : World σ) : Prop := ∃ crew, w.crew? n = some crew ∧ crew.begun = true

/-- A run that has begun still has when a call is announced. -/
theorem Begun.announce (h : w.Begun n) (l : Role) (c : RunCall) : (w.announce l c).Begun n := by
  obtain ⟨crew, hcrew, hbegun⟩ := h
  cases c with
  | tours =>
    by_cases hl : l.run = n
    · subst hl
      exact ⟨crew.start, updateCrew_crew?_self hcrew _, rfl⟩
    · exact ⟨crew, (updateCrew_crew?_of_ne hl w _).trans hcrew, hbegun⟩
  | _ => exact ⟨crew, hcrew, hbegun⟩

/-- A run that has begun still has when a task ends. -/
theorem Begun.finish (h : w.Begun n) (l : Role) (ending : Option RoleResult) :
    (w.finish l ending).Begun n := by
  obtain ⟨crew, hcrew, hbegun⟩ := h
  by_cases hl : l.run = n
  · subst hl
    cases l <;> exact ⟨_, updateCrew_crew?_self hcrew _, hbegun⟩
  · exact ⟨crew, (finish_crew?_of_ne hl w ending).trans hcrew, hbegun⟩

/-- A run that has begun still has when a call is accepted. -/
theorem Begun.accept (h : w.Begun n) (service : Service DeviceCall.Reply σ) (l : Role)
    (c : RunCall) : (w.accept service l c).1.Begun n := by
  simpa [Begun] using h

/-- A run that has begun still has when a call is answered. -/
theorem Begun.answer (h : w.Begun n) (service : Service DeviceCall.Reply σ) (l : Role)
    (c : RunCall) : (w.answer service l c).1.Begun n := by
  simpa [Begun] using h

/-- The world is calm, and a run in it has begun. -/
def Going (n : Nat) (stopAt : Option Nat) (recorder : Recorder) (w : World σ) : Prop :=
  w.Calm n stopAt recorder ∧ w.Begun n

/-- What a tour calls but its device replies at once, and the recorder as the context tells unless
it had answers prepared. -/
theorem Calm.replies (h : w.Calm n stopAt recorder) (hl : l.run = n)
    (hdevice : c.isDevice = false) (hlead : c.isLeads = false) :
    ∃ word, (w.answer service l c).2 = some word ∧ recorder.Says c word := by
  cases c with
  | device c => cases hdevice
  | tours => cases hlead
  | archive result => cases hlead
  | retire => cases hlead
  | progress =>
    obtain ⟨state, hstate, -⟩ := h.flagged
    exact ⟨state.overallProgress, by simp [World.answer, hl, hstate], trivial⟩
  | startVideo context =>
    refine ⟨_, rfl, fun hnone => ?_⟩
    rw [h.swift.recorder.starts hnone]
    rfl
  | stopVideo context =>
    refine ⟨_, rfl, fun hnone => ?_⟩
    rw [h.swift.recorder.stops hnone, h.swift.recorder.ending]
    rfl
  | _ => exact ⟨_, rfl, trivial⟩

/-- What has come of a call of a tour is what would have come of it on its own. -/
def Told (service : Service DeviceCall.Reply σ) (n : Nat) (stopAt : Option Nat)
    (recorder : Recorder) (id : String) (m : Moment (Option σ)) (c : RunCall) :
    World σ × (Nat ⊕ Option c.Reply) → Prop :=
  (host service).Tells (service.seclusion recorder) (fun c => c.isDevice = true)
    (Going n stopAt recorder) (seen stopAt id) m c

/-- A call that is not to the device is replied to at once. -/
theorem Going.told (h : w.Going n stopAt recorder) (service : Service DeviceCall.Reply σ)
    (hl : l.run = n) (hc : c.Steady) (hdevice : c.isDevice = false) (hlead : c.isLeads = false) :
    Told service n stopAt recorder id (w.seen stopAt id) c
      ((host service).take (w.announce l c) l c) := by
  obtain ⟨ms, haccept, hms⟩ := (h.1.swift.announce l c).accept_eq service l hdevice
  obtain rfl := hms hlead
  have hreply : ∃ word, ((w.announce l c).answer service l c).2 = some word ∧
      recorder.Says c word := by
    cases hsaves : c.saves with
    | false => exact (h.1.announce l hsaves).replies hl hdevice hlead
    | true =>
      cases c with
      | save context artifact => exact ⟨_, rfl, trivial⟩
      | _ => cases hsaves
  have hseen : ((w.announce l c).answer service l c).1.seen stopAt id = w.seen stopAt id :=
    (answer_seen service _ l hdevice).trans (announce_seen w l c)
  simp only [Told, Host.take, host, haccept, ↓reduceIte]
  refine ⟨⟨h.1.answer_announce service l hc, (h.2.announce l c).answer service l c⟩, ?_⟩
  cases c with
  | device c => cases hdevice
  | _ => exact ⟨hseen, hreply⟩

/-- A call to the device goes as it would on its own. -/
theorem Going.told_device (h : w.Going n stopAt recorder) (ha : service.Aloof) (c : DeviceCall)
    (hl : deviceOf l = id) :
    Told service n stopAt recorder id (w.seen stopAt id) (.device c)
      ((host service).take w l (.device c)) := by
  subst hl
  let taken := service.optional.accept w.now (w.devices.get? (deviceOf l)) c
  obtain ⟨devices, snapshots, haccept, hstate, -⟩ := acceptDevice_eq ha w (deviceOf l) c
  let w' : World σ := { w with devices := devices, snapshots := snapshots }
  have haccept' : w.accept service l (.device c) = (w', taken.latency) := haccept
  have hgoing : w'.Going n stopAt recorder := by
    have hcalm : w'.Calm n stopAt recorder :=
      ⟨⟨h.1.swift.desk, h.1.swift.recorder⟩, h.1.idle, h.1.flagged⟩
    exact ⟨hcalm, h.2⟩
  have hexchange : service.optional.exchange (w.seen stopAt (deviceOf l)) c =
      ((service.optional.answer (w.now + taken.latency) taken.state c).2,
        ⟨w.now + taken.latency, stopAt,
          (service.optional.answer (w.now + taken.latency) taken.state c).1⟩) :=
    ha.optional.exchange _ c
  have hseen : w'.seen stopAt (deviceOf l) = ⟨w.now, stopAt, taken.state⟩ :=
    congrArg (Moment.mk w.now stopAt) hstate
  simp only [Told, Host.take, host, haccept']
  by_cases hms : taken.latency = 0
  · obtain ⟨devices', hanswer, hstate', -⟩ := answerDevice_eq service w' (deviceOf l) c
    have hanswer' : w'.answer service l (.device c) =
        ({ w' with devices := devices' }, (service.optional.answer w.now taken.state c).2) :=
      hstate ▸ hanswer
    have hseen' : seen stopAt (deviceOf l) { w' with devices := devices' } =
        ⟨w.now, stopAt, (service.optional.answer w.now taken.state c).1⟩ :=
      congrArg (Moment.mk w.now stopAt) (hstate'.trans (by rw [← hstate]))
    simp only [hms, ↓reduceIte, hanswer']
    rw [hms, Nat.add_zero, ← hseen'] at hexchange
    exact ⟨⟨⟨⟨hgoing.1.swift.desk, hgoing.1.swift.recorder⟩, hgoing.1.idle, hgoing.1.flagged⟩,
      hgoing.2⟩, hexchange⟩
  · simp only [hms, ↓reduceIte]
    refine ⟨hgoing, rfl, Nat.le_add_right _ _, fun reply m' hanswer => ?_⟩
    rw [hseen] at hanswer
    obtain ⟨rfl, rfl⟩ := hanswer
    exact hexchange

/-- Among others, the calls of a tour go as if it were on its own. -/
theorem plays (ha : service.Aloof) (n place : Nat) (id : String) (stopAt : Option Nat)
    (recorder : Recorder) :
    (host service).Plays (.tour n place id) (service.seclusion recorder)
      (fun c => c.Steady ∧ c.isLeads = false) (fun c => c = .begun) (fun c => c.isDevice = true)
      (Going n stopAt recorder) (seen stopAt id) := by
  have htold : ∀ {w : World σ} {c : RunCall}, c.Steady ∧ c.isLeads = false →
      w.Going n stopAt recorder → Told service n stopAt recorder id (w.seen stopAt id) c
        ((host service).take (w.announce (.tour n place id) c) (.tour n place id) c) := by
    intro w c hc hw
    cases c with
    | device c => exact hw.told_device ha c rfl
    | _ => exact hw.told service rfl hc.1 rfl hc.2
  constructor
  case now => exact fun _ => rfl
  case flag =>
    rintro w ⟨⟨-, -, state, hstate, hflag⟩, -⟩
    have hrun : w.registry.run? (Role.tour n place id).run = some state := hstate
    simp only [host, isStopped, hrun, Option.any_some, hflag]
    rfl
  case admitted =>
    rintro w c ⟨-, hlead⟩ ⟨hcalm, crew, hcrew, hbegun⟩
    cases c with
    | save context artifact => exact hcalm.deserted.admits_announce (c := .save context artifact) rfl
    | begun =>
      have hcrew : w.crew? (Role.tour n place id).run = some crew := hcrew
      simp [host, admits, World.announce, hcrew, hbegun]
    | tours => cases hlead
    | _ => rfl
  case begun => exact fun hc hw => htold hc hw
  case resumed =>
    rintro w _ rfl hw
    exact htold ⟨RunCall.steady_of_changes rfl, rfl⟩ hw
  case answered =>
    intro w c hc hw
    cases c with
    | device c =>
      obtain ⟨devices, hanswer, hstate, -⟩ := answerDevice_eq service w id c
      have hanswer' : w.answer service (.tour n place id) (.device c) =
          ({ w with devices := devices }, (service.optional.answer w.now (w.devices.get? id) c).2) :=
        hanswer
      simp only [host, hanswer']
      exact ⟨⟨⟨⟨hw.1.swift.desk, hw.1.swift.recorder⟩, hw.1.idle, hw.1.flagged⟩, hw.2⟩, rfl,
        congrArg (Moment.mk w.now stopAt) hstate⟩
    | _ => cases hc
  case finished =>
    intro w r hw
    exact ⟨hw.1.finish (.tour n place id) r, hw.2.finish (.tour n place id) r⟩

end World

namespace Session

variable {σ : Type} {s : Session σ}

/-- A swift plan sets up a smooth world. -/
theorem smooth_setUp {plan : SessionPlan σ} {source : SettingsSource} {s : Session σ}
    (h : setUp plan source = .ok s) (hplan : plan.Swift) : s.world.Smooth plan.recorder := by
  obtain ⟨-, -, -, -, places, hdesk⟩ := setUp_blank h
  obtain ⟨-, -, -, -, hrecorder, -⟩ := setUp_eq h
  refine ⟨⟨?_, ?_⟩, ?_⟩
  · intro desk hsome
    rw [hdesk] at hsome
    obtain ⟨make, hmake, rfl⟩ := Option.map_eq_some_iff.1 hsome
    exact hplan.saves make hmake places
  · rw [hrecorder]
    exact ⟨hplan.starts, hplan.stops, id, id, rfl⟩
  · intro q hq
    rw [World.queue?, hdesk, Option.map_map] at hq
    obtain ⟨make, hmake, rfl⟩ := Option.map_eq_some_iff.1 hq
    simp only [Function.comp_apply, hplan.queue make hmake places]
    exact PlaceQueue.idle_ofPlaces places

/-- Where saves and recordings take no time, none is ever under way between two turns. -/
theorem Opened.smooth (ho : s.Opened) (hplan : s.plan.Swift) :
    s.world.Smooth s.plan.recorder := by
  induction ho with
  | setUp h =>
    obtain ⟨rfl, -⟩ := setUp_blank h
    exact smooth_setUp h hplan
  | @next s s' more ho hnext ih =>
    have hsame := hnext.plan_eq
    rw [hsame] at hplan ⊢
    have hw := ih hplan
    cases hnext with
    | @turn i able =>
      obtain ⟨l, strand, hi, -⟩ := takeTurn_spec able
      have hstands : strand.Stands (World.Smooth s.plan.recorder)
          (fun _ => World.Smooth s.plan.recorder) (fun _ => World.Smooth s.plan.recorder)
          s.world := by
        cases strand <;> first | exact hw | trivial
      obtain ⟨_, -, -, hleaves⟩ := takeTurn_keeps hi able
        (World.keeps_smooth s.plan.service l s.plan.recorder) strand.makes_any hstands
      exact hleaves.shared (fun _ h => h) (fun _ _ h => h) (fun _ _ h => h)
        fun w r h => ⟨h.1.finish l r, h.2.finish l r⟩
    | launch suiteId suiteName accepted =>
      rw [world_launch]
      exact ⟨⟨hw.1.desk, hw.1.recorder⟩, hw.2⟩
    | _ => exact ⟨⟨hw.1.desk, hw.1.recorder⟩, hw.2⟩

end Session

end DeviceSuite
