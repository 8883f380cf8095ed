import DeviceSuite.Proofs.Task.Alike
import DeviceSuite.Run.World

/-!
# A tour on its own

A tour on its own has its device to talk to, and a recorder that takes no time. It tells events,
keeps books and saves pictures as well, but nothing comes of that for itself: these calls take no
time, and it goes on as before whatever is replied.
-/

namespace DeviceSuite

/-- A service that does not stop the runs. -/
def Service.Aloof {C : Type} {R : C → Type} {σ : Type} (service : Service R σ) : Prop :=
  ∀ now state c, .stop ∉ (service.accept now state c).signals

/-- A service that may be missing, in which case its calls crash. -/
def Service.optional {C : Type} {R : C → Type} {σ : Type} (service : Service R σ) :
    Service R (Option σ) where
  accept now state c := match state with
    | none => ⟨none, 0, []⟩
    | some state =>
      let taken := service.accept now state c
      ⟨some taken.state, taken.latency, taken.signals⟩
  answer now state c := match state with
    | none => (none, none)
    | some state =>
      let (state, reply) := service.answer now state c
      (some state, reply)

/-- A service that may be missing stops no more runs than one that is there. -/
theorem Service.Aloof.optional {C : Type} {R : C → Type} {σ : Type} {service : Service R σ}
    (h : service.Aloof) : service.optional.Aloof := by
  intro now state c
  cases state with
  | none => exact List.not_mem_nil
  | some state => exact h now state c

/-- A call to a service that stops nothing is answered when its time is over. -/
theorem Service.Aloof.exchange {C : Type} {R : C → Type} {σ : Type} {service : Service R σ}
    (h : service.Aloof) (m : Moment σ) (c : C) :
    let taken := service.accept m.now m.state c
    let answered := service.answer (m.now + taken.latency) taken.state c
    service.exchange m c =
      (answered.2, { m with now := m.now + taken.latency, state := answered.1 }) := by
  simp [Service.exchange, h m.now m.state c]

/-- Whether a call goes to the device. -/
def RunCall.isDevice : RunCall → Bool
  | device _ => true
  | _ => false

/-- What a recorder answers if it has no answers prepared. -/
def Recorder.Says (recorder : Recorder) : (c : RunCall) → c.Reply → Prop
  | .startVideo _, outcome => recorder.starts = [] → outcome = .started
  | .stopVideo context, outcome => recorder.stops = [] → outcome = recorder.ending context
  | _, _ => True

/-- The surroundings of a tour on its own: its device, which may be missing, and a recorder. All
other calls take no time and are replied to somehow. -/
def Service.seclusion {σ : Type} (service : Service DeviceCall.Reply σ) (recorder : Recorder) :
    Surroundings RunCall.Reply (Option σ) where
  replies
    | .device c, m, reply, m' => service.optional.exchange m c = (reply, m')
    | c, m, reply, m' => m' = m ∧ ∃ word, reply = some word ∧ recorder.Says c word
  answers
    | .device c, m, reply, m' =>
      reply = (service.optional.answer m.now m.state c).2 ∧
        m' = { m with state := (service.optional.answer m.now m.state c).1 }
    | _, _, _, _ => False

/-- Nothing happens in the calls that are not to the device. -/
theorem Service.idles {σ : Type} (service : Service DeviceCall.Reply σ) (recorder : Recorder)
    {c : RunCall} (hc : c.isDevice = false) : (service.seclusion recorder).Idles c := by
  intro m r m' h
  cases c with
  | device c => cases hc
  | _ =>
    obtain ⟨rfl, word, rfl, -⟩ := h
    exact ⟨rfl, word, rfl⟩

/-! ## Seclusions side by side -/

/-- Two services do the same when as much time has passed since their starts. -/
structure Service.InStep {C : Type} {R : C → Type} {σ : Type} (start start' : Nat)
    (service service' : Service R σ) : Prop where
  accept : ∀ k state c,
    service.accept (start + k) state c = service'.accept (start' + k) state c
  answer : ∀ k state c,
    service.answer (start + k) state c = service'.answer (start' + k) state c

namespace Service.InStep

variable {C : Type} {R : C → Type} {σ : Type} {start start' : Nat} {service service' : Service R σ}

/-- A service is in step with itself begun at the same time. -/
theorem refl (start : Nat) (service : Service R σ) : InStep start start service service :=
  ⟨fun _ _ _ => rfl, fun _ _ _ => rfl⟩

/-- Services that are in step remain so when both may be missing. -/
theorem optional (h : InStep start start' service service') :
    InStep start start' service.optional service'.optional := by
  refine ⟨fun k state c => ?_, fun k state c => ?_⟩
  · cases state with
    | none => rfl
    | some state => simp only [Service.optional, h.accept]
  · cases state with
    | none => rfl
    | some state => simp only [Service.optional, h.answer]

/-- From moments that go together, services in step answer the same, at moments that go together. -/
theorem exchange (h : InStep start start' service service') (ha : service.Aloof)
    (ha' : service'.Aloof) {m m' : Moment σ} (hm : m.Meets start start' m') (c : C) :
    (service.exchange m c).1 = (service'.exchange m' c).1 ∧
      (service.exchange m c).2.Meets start start' (service'.exchange m' c).2 := by
  obtain ⟨⟨k, hnow, hnow'⟩, hstop, hstate⟩ := id hm
  have haccept : service.accept m.now m.state c = service'.accept m'.now m'.state c := by
    rw [hnow, hnow', hstate, h.accept]
  have hanswer : ∀ ms state, service.answer (m.now + ms) state c =
      service'.answer (m'.now + ms) state c := by
    intro ms state
    rw [hnow, hnow', Nat.add_assoc, Nat.add_assoc, h.answer]
  simp only [ha.exchange, ha'.exchange, haccept, hanswer]
  exact ⟨trivial, hm.level.add _, hstop, rfl⟩

end Service.InStep

/-- Two recorders that had no answers prepared, and say the same of the same slot of a device,
whatever the run is called. -/
structure Recorder.Agrees (recorder recorder' : Recorder) : Prop where
  starts : recorder.starts = [] ∧ recorder'.starts = []
  stops : recorder.stops = [] ∧ recorder'.stops = []
  ending : ∀ runId runId' id scenarioId iteration,
    recorder.ending ((Context.forDevice runId runId id).forScenario scenarioId iteration) =
      recorder'.ending ((Context.forDevice runId' runId' id).forScenario scenarioId iteration)

/-- A comparison in which the calls of a tour are replied to alike: nothing happens but with the
device, which answers the same, and so does the recorder if the videos matter. -/
structure Comparison.Secludes {τ : Type} (K : Comparison RunCall.Reply τ) (videos : Bool) :
    Prop where
  device : ∀ c, K.Replies (.device c) (.device c) (· = ·)
  aside : ∀ c, c.isDevice = false → K.left.Idles c ∧ K.right.Idles c
  started : videos = true → ∀ context context',
    K.Replies (.startVideo context) (.startVideo context') (· = ·)
  stopped : videos = true → ∀ runId runId' id scenarioId iteration,
    K.Replies (.stopVideo ((Context.forDevice runId runId id).forScenario scenarioId iteration))
      (.stopVideo ((Context.forDevice runId' runId' id).forScenario scenarioId iteration)) (· = ·)

/-- Tours are secluded alike with devices that are in step. -/
theorem Service.InStep.secludes {σ : Type} {start start' : Nat}
    {service service' : Service DeviceCall.Reply σ} (h : InStep start start' service service')
    (ha : service.Aloof) (ha' : service'.Aloof) {recorder recorder' : Recorder} {videos : Bool}
    (hvideos : videos = true → recorder.Agrees recorder') :
    (Comparison.mk (service.seclusion recorder) (service'.seclusion recorder') start
      start').Secludes videos := by
  constructor
  case device =>
    intro c m m' r m₁ r' m₁' hm hr hr'
    have hr : service.optional.exchange m c = (r, m₁) := hr
    have hr' : service'.optional.exchange m' c = (r', m₁') := hr'
    obtain ⟨hreply, hmeets⟩ := h.optional.exchange ha.optional ha'.optional hm c
    rw [hr, hr'] at hreply hmeets
    obtain rfl : r = r' := hreply
    refine ⟨hmeets, ?_⟩
    cases r with
    | none => exact .none
    | some a => exact .some rfl
  case aside => exact fun c hc => ⟨service.idles recorder hc, service'.idles recorder' hc⟩
  case started =>
    rintro hv context context' m m' _ _ _ _ hm ⟨rfl, word, rfl, hword⟩ ⟨rfl, word', rfl, hword'⟩
    obtain ⟨hstarts, hstarts'⟩ := (hvideos hv).starts
    exact ⟨hm, .some ((hword hstarts).trans (hword' hstarts').symm)⟩
  case stopped =>
    rintro hv runId runId' id scenarioId iteration m m' _ _ _ _ hm ⟨rfl, word, rfl, hword⟩
      ⟨rfl, word', rfl, hword'⟩
    obtain ⟨hstops, hstops'⟩ := (hvideos hv).stops
    have hending := (hvideos hv).ending runId runId' id scenarioId iteration
    exact ⟨hm, .some (((hword hstops).trans hending).trans (hword' hstops').symm)⟩

end DeviceSuite
