import DeviceSuite.Proofs.Run.Touring
import DeviceSuite.Proofs.Session.Watch

/-!
# Keeping account of the slots

The tasks of a run keep account of its slots: a tour that ends with a result has one for each of its
slots, whenever the run is stopped, and the lead collects what the tours end with.
-/

namespace DeviceSuite

namespace Tour

variable {t : Tour} {g : Graph}

/-- The calls of a tour. -/
def Makes (t : Tour) (c : RunCall) : Prop :=
  c.Steady ∧ c.isLeads = false ∧ c.Concerns t.run.runId t.deviceId

/-- A tour may tell the events of its own run and device. -/
theorem makes_emit {e : Event} (hrun : e.runId = t.run.runId)
    (hdevice : e.deviceId? = some t.deviceId) : t.Makes (.emit e) :=
  ⟨(RunCall.bookkeeping_emit e).1, rfl, RunCall.concerns_emit hrun hdevice⟩

/-- A tour may make a call that tells no event. -/
theorem makes_of_event? {c : RunCall} (hc : c.Steady) (hl : c.isLeads = false)
    (h : c.event? = none) : t.Makes c :=
  ⟨hc, hl, RunCall.concerns_of_event? h _ _⟩

/-- A slot that is run adds its result to that of the device, and no slot is skipped by it. -/
theorem only_visit (k : Nat) (d : DeviceResult) : (t.visit g k d).Only t.Makes fun d' =>
    ∃ r, d' = d.push r ∧ r.scenarioId = g.id ∧ r.scenarioName = g.name ∧
      r.iteration = t.iteration k ∧ r.status ≠ .skipped := by
  simp only [visit, announce, updateDevice, settle, Task.only_bind, RunTask.only_update,
    RunTask.only_emit, RunTask.only_instant, Task.only_ask, Task.only_pure]
  refine ⟨makes_of_event? (RunCall.steady_updateDevice _ _) rfl rfl, fun _ ms =>
    ⟨makes_emit rfl rfl, fun _ => ⟨makes_of_event? (RunCall.steady_of_changes rfl) rfl rfl,
      fun percent => ⟨makes_emit rfl rfl, fun _ => ?_⟩⟩⟩⟩
  apply ((only_film k).weaken fun _ h => ⟨h.1.steady, h.1.isLeads, h.2⟩).mono
  intro r hr
  refine ⟨makes_emit rfl rfl, fun _ =>
    ⟨makes_of_event? (RunCall.steady_completeSlot _) rfl rfl, fun _ => ?_⟩⟩
  have hpush : ∃ r', d.push r = d.push r' ∧ r'.scenarioId = g.id ∧ r'.scenarioName = g.name ∧
      r'.iteration = t.iteration k ∧ r'.status ≠ .skipped := ⟨r, rfl, hr⟩
  exact (t.only_rest k).mono fun _ _ => hpush

end Tour

namespace Books

variable (run : RunState) (scenarios : List Graph)

/-- The result of a tour accounts for all slots of its device. -/
def Accounted (b : Books) (place : Nat) (d : DeviceResult) : Prop :=
  run.request.deviceIds[place]? = some d.deviceId ∧
    d.Accounts scenarios (run.request.repeatCount.toNat * scenarios.length) b.state.stopRequested

/-- The tours that have ended account for their slots, and so does the run when it is over. -/
structure InAccount (b : Books) : Prop where
  reports : ∀ place d, (place, some (.ok d)) ∈ b.crew.reports → b.Accounted run scenarios place d
  result : ∀ r, b.crew.result = some r →
    b.crew.isComplete = true ∧ r.Collects run.request b.crew.outcomes

/-- What a task of a run that keeps account ends with. -/
def EndsInAccount : Role → Books → Option RoleResult → Prop
  | .lead _, b, ending => ∀ r, ending = some (.lead r) →
    b.crew.isComplete = true ∧ r.Collects run.request b.crew.outcomes
  | .tour _ place _, b, ending => ∀ d, ending = some (.tour (.ok d)) →
    b.Accounted run scenarios place d

variable {run scenarios} {b : Books} {l : Role}

/-- The books stay in account when a steady call is made. -/
theorem InAccount.call (h : b.InAccount run scenarios) {c : RunCall} (hc : c.Steady) :
    ((b.note l c).answered l c).InAccount run scenarios := by
  constructor
  · intro place d hd
    rw [crew_call] at hd
    rw [Accounted, stopRequested_call hc]
    exact h.reports place d hd
  · intro r hr
    rw [crew_call] at hr ⊢
    exact h.result r hr

/-- Only the lead ends with the result of a run. -/
theorem lead?_eq_some {ending : Option RoleResult} {r : SuiteResult}
    (h : RoleResult.lead? ending = some r) : ending = some (.lead r) := by
  rcases ending with _ | (_ | r') <;> cases h
  rfl

/-- Only a tour ends with the result of a device. -/
theorem tour?_eq_some {ending : Option RoleResult} {r : TourResult}
    (h : RoleResult.tour? ending = some r) : ending = some (.tour r) := by
  rcases ending with _ | (r' | _) <;> cases h
  rfl

/-- The books stay in account when a task ends in account. -/
theorem InAccount.finish (hs : b.Sound run) (h : b.InAccount run scenarios) (ho : b.Open run l)
    {ending : Option RoleResult} (hends : EndsInAccount run scenarios l b ending) :
    (b.finish l ending).InAccount run scenarios := by
  cases l with
  | lead m => exact ⟨h.reports, fun r hr => hends r (lead?_eq_some hr)⟩
  | tour m place id =>
    constructor
    · intro p d hd
      rcases mem_reports_finish.1 hd with hd | ⟨rfl, htour⟩
      · exact h.reports p d hd
      · exact hends d (tour?_eq_some htour.symm)
    · intro r hr
      have hc := (h.result r hr).1
      rw [hs.not_complete ho] at hc
      cases hc

end Books

/-- The tasks of a run keep account of its slots. -/
def accounting (run : RunState) (n : Nat) (scenarios : List Graph) : Accord run n :=
  .plain (Books.InAccount run scenarios) (fun _ _ _ => True) (Books.EndsInAccount run scenarios)
    (fun _ h => ⟨fun place d hd =>
      ⟨(h.reports place d hd).1, (h.reports place d hd).2.mono fun _ => rfl⟩, h.result⟩)
    (fun _ h => ⟨h.reports, h.result⟩)
    (fun _ _ h _ hc _ => h.call hc)
    (fun _ hs h ho hends => h.finish hs ho hends)

namespace Tour

variable {run : RunState} {n : Nat} {scenarios : List Graph} {l : Role} {b : Books}

/-- A task that makes steady calls goes on as it may, and the stop flag stays raised. -/
theorem abides_steady {α : Type} {t : RunTask α} {P : α → Prop} (stopped : Bool)
    (ht : t.Only RunCall.Steady P) (ho : b.Open run l)
    (hb : stopped = true → b.state.stopRequested = true) :
    t.Abides ((accounting run n scenarios).terms l)
      (Task.Upon (fun b => b.Open run l) fun a b =>
        P a ∧ b.Open run l ∧ (stopped = true → b.state.stopRequested = true)) b := by
  apply (Accord.abides_only
    (J := fun b => b.Open run l ∧ (stopped = true → b.state.stopRequested = true)) ht ⟨ho, hb⟩
    _ _).upon (fun _ h => h.1) fun _ _ h => h
  · intro b b' hb hd
    exact ⟨hd.1.still hb.1, hd.1.stopped ∘ hb.2⟩
  · intro c b hc hb
    exact ⟨⟨hb.1, hc, trivial⟩, hb.1.call c, fun h =>
      (Books.stopRequested_call hc).trans (hb.2 h)⟩

/-- A task that makes steady calls has not ended. -/
theorem abides_open {α : Type} {t : RunTask α} {P : α → Prop} (ht : t.Only RunCall.Steady P)
    (ho : b.Open run l) :
    t.Abides ((accounting run n scenarios).terms l)
      (Task.Upon (fun b => b.Open run l) fun a b => P a ∧ b.Open run l) b :=
  (abides_steady false ht ho fun h => by cases h).upon (fun _ h => h) fun _ _ h => ⟨h.1, h.2.1⟩

/-- A task that makes steady calls changes nothing about the slots done before. -/
theorem abides_accounts {α : Type} {t : RunTask α} {P : α → Prop} {d : DeviceResult} {k : Nat}
    (ht : t.Only RunCall.Steady P) (ho : b.Open run l)
    (hd : d.Accounts scenarios k b.state.stopRequested) :
    t.Abides ((accounting run n scenarios).terms l)
      (Task.Upon (fun b => b.Open run l) fun a b =>
        P a ∧ b.Open run l ∧ d.Accounts scenarios k b.state.stopRequested) b :=
  (abides_steady _ ht ho id).upon (fun _ h => h) fun _ _ h => ⟨h.1, h.2.1, hd.mono h.2.2⟩

variable (t : Tour)

/-- A tour that has not ended has results for so many slots. -/
def Stocked (run : RunState) (l : Role) (k : Nat) (d : DeviceResult) (b : Books) : Prop :=
  b.Open run l ∧ d.Accounts t.scenarios k b.state.stopRequested ∧ d.deviceId = t.deviceId

variable {t} {g : Graph} {d : DeviceResult} {k : Nat}

/-- A slot is skipped only after a stop. -/
theorem accounts_skip (hk : t.scenarios[t.scenarioIndex k]? = some g) (h : t.Stocked run l k d b)
    (hstop : b.state.stopRequested = true) :
    (t.skip g k d).Abides ((accounting run n t.scenarios).terms l)
      (Task.Upon (fun b => b.Open run l) (t.Stocked run l (k + 1))) b := by
  obtain ⟨ho, hd, hid⟩ := h
  have hsteady := (only_skip (t := t) (g := g) k d).weaken fun _ h => h.1.1
  apply (abides_steady true hsteady ho fun _ => hstop).upon fun _ h => h
  rintro d' b' ⟨⟨r, rfl, hgid, hname, hit, hskip, hrest⟩, ho', hstop'⟩
  exact ⟨ho', hd.push hk hgid hname hit (fun hrun => absurd hskip hrun)
    (fun _ => ⟨hstop' rfl, hrest⟩), hid⟩

/-- A slot is run only before a stop, though the stop may come while it is run. -/
theorem accounts_visit (hk : t.scenarios[t.scenarioIndex k]? = some g) (h : t.Stocked run l k d b)
    (hstop : b.state.stopRequested = false) :
    (t.visit g k d).Abides ((accounting run n t.scenarios).terms l)
      (Task.Upon (fun b => b.Open run l) (t.Stocked run l (k + 1))) b := by
  obtain ⟨ho, hd, hid⟩ := h
  apply (abides_open ((only_visit k d).weaken fun _ h => h.1) ho).upon fun _ h => h
  rintro d' b' ⟨⟨r, rfl, hgid, hname, hit, hrun⟩, ho'⟩
  exact ⟨ho', hd.push hk hgid hname hit (fun _ => hstop) (fun hskip => absurd hskip hrun), hid⟩

/-- The slots of a tour have results, one after the other. -/
theorem accounts_work (h : t.Stocked run l 0 d b) :
    (t.work d).Abides ((accounting run n t.scenarios).terms l)
      (Task.Upon (fun b => b.Open run l) (t.Stocked run l t.size)) b := by
  obtain ⟨ho, hd, hid⟩ := h
  have hregister := RunTask.only_call (c := RunCall.register t.context)
    (RunCall.steady_of_changes rfl)
  have hunregister := RunTask.only_call (c := RunCall.unregister t.context)
    (RunCall.steady_of_changes rfl)
  rw [work]
  apply (abides_accounts hregister ho hd).bind
  intro _ b hb
  have hslots : (t.slots t.size 0 d).Abides ((accounting run n t.scenarios).terms l)
      (Task.Upon (fun b => b.Open run l) (t.Stocked run l t.size)) b :=
    t.abides_slots (I := t.Stocked run l) (fun _ hk h hstop => accounts_skip hk h hstop)
      (fun _ hk h hstop => accounts_visit hk h hstop) (Nat.zero_add _) ⟨hb.2.1, hb.2.2, hid⟩
  apply hslots.ensuring
  · intro b ho
    exact (abides_open hunregister ho).upon (fun _ h => h) fun _ _ h => h.2
  · intro d b ⟨ho, hd, hid⟩
    exact (abides_accounts hunregister ho hd).upon (fun _ h => h) fun _ _ h => ⟨h.2.1, h.2.2, hid⟩

/-- A tour that ends with a result accounts for all of its slots. -/
theorem accounts_conduct {place : Nat} (hrun : t.run = run)
    (ho : b.Open run (.tour n place t.deviceId)) :
    t.conduct.Abides ((accounting run n t.scenarios).terms (.tour n place t.deviceId))
      (fun b r => b.Open run (.tour n place t.deviceId) ∧
        Books.EndsInAccount run t.scenarios (.tour n place t.deviceId) b (r.map .tour)) b := by
  suffices h : t.conduct.Abides
      ((accounting run n t.scenarios).terms (.tour n place t.deviceId))
      (Task.Upon (fun b => b.Open run (.tour n place t.deviceId)) fun r b =>
        b.Open run (.tour n place t.deviceId) ∧
          ∀ d, r = .ok d → b.Accounted run t.scenarios place d) b by
    apply h.mono
    intro b r hr
    cases r with
    | none => exact ⟨hr, fun d hd => by cases hd⟩
    | some r => exact ⟨hr.1, fun d hd => hr.2 d (by simpa using hd)⟩
  have hupdate : ∀ f, (t.updateDevice f).Only RunCall.Steady fun _ => True := fun f =>
    RunTask.only_call (RunCall.steady_updateDevice _ f)
  have hemit : ∀ e, (RunTask.emit e).Only RunCall.Steady fun _ => True := fun e =>
    RunTask.only_call (RunCall.bookkeeping_emit e).1
  rw [conduct]
  apply (abides_open (RunTask.only_steady_onDevice _) ho).bind
  rintro r b ⟨-, ho⟩
  cases r with
  | error e => exact ⟨ho, fun d hd => by cases hd⟩
  | ok environment =>
    apply (abides_open (RunTask.only_steady_onDevice _) ho).bind
    rintro appInfo b ⟨-, ho⟩
    apply (abides_open (hupdate _) ho).bind
    rintro _ b ⟨-, ho⟩
    apply Task.Abides.now_bind
    intro ms
    apply (abides_open (hemit _) ho).bind
    rintro _ b ⟨-, ho⟩
    apply (accounts_work ⟨ho, DeviceResult.accounts_blank .., rfl⟩).bind
    rintro d b ⟨ho, hd, hid⟩
    apply (abides_accounts (hupdate _) ho hd).bind
    rintro _ b ⟨-, ho, hd⟩
    apply (abides_accounts (hemit _) ho hd).bind
    rintro _ b ⟨-, ho, hd⟩
    refine ⟨ho, ?_⟩
    intro d' hd'
    obtain rfl : d = d' := Except.ok.inj hd'
    exact ⟨hid ▸ ho.1, hrun ▸ hd⟩

end Tour

namespace RunTask

variable {run : RunState} {n : Nat} {scenarios : List Graph} {b : Books}

/-- What the lead knows once all tours have ended. -/
theorem abides_after_tours {α : Type} {t : RunTask α} {P : α → Prop}
    {outcomes : List (Option TourResult)} (ht : t.Only RunCall.Steady P)
    (hb : b.crew.isComplete = true ∧ b.crew.outcomes = outcomes) :
    t.Abides ((accounting run n scenarios).terms (.lead n))
      (Task.Upon (fun _ => True) fun a b =>
        P a ∧ b.crew.isComplete = true ∧ b.crew.outcomes = outcomes) b := by
  apply (Accord.abides_only (A := accounting run n scenarios) (l := .lead n)
    (J := fun b => b.crew.isComplete = true ∧ b.crew.outcomes = outcomes) ht hb
    _ _).upon (fun _ _ => trivial) fun _ _ h => h
  · intro b b' hb hd
    have htally := hd.1.tally rfl hb.1
    exact ⟨Books.isComplete_of_tally htally ▸ hb.1, Books.outcomes_of_tally htally ▸ hb.2⟩
  · intro c b hc hb
    exact ⟨⟨trivial, hc, trivial⟩, by simpa using hb⟩

/-- The result of a run collects the results of the devices. -/
theorem abides_lead (hs : b.Sound run) :
    (lead run).Abides ((accounting run n scenarios).terms (.lead n))
      (fun b r => Books.EndsInAccount run scenarios (.lead n) b (r.map .lead)) b := by
  suffices h : (lead run).Abides ((accounting run n scenarios).terms (.lead n))
      (Task.Upon (fun _ => True) fun r b =>
        b.crew.isComplete = true ∧ r.Collects run.request b.crew.outcomes) b by
    apply h.mono
    intro b r hr
    cases r with
    | none => exact fun r' hr' => by cases hr'
    | some r =>
      intro r' hr'
      obtain rfl : r = r' := by simpa using hr'
      exact hr
  have hupdate : ∀ status,
      (update fun s => s.withStatus status).Only RunCall.Steady fun _ => True := fun status =>
    only_call (RunCall.steady_withStatus status)
  have hemit : ∀ e, (emit e).Only RunCall.Steady fun _ => True := fun e =>
    only_call (RunCall.bookkeeping_emit e).1
  have harchive : ∀ r, (Task.ask (RunCall.archive r)).Only RunCall.Steady fun _ => True := fun r =>
    only_call (RunCall.steady_of_changes rfl)
  have hretire : (Task.ask RunCall.retire).Only RunCall.Steady fun _ => True :=
    only_call (RunCall.steady_of_changes rfl)
  rw [lead]
  apply (abides_sound (hupdate _) (fun _ _ hc => ⟨hc, trivial⟩) hs).bind
  intro _ b hs
  apply Task.Abides.now_bind
  intro ms
  apply (abides_sound (hemit _) (fun _ _ hc => ⟨hc, trivial⟩) hs).bind
  intro _ b hs
  apply (abides_tours (fun _ => trivial) hs).bind
  intro reports b hb
  have hcollect := (only_collect (run.request.deviceIds.zip reports)).weaken fun _ h => h.1
  apply (abides_after_tours hcollect hb.2).bind
  intro devices b hdevices
  apply Task.Abides.isStopped_bind
  intro stopped _
  apply Task.Abides.now_bind
  intro ms
  apply (abides_after_tours (hupdate _) hdevices.2).bind
  intro _ b hb'
  apply (abides_after_tours (harchive _) hb'.2).bind
  intro _ b hb'
  apply (abides_after_tours hretire hb'.2).bind
  intro _ b hb'
  apply (abides_after_tours (hemit _) hb'.2).bind
  intro _ b hb'
  refine ⟨hb'.2.1, ?_, rfl⟩
  have hlen : run.request.deviceIds.length = reports.length := by
    rw [← hb.2.2, Crew.outcomes, List.length_map, List.length_range, hb.1.size]
  have hzip : (run.request.deviceIds.zip reports).map (·.2) = reports :=
    List.map_snd_zip (Nat.le_of_eq hlen.symm)
  rw [hb'.2.2]
  exact hdevices.1.trans (congrArg okayed hzip)

end RunTask

/-- The tasks of a run keep account of its slots from the beginning. -/
theorem accounting_joined (run : RunState) (n : Nat) (scenarios : List Graph) :
    (accounting run n scenarios).Joined scenarios where
  blank := ⟨fun _ _ h => absurd h List.not_mem_nil, fun _ h => by cases h⟩
  lead hd := RunTask.abides_lead (hd.1.sound (Books.blank_sound run))
  tour := by
    rintro t place b hrun rfl hid - hd
    refine ⟨trivial, fun hd' => t.accounts_conduct hrun ?_⟩
    exact hd'.1.still ((hd.1.still (Books.blank_open hid)).call .begun)

end DeviceSuite
