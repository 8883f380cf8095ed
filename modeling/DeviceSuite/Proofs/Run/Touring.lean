import DeviceSuite.Proofs.Result.Accounts
import DeviceSuite.Proofs.Run.Rules
import DeviceSuite.Proofs.Run.Slot
import DeviceSuite.Run.Lead

/-!
# Making a tour

A tour does its slots one after the other, and looks at the stop flag before each. So what holds of
the slots done so far, and is kept by one more, whether it is run or skipped, holds of the tour.
The lead collects what the tours end with.
-/

namespace DeviceSuite

namespace RunCall

/-- To change the progress of a device is steady. -/
theorem steady_updateDevice (id : String) (f : DeviceProgress → DeviceProgress) :
    (update fun s => s.updateDevice id f).Steady := by
  rintro g ⟨⟩ s
  exact ⟨rfl, rfl⟩

/-- To count a slot is steady. -/
theorem steady_completeSlot (id : String) : (update fun s => s.completeSlot id).Steady := by
  rintro g ⟨⟩ s
  exact ⟨rfl, rfl⟩

/-- To write off a device is steady. -/
theorem steady_writeOff (id : String) : (update fun s => s.writeOff id).Steady := by
  rintro g ⟨⟩ s
  exact ⟨rfl, rfl⟩

/-- To set the status is steady. -/
theorem steady_withStatus (status : RunStatus) : (update fun s => s.withStatus status).Steady := by
  rintro g ⟨⟩ s
  exact ⟨rfl, rfl⟩

end RunCall

namespace Tour

variable {run : RunState} {n : Nat} {A : Accord run n} {l : Role} (t : Tour)

/-- Each slot has a scenario. -/
theorem scenario_of_lt {k : Nat} (hk : k < t.size) :
    ∃ g, t.scenarios[t.scenarioIndex k]? = some g := by
  have hpos : 0 < t.scenarios.length := by
    apply Nat.pos_of_ne_zero
    intro h
    rw [size, h, Nat.mul_zero] at hk
    omega
  exact ⟨_, List.getElem?_eq_getElem (Nat.mod_lt k hpos)⟩

/-- The slots keep what each of them keeps. -/
theorem abides_slots {X : Books → Prop} {I : Nat → DeviceResult → Books → Prop}
    (hskip : ∀ {k g d b}, k < t.size → t.scenarios[t.scenarioIndex k]? = some g → I k d b →
      b.state.stopRequested = true →
      (t.skip g k d).Abides (A.terms l) (Task.Upon X (I (k + 1))) b)
    (hvisit : ∀ {k g d b}, k < t.size → t.scenarios[t.scenarioIndex k]? = some g → I k d b →
      b.state.stopRequested = false →
      (t.visit g k d).Abides (A.terms l) (Task.Upon X (I (k + 1))) b)
    {left k : Nat} {d : DeviceResult} {b : Books} (hk : k + left = t.size) (hb : I k d b) :
    (t.slots left k d).Abides (A.terms l) (Task.Upon X (I t.size)) b := by
  induction left generalizing k d b with
  | zero =>
    obtain rfl : k = t.size := hk
    exact hb
  | succ left ih =>
    have hlt : k < t.size := by omega
    obtain ⟨g, hg⟩ := t.scenario_of_lt hlt
    rw [slots, hg]
    apply Task.abides_bind.2
    intro stopped hread
    dsimp only [Option.elim]
    have hread : stopped = b.state.stopRequested := hread
    cases hstop : b.state.stopRequested with
    | true =>
      rw [hread, hstop]
      exact (hskip hlt hg hb hstop).bind fun d b hb => ih (by omega) hb
    | false =>
      rw [hread, hstop]
      exact (hvisit hlt hg hb hstop).bind fun d b hb => ih (by omega) hb

variable {t} {g : Graph}

/-- The calls of a slot that is skipped. -/
def Skips (t : Tour) (c : RunCall) : Prop :=
  c.Bookkeeping ∧ c.isLeads = false ∧ c.Concerns t.run.runId t.deviceId

/-- A slot that is skipped adds a result without steps, and nothing but the books is kept for it. -/
theorem only_skip (k : Nat) (d : DeviceResult) : (t.skip g k d).Only t.Skips fun d' =>
    ∃ r, d' = d.push r ∧ r.scenarioId = g.id ∧ r.scenarioName = g.name ∧
      r.iteration = t.iteration k ∧ r.status = .skipped ∧ r.stepResults = [] ∧
      r.error = some skipText := by
  simp only [skip, settle, Task.only_bind, RunTask.only_instant, RunTask.only_update,
    Task.only_pure]
  exact fun ms => ⟨⟨⟨RunCall.steady_completeSlot _, rfl⟩, rfl, RunCall.concerns_of_event? rfl _ _⟩,
    fun _ => ⟨_, rfl, rfl, rfl, rfl, rfl, rfl, rfl⟩⟩

/-- The calls of a slot that is run. -/
def Films (t : Tour) (c : RunCall) : Prop := c.OfSlot ∧ c.Concerns t.run.runId t.deviceId

/-- A slot is recorded to a result of its scenario and repeat that is not a skipped one. -/
theorem only_film (k : Nat) : (t.film g k).Only t.Films fun r =>
    r.scenarioId = g.id ∧ r.scenarioName = g.name ∧ r.iteration = t.iteration k ∧
      r.status ≠ .skipped := by
  have hmakes : ∀ c, (t.plan g k).Makes c → t.Films c := fun _ h => ⟨h.1.ofSlot, h.2⟩
  have hrun := ((t.plan g k).only_run g (t.iteration k)).weaken hmakes
  have hend : ∀ recording : Bool, ((t.plan g k).run g (t.iteration k)).Only t.Films fun r =>
      (if recording then do
        let outcome ← Task.ask (RunCall.stopVideo (t.plan g k).context)
        return { r with videoPath := if outcome.success then outcome.localPath else none }
      else return r : RunTask ScenarioResult).Only t.Films fun r =>
      r.scenarioId = g.id ∧ r.scenarioName = g.name ∧ r.iteration = t.iteration k ∧
        r.status ≠ .skipped := fun recording => hrun.mono fun r hr => by
    cases recording
    · exact hr
    · have hstop : t.Films (.stopVideo (t.plan g k).context) :=
        ⟨trivial, RunCall.concerns_of_event? rfl _ _⟩
      exact Task.only_bind.2 (Task.only_ask.2 ⟨hstop, fun _ => hr⟩)
  simp only [film]
  split
  · simp only [Task.only_bind, Task.only_ask, Task.only_pure]
    exact ⟨⟨trivial, RunCall.concerns_of_event? rfl _ _⟩, fun outcome => hend _⟩
  · simp only [Task.only_bind, Task.only_pure]
    exact hend false

end Tour

/-! ## What is true of every result of a tour -/

/-- The results of slots that an event carries. -/
def Event.results : Event → List ScenarioResult
  | scenarioComplete _ _ result => [result]
  | deviceComplete _ result => result.scenarioResults
  | complete _ result | stopped _ result =>
    result.deviceResults.flatMap DeviceResult.scenarioResults
  | _ => []

/-- The results of slots that a call tells are such as `P` says. -/
def RunCall.Tells (P : ScenarioResult → Prop) (c : RunCall) : Prop :=
  ∀ e ∈ c.event?, ∀ r ∈ e.results, P r

/-- The results of the slots of a device are such as `P` says. -/
def DeviceResult.Each (P : ScenarioResult → Prop) (d : DeviceResult) : Prop :=
  ∀ r ∈ d.scenarioResults, P r

section Each

variable {P : ScenarioResult → Prop} {c : RunCall}

/-- A call without an event tells no results. -/
theorem RunCall.tells_of_event? (h : c.event? = none) : c.Tells P := by simp [Tells, h]

/-- An event tells the results that it carries. -/
theorem RunCall.tells_emit {e : Event} (h : ∀ r ∈ e.results, P r) : (emit e).Tells P := by
  rintro _ ⟨⟩
  exact h

/-- The steps of a slot tell no results. -/
theorem RunCall.OfSlot.tells (h : c.OfSlot) : c.Tells P := by
  intro e he
  cases c with
  | emit e' =>
    obtain rfl : e' = e := Option.some.inj he
    cases e' <;> first | exact List.forall_mem_nil _ | exact h.elim
  | _ => cases he

/-- The results of a device are such as `P` says with one more that is. -/
theorem DeviceResult.Each.push {d : DeviceResult} {r : ScenarioResult} (h : d.Each P) (hr : P r) :
    (d.push r).Each P :=
  List.forall_mem_append.2 ⟨h, List.forall_mem_singleton.2 hr⟩

namespace Tour

variable {t : Tour} {g : Graph} {k : Nat} {d : DeviceResult}

/-- What is true of the results of a scenario, and has nothing to do with videos, is true of the
results of its slots. -/
theorem only_film_each (hrun : ((t.plan g k).run g (t.iteration k)).Only (fun _ => True) P)
    (hvideo : ∀ r path, P r → P { r with videoPath := path }) :
    (t.film g k).Only (RunCall.Tells P) P := by
  have hend : ∀ recording : Bool, Task.Only (fun _ => True) P (do
      let result ← (t.plan g k).run g (t.iteration k)
      if recording then
        let outcome ← Task.ask (RunCall.stopVideo (t.plan g k).context)
        return { result with videoPath := if outcome.success then outcome.localPath else none }
      else return result : RunTask ScenarioResult) := by
    intro recording
    apply Task.only_bind.2
    apply hrun.mono
    intro r hr
    split
    · exact Task.only_bind.2 (Task.only_ask.2 ⟨trivial, fun outcome => hvideo r _ hr⟩)
    · exact hr
  have hfilm : (t.film g k).Only (fun _ => True) P := by
    rw [film]
    dsimp only
    split
    · exact Task.only_bind.2 (Task.only_ask.2 ⟨trivial, fun _ => hend _⟩)
    · exact hend false
  exact (((only_film k).and hfilm).weaken fun _ h => h.1.1.tells).mono fun _ h => h.2

/-- A slot is settled with a result that is such as `P` says. -/
theorem only_settle_each (hd : d.Each P) {r : ScenarioResult} (hr : P r) :
    (t.settle d r).Only (RunCall.Tells P) (DeviceResult.Each P) :=
  Task.only_bind.2 (RunTask.only_update.2 ⟨RunCall.tells_of_event? rfl, fun _ => hd.push hr⟩)

/-- A slot that is run adds a result such as `P` says if its recording comes to one. -/
theorem only_visit_each (hfilm : (t.film g k).Only (RunCall.Tells P) P) (hd : d.Each P) :
    (t.visit g k d).Only (RunCall.Tells P) (DeviceResult.Each P) := by
  simp only [visit, announce, updateDevice, Task.only_bind, RunTask.only_update, RunTask.only_emit,
    RunTask.only_instant, Task.only_ask]
  refine ⟨RunCall.tells_of_event? rfl, fun _ ms => ⟨RunCall.tells_emit (List.forall_mem_nil _),
    fun _ => ⟨RunCall.tells_of_event? rfl, fun percent =>
      ⟨RunCall.tells_emit (List.forall_mem_nil _), fun _ => ?_⟩⟩⟩⟩
  apply hfilm.mono
  intro r hr
  refine ⟨RunCall.tells_emit (List.forall_mem_singleton.2 hr), fun _ => ?_⟩
  apply (only_settle_each hd hr).mono
  intro d' hd'
  exact (t.only_rest k).mono fun _ _ => hd'

/-- The slots of a tour have results such as those of each scenario that is run, and of each that
is skipped. -/
theorem only_slots_each (hfilm : ∀ g ∈ t.scenarios, ∀ k, (t.film g k).Only (RunCall.Tells P) P)
    (hskip : ∀ g ∈ t.scenarios, ∀ k now,
      P { ScenarioResult.skipped g.id (t.iteration k) skipText now with scenarioName := g.name })
    (left : Nat) (hd : d.Each P) :
    (t.slots left k d).Only (RunCall.Tells P) (DeviceResult.Each P) := by
  induction left generalizing k d with
  | zero => exact hd
  | succ left ih =>
    rw [slots]
    split
    · exact hd
    · next g hg =>
      have hmem : g ∈ t.scenarios := List.mem_of_getElem? hg
      apply Task.only_bind.2
      intro stopped
      cases stopped with
      | true =>
        refine Task.only_bind.2 (Task.only_bind.2 fun time => ?_)
        exact (only_settle_each hd (hskip g hmem k _)).mono fun _ => ih
      | false => exact Task.only_bind.2 ((only_visit_each (hfilm g hmem k) hd).mono fun _ => ih)

/-- So has the whole tour, and it tells no other results. -/
theorem only_conduct_each (hfilm : ∀ g ∈ t.scenarios, ∀ k, (t.film g k).Only (RunCall.Tells P) P)
    (hskip : ∀ g ∈ t.scenarios, ∀ k now,
      P { ScenarioResult.skipped g.id (t.iteration k) skipText now with scenarioName := g.name }) :
    t.conduct.Only (RunCall.Tells P) fun r => ∀ d, r = .ok d → d.Each P := by
  have hdevice : ∀ {α : Type} (task : DeviceTask α),
      (RunTask.onDevice task).Only (RunCall.Tells P) fun _ => True := fun task =>
    (RunTask.only_onDevice task).weaken fun _ h => RunCall.tells_of_event? h.event?
  have hupdate : ∀ f, (t.updateDevice f).Only (RunCall.Tells P) fun _ => True := fun f =>
    RunTask.only_call (RunCall.tells_of_event? rfl)
  have hwork : ∀ d : DeviceResult, d.Each P →
      (t.work d).Only (RunCall.Tells P) (DeviceResult.Each P) := fun d hd =>
    Task.only_bind.2 ((RunTask.only_call (RunCall.tells_of_event? rfl)).mono fun _ _ =>
      (only_slots_each hfilm hskip t.size hd).ensuring
        (RunTask.only_call (RunCall.tells_of_event? rfl)))
  rw [conduct]
  apply Task.only_bind.2
  apply (hdevice _).mono
  rintro (e | environment) _
  · exact fun d hd => by cases hd
  · simp only [Task.only_bind, RunTask.only_instant, RunTask.only_emit, Task.only_pure]
    apply (hdevice _).mono
    intro appInfo _
    apply (hupdate _).mono
    intro _ _ ms
    refine ⟨RunCall.tells_emit (List.forall_mem_nil _), fun _ => ?_⟩
    refine (hwork _ fun r hr => absurd hr List.not_mem_nil).mono ?_
    intro d hd
    apply (hupdate _).mono
    intro _ _
    exact ⟨RunCall.tells_emit hd, fun _ d' hd' => Except.ok.inj hd' ▸ hd⟩

end Tour

end Each

namespace RunTask

variable {run : RunState} {n : Nat} {A : Accord run n} {b : Books}

/-- What the lead does before the tours leaves the books sound. -/
theorem abides_sound {α : Type} {t : RunTask α} {H : RunCall → Prop} {P : α → Prop}
    (ht : t.Only H P) (hH : ∀ c b, H c → c.Steady ∧ A.may (.lead n) b c) (hs : b.Sound run) :
    t.Abides (A.terms (.lead n)) (Task.Upon (fun _ => True) fun _ b => b.Sound run) b := by
  have hcall : ∀ c b, H c → b.Sound run →
      (A.terms (.lead n)).may b c ∧ ((b.note (.lead n) c).answered (.lead n) c).Sound run := by
    intro c b hc hs
    obtain ⟨hsteady, hmay⟩ := hH c b hc
    exact ⟨⟨trivial, hsteady, hmay⟩, hs.call hsteady⟩
  have hdrifts : ∀ b b', b.Sound run → (A.terms (.lead n)).drifts b b' → b'.Sound run :=
    fun b b' hs hd => hd.1.sound hs
  exact (Accord.abides_only ht hs hdrifts hcall).upon (fun _ _ => trivial) fun _ _ h => h.2

/-- The lead waits for the tours and is told what came of them. -/
theorem abides_tours (hmay : ∀ b, A.may (.lead n) b .tours) (hs : b.Sound run) :
    (Task.ask RunCall.tours).Abides (A.terms (.lead n)) (Task.Upon (fun _ => True) fun reports b =>
      b.Sound run ∧ b.crew.isComplete = true ∧ b.crew.outcomes = reports) b := by
  have hsteady : RunCall.tours.Steady := RunCall.steady_of_changes rfl
  apply Accord.abides_queued rfl
  intro b' hd
  refine ⟨⟨trivial, hsteady, hmay b'⟩, ?_⟩
  rintro b'' _ hd' hcomplete rfl
  have htally := hd'.1.tally rfl (hcomplete rfl)
  have hs' := (hd.1.sound hs).call (l := .lead n) hsteady
  exact ⟨hd'.1.sound hs', Books.isComplete_of_tally htally ▸ hcomplete rfl, rfl⟩

/-- The results of the devices are collected in their order. -/
theorem only_collect (entries : List (String × Option TourResult)) :
    (collect entries).Only (fun c => c.Steady ∧ c.changes = true) fun devices =>
      devices = okayed (entries.map (·.2)) := by
  induction entries using collect.induct with
  | case1 => exact rfl
  | case2 id result rest ih =>
    rw [collect]
    exact Task.only_bind.2 (ih.mono fun devices hdevices => hdevices ▸ rfl)
  | case3 id outcome rest houtcome ih =>
    rw [collect]
    · apply Task.only_bind.2
      refine only_update.2 ⟨⟨RunCall.steady_writeOff id, rfl⟩, ?_⟩
      intro _
      apply ih.mono
      intro devices hdevices
      apply hdevices.trans
      rcases outcome with _ | (e | result)
      · rfl
      · rfl
      · exact absurd rfl (houtcome result)
    · exact houtcome

end RunTask

end DeviceSuite
