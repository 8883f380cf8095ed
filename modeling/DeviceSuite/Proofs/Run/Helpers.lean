import DeviceSuite.Proofs.Run.Bare
import DeviceSuite.Run.Lead
import DeviceSuite.Run.Tour

/-!
# Tours with other helpers

Two tours of one device through the same scenarios, with the same policies, are twins whatever
their helpers do and whether they take pictures or not: a picture and a recording are done aside,
and no answer of a helper decides how a walk goes on.
-/

namespace DeviceSuite

open RunCall

/-- Settings that differ at most in what does not concern the walk of a scenario. -/
structure Settings.Agrees (s s' : Settings) : Prop where
  retry : s.retry = s'.retry
  poll : s.poll = s'.poll
  visits : s.maxNodeVisits = s'.maxNodeVisits

namespace SlotPlan

variable {p p' : SlotPlan} {n : Node} {options : StepOptions} {r r' : ScenarioResult}

/-- The results of slots and how the walk goes on are the same but for pictures. -/
def Same (x y : ScenarioResult × Flow) : Prop := x.1.bare = y.1.bare ∧ x.2 = y.2

/-- To photograph a failure is to call nothing but helpers. -/
theorem aside_photograph (p : SlotPlan) (n : Node) : (p.photograph n).Aside (pairing True) := by
  refine (RunTask.aside_onDevice_screenshot trivial).bind fun shot => ?_
  cases shot with
  | error e => trivial
  | ok bytes =>
    have hread : RunTask.instant.Aside (pairing True) := fun _ => trivial
    refine hread.bind fun time => ?_
    have hsave : ∀ artifact, (Task.ask (RunCall.save p.context artifact)).Aside (pairing True) :=
      fun _ => ⟨trivial, fun _ => trivial⟩
    refine (hsave _).bind fun receipt => ?_
    cases receipt <;> trivial

/-- Actions are carried out by the settings that have to agree. -/
theorem conduct_congr (h : p.settings.Agrees p'.settings) (n : Node) (options : StepOptions) :
    n.conduct p.settings options = n.conduct p'.settings options := by
  have haction : ∀ a : Action, a.conduct p.settings options = a.conduct p'.settings options := by
    intro a
    cases a <;> simp only [Action.conduct, Settings.retryFor, Settings.pollFor, h.retry, h.poll]
  simp only [Node.conduct, haction]

/-- Conditions are decided by the settings that have to agree. -/
theorem evaluate_congr (h : p.settings.Agrees p'.settings) (n : Node) (options : StepOptions) :
    n.evaluate p.settings options = n.evaluate p'.settings options := by
  simp only [Node.evaluate, Settings.retryFor, h.retry]

/-- A picture does not work the device. -/
theorem acts_ne_screenshot (c : DeviceCall) (h : c.Acts) : c ≠ .screenshot := by
  rintro rfl
  exact h

/-- Twins carry out an action alike, and their pictures do not matter. -/
theorem twin_conduct (h : p.settings.Agrees p'.settings) (n : Node) (options : StepOptions) :
    (p.conduct n options).Twin (pairing True) (fun x y => x.1 = y.1) (p'.conduct n options) := by
  rw [conduct, conduct, conduct_congr h]
  refine (RunTask.twin_onDevice (n.only_conduct _ options) acts_ne_screenshot trivial).bind ?_
  rintro ⟨outcome, stopped⟩ _ rfl
  dsimp only
  -- Each of the two may take a picture or not.
  split
  · split
    · exact (p.aside_photograph n).twins (p'.aside_photograph n) fun _ _ => .done rfl
    · exact (p.aside_photograph n).twin_left fun _ => .done rfl
  · split
    · exact (p'.aside_photograph n).twin_right fun _ => .done rfl
    · exact .done rfl

/-- Twins tell records alike. -/
theorem twin_complete (h : r.bare = r'.bare) (step : StepResult) :
    (p.complete r step).Twin (pairing True) (fun x y => x.bare = y.bare) (p'.complete r' step) := by
  obtain ⟨screenshots, videoPath, rfl⟩ := ScenarioResult.exists_of_bare_eq h
  exact (RunTask.twin_emit _ _).bind fun _ _ _ => .done rfl

/-- Twins tell alike of a step that is to come. -/
theorem twin_forewarn (h : r.bare = r'.bare) (n : Node) (started : Nat) :
    (p.forewarn n started r).Twin (pairing True) (fun x y => x.bare = y.bare)
      (p'.forewarn n started r') := by
  obtain ⟨screenshots, videoPath, rfl⟩ := ScenarioResult.exists_of_bare_eq h
  rw [forewarn, forewarn]
  split
  · exact (RunTask.twin_emit _ _).bind fun _ _ _ => .done rfl
  · exact .done h

/-- Twins conclude a step alike, and its picture does not matter. -/
theorem twin_conclude (h : r.bare = r'.bare) (n : Node) (started : Nat) (outcome : Outcome)
    (picture picture' : Option String) (ended : Nat) :
    (p.conclude n started r outcome picture ended).Twin (pairing True) Same
      (p'.conclude n started r' outcome picture' ended) := by
  have hphotographed : ({ r with screenshots := r.screenshots ++ picture.toList }).bare =
      ({ r' with screenshots := r'.screenshots ++ picture'.toList }).bare := h
  simp only [conclude]
  split
  · exact (twin_complete hphotographed _).bind fun _ _ hr => .done ⟨hr, rfl⟩
  · exact (twin_complete hphotographed _).bind fun _ _ hr => .done ⟨hr, rfl⟩

/-- Twins act alike. -/
theorem twin_act (hp : p.settings.Agrees p'.settings) (h : r.bare = r'.bare) (n : Node)
    (options : StepOptions) (started : Nat) :
    (p.act n options started r).Twin (pairing True) Same (p'.act n options started r') := by
  rw [act_eq, act_eq]
  refine (twin_forewarn h n started).bind fun r r' hr => ?_
  refine (twin_conduct hp n options).bind ?_
  rintro ⟨outcome, picture⟩ ⟨_, picture'⟩ rfl
  exact .clock fun ended => twin_conclude hr n started outcome picture picture' ended

/-- Twins decide alike. -/
theorem twin_decide (hp : p.settings.Agrees p'.settings) (h : r.bare = r'.bare) (n : Node)
    (options : StepOptions) (started : Nat) :
    (p.decide n options started r).Twin (pairing True) Same (p'.decide n options started r') := by
  rw [decide, decide, evaluate_congr hp]
  refine (RunTask.twin_onDevice (n.only_evaluate _ options) acts_ne_screenshot trivial).bind ?_
  rintro answer _ rfl
  exact .clock fun ended => (twin_complete h _).bind fun _ _ hr => .done ⟨hr, rfl⟩

/-- A step is the same with other helpers. -/
theorem twin_step (hp : p.settings.Agrees p'.settings) (h : r.bare = r'.bare) (n : Node) :
    (p.step n r).Twin (pairing True) Same (p'.step n r') := by
  rw [step, step]
  split
  · exact .done ⟨h, rfl⟩
  · refine .clock fun started => (RunTask.twin_emit _ _).bind fun _ _ _ => ?_
    split
    · exact (twin_complete h _).bind fun _ _ hr => .done ⟨hr, rfl⟩
    · split
      · exact twin_decide hp h n _ started
      · exact twin_act hp h n _ started

/-- Results that agree but for pictures do so with a failure, too. -/
theorem bare_withFailure (h : r.bare = r'.bare) (error : String) :
    (r.withFailure error).bare = (r'.withFailure error).bare := by
  obtain ⟨screenshots, videoPath, rfl⟩ := ScenarioResult.exists_of_bare_eq h
  rfl

/-- A walk is the same with other helpers: what they answer leads it nowhere else. -/
theorem twin_walk (hp : p.settings.Agrees p'.settings) (nav : Navigator) (n : Node)
    (h : r.bare = r'.bare) :
    (p.walk nav n r).Twin (pairing True) (fun x y => x.bare = y.bare) (p'.walk nav n r') := by
  induction nav, n, r using SlotPlan.walk.induct generalizing r' with
  | case1 nav n r ih =>
    rw [walk, walk]
    refine .stopRequested fun stopped => ?_
    simp only [Task.bind]
    split
    · exact .done (bare_withFailure h _)
    · refine (twin_step hp h n).bind ?_
      rintro ⟨r, flow⟩ ⟨r', _⟩ ⟨hr, rfl⟩
      cases flow with
      | halt error => exact .done (bare_withFailure hr error)
      | next answer =>
        dsimp only
        split
        · exact .done hr
        · next nav' next hnext => exact ih _ _ _ _ hnext hr

/-- Twins run a slot alike. -/
theorem twin_run (hp : p.settings.Agrees p'.settings) (g : Graph) (iteration : UInt32) :
    (p.run g iteration).Twin (pairing True) (fun x y => x.bare = y.bare)
      (p'.run g iteration) := by
  rw [run, run, hp.visits]
  refine .clock fun started => ?_
  have hend : ∀ {r r' : ScenarioResult}, r.bare = r'.bare → ∀ ended : Nat,
      ({ r with
          completedAt := .ofMillis ended
          durationMs := millis (ended - started) }).bare =
        ({ r' with
          completedAt := .ofMillis ended
          durationMs := millis (ended - started) }).bare := by
    intro r r' h ended
    obtain ⟨screenshots, videoPath, rfl⟩ := ScenarioResult.exists_of_bare_eq h
    rfl
  dsimp only [Task.bind]
  split
  · exact .clock fun ended => .done (hend rfl ended)
  · exact (twin_walk hp _ _ rfl).bind fun _ _ hr => .clock fun ended => .done (hend hr ended)

end SlotPlan

/-- Two tours of one device through the same scenarios, for requests that ask for the same. -/
structure Tour.Agrees (t t' : Tour) : Prop where
  settings : t.settings.Agrees t'.settings
  request : t.run.request = t'.run.request
  scenarios : t.scenarios = t'.scenarios
  deviceId : t.deviceId = t'.deviceId

namespace Tour

variable {t t' : Tour} {d d' : DeviceResult}

/-- Tours that agree have equally many slots. -/
theorem Agrees.size (h : t.Agrees t') : t.size = t'.size := by
  rw [Tour.size, Tour.size, h.request, h.scenarios]

/-- Tours that agree have their slots in the same repeats. -/
theorem Agrees.iteration (h : t.Agrees t') (k : Nat) : t.iteration k = t'.iteration k := by
  rw [Tour.iteration, Tour.iteration, h.scenarios]

/-- Tours that agree have the same scenarios in their slots. -/
theorem Agrees.scenarioIndex (h : t.Agrees t') (k : Nat) :
    t.scenarioIndex k = t'.scenarioIndex k := by
  rw [Tour.scenarioIndex, Tour.scenarioIndex, h.scenarios]

/-- Twins change the progress of their device alike. -/
theorem twin_updateDevice (h : t.Agrees t') (f : DeviceProgress → DeviceProgress) :
    (t.updateDevice f).Twin (pairing True) (fun _ _ => True) (t'.updateDevice f) := by
  rw [updateDevice, updateDevice, h.deviceId]
  exact RunTask.twin_update (RunState.nameless_updateDevice _ f)

/-- Twins settle a slot alike. -/
theorem twin_settle (h : t.Agrees t') (hd : d.bare = d'.bare) {r r' : ScenarioResult}
    (hr : r.bare = r'.bare) :
    (t.settle d r).Twin (pairing True) (fun x y => x.bare = y.bare) (t'.settle d' r') := by
  rw [settle, settle, h.deviceId]
  exact (RunTask.twin_update (RunState.nameless_completeSlot _)).bind fun _ _ _ =>
    .done (DeviceResult.bare_push hd hr)

/-- Twins skip a slot alike. -/
theorem twin_skip (h : t.Agrees t') (g : Graph) (k : Nat) (hd : d.bare = d'.bare) :
    (t.skip g k d).Twin (pairing True) (fun x y => x.bare = y.bare) (t'.skip g k d') := by
  rw [skip, skip, h.iteration]
  refine RunTask.twin_instant.bind ?_
  rintro time _ rfl
  exact twin_settle h hd rfl

/-- Twins announce a slot, each its own. -/
theorem twin_announce (t t' : Tour) (g : Graph) (k : Nat) :
    (t.announce g k).Twin (pairing True) (fun _ _ => True) (t'.announce g k) := by
  refine RunTask.twin_instant.bind fun _ _ _ => (RunTask.twin_emit _ _).bind fun _ _ _ => ?_
  exact (Task.twin_ask (P := pairing True) .progress).bind fun _ _ _ => RunTask.twin_emit _ _

/-- A slot is the same on video as without, but for the video. -/
theorem twin_film (h : t.Agrees t') (g : Graph) (k : Nat) :
    (t.film g k).Twin (pairing True) (fun x y => x.bare = y.bare) (t'.film g k) := by
  have hstart : ∀ t : Tour, (t.startFilm g k).Aside (pairing True) := by
    intro t
    rw [startFilm]
    split
    · exact ⟨trivial, fun _ => trivial⟩
    · trivial
  have hstop : ∀ context : Context, (Task.ask (RunCall.stopVideo context)).Aside (pairing True) :=
    fun _ => ⟨trivial, fun _ => trivial⟩
  have hplans : (t.plan g k).settings.Agrees (t'.plan g k).settings := h.settings
  rw [film_eq, film_eq, h.iteration]
  refine (hstart t).twins (hstart t') fun recording recording' => ?_
  refine (SlotPlan.twin_run hplans g _).bind fun r r' hr => ?_
  rw [endFilm, endFilm]
  split
  · split
    · exact (hstop _).twins (hstop _) fun _ _ => .done hr
    · exact (hstop _).twin_left fun _ => .done hr
  · split
    · exact (hstop _).twin_right fun _ => .done hr
    · exact .done hr

/-- Twins rest alike. -/
theorem twin_rest (h : t.Agrees t') (k : Nat) :
    (t.rest k).Twin (pairing True) (fun _ _ => True) (t'.rest k) := by
  rw [rest, rest, h.request]
  split
  · exact (Task.twin_sleep _).bind fun _ _ _ => .done trivial
  · exact .done trivial

/-- Twins run a slot and rest after it alike. -/
theorem twin_visit (h : t.Agrees t') (g : Graph) (k : Nat) (hd : d.bare = d'.bare) :
    (t.visit g k d).Twin (pairing True) (fun x y => x.bare = y.bare) (t'.visit g k d') := by
  rw [visit, visit, h.scenarioIndex, h.iteration]
  refine (twin_updateDevice h _).bind fun _ _ _ => (twin_announce t t' g k).bind fun _ _ _ => ?_
  refine (twin_film h g k).bind fun r r' hr => (RunTask.twin_emit _ _).bind fun _ _ _ => ?_
  refine (twin_settle h hd hr).bind fun d d' hd => ?_
  exact (twin_rest h k).bind fun _ _ _ => .done hd

/-- The slots of a tour are the same with other helpers. -/
theorem twin_slots (h : t.Agrees t') (left k : Nat) (hd : d.bare = d'.bare) :
    (t.slots left k d).Twin (pairing True) (fun x y => x.bare = y.bare) (t'.slots left k d') := by
  induction left generalizing k d d' with
  | zero => exact .done hd
  | succ left ih =>
    rw [slots, slots, ← h.scenarios, ← h.scenarioIndex]
    split
    · exact .done hd
    · next g _ =>
      refine .stopRequested fun stopped => ?_
      cases stopped with
      | true => exact (twin_skip h g k hd).bind fun _ _ hd => ih (k + 1) hd
      | false => exact (twin_visit h g k hd).bind fun _ _ hd => ih (k + 1) hd

/-- Twins work through their slots alike. -/
theorem twin_work (h : t.Agrees t') (hd : d.bare = d'.bare) :
    (t.work d).Twin (pairing True) (fun x y => x.bare = y.bare) (t'.work d') := by
  have hlast : (Task.ask (RunCall.unregister t.context)).Twin (pairing True) (fun _ _ => True)
      (Task.ask (RunCall.unregister t'.context)) :=
    (Task.twin_ask (P := pairing True) (.unregister _ _)).mono fun _ _ _ => trivial
  rw [work, work, h.size]
  exact (Task.twin_ask (P := pairing True) (.register _ _)).bind fun _ _ _ =>
    (twin_slots h _ 0 hd).ensuring hlast

/-- Tours that differ only in their helpers do the same, and come to the same but for pictures. -/
theorem twin_conduct (h : t.Agrees t') :
    t.conduct.Twin (pairing True) (fun x y => TourResult.bare x = TourResult.bare y) t'.conduct := by
  rw [conduct, conduct, h.deviceId]
  refine (RunTask.twin_ask_device (by simp) trivial).bind ?_
  rintro answer _ rfl
  cases answer with
  | error e => exact .done rfl
  | ok environment =>
    refine (RunTask.twin_ask_device (by simp) trivial).bind ?_
    rintro appInfo _ rfl
    refine (twin_updateDevice h _).bind fun _ _ _ => RunTask.twin_instant.bind fun _ _ _ => ?_
    refine (RunTask.twin_emit _ _).bind fun _ _ _ => (twin_work h rfl).bind fun d d' hd => ?_
    obtain ⟨results, rfl, hresults⟩ := DeviceResult.exists_of_bare_eq hd
    refine (twin_updateDevice h _).bind fun _ _ _ => (RunTask.twin_emit _ _).bind fun _ _ _ => ?_
    exact .done (congrArg Except.ok hd)

end Tour

namespace RunTask

/-- The leads of two runs write off the same devices, if the same has come of their tours. -/
theorem twin_collect {entries entries' : List (String × Option TourResult)}
    (h : entries.map (fun e => (e.1, e.2.map TourResult.bare)) =
      entries'.map fun e => (e.1, e.2.map TourResult.bare)) :
    (collect entries).Twin (pairing False)
      (fun x y => x.map DeviceResult.bare = y.map DeviceResult.bare) (collect entries') := by
  induction entries generalizing entries' with
  | nil =>
    obtain rfl := List.map_eq_nil_iff.1 h.symm
    exact .done rfl
  | cons e rest ih =>
    cases entries' with
    | nil => cases h
    | cons e' rest' =>
      obtain ⟨he, hrest⟩ := List.cons.inj h
      obtain ⟨id, outcome⟩ := e
      obtain ⟨id', outcome'⟩ := e'
      obtain ⟨rfl, houtcome⟩ : id = id' ∧ outcome.map TourResult.bare = outcome'.map TourResult.bare :=
        Prod.mk.inj he
      have hwrittenOff : (do
            update fun s => s.writeOff id
            collect rest : RunTask (List DeviceResult)).Twin (pairing False)
          (fun x y => x.map DeviceResult.bare = y.map DeviceResult.bare) (do
            update fun s => s.writeOff id
            collect rest') :=
        (twin_update (RunState.nameless_writeOff id)).bind fun _ _ _ => ih hrest
      rcases outcome with _ | (error | d) <;> rcases outcome' with _ | (error' | d') <;>
        first | exact hwrittenOff | cases houtcome | skip
      have hd : d.bare = d'.bare := Except.ok.inj (Option.some.inj houtcome)
      refine (ih hrest).bind fun ds ds' hds => .done ?_
      rw [List.map_cons, List.map_cons, hd, hds]

/-- The leads of two runs do the same, and come to the same but for names and pictures. -/
theorem twin_lead (run : RunState) (runId : String) :
    (lead run).Twin (pairing False) (fun x y => x.bare = y.bare) (lead (run.named runId)) := by
  rw [lead, lead]
  refine (twin_update (RunState.nameless_withStatus _)).bind fun _ _ _ => ?_
  refine twin_instant.bind fun _ _ _ => (twin_emit _ _).bind fun _ _ _ => ?_
  refine (Task.twin_ask (P := pairing False) .tours).bind fun reports reports' hreports => ?_
  have hentries : (run.request.deviceIds.zip reports).map (fun e => (e.1, e.2.map TourResult.bare)) =
      (run.request.deviceIds.zip reports').map fun e => (e.1, e.2.map TourResult.bare) := by
    have hzip : ∀ outcomes : List (Option TourResult),
        (run.request.deviceIds.zip outcomes).map (fun e => (e.1, e.2.map TourResult.bare)) =
          run.request.deviceIds.zip (outcomes.map (·.map TourResult.bare)) := fun outcomes => by
      rw [List.zip_map_right]
      rfl
    have hreports : reports.map (·.map TourResult.bare) = reports'.map (·.map TourResult.bare) :=
      hreports
    rw [hzip, hzip, hreports]
  refine (twin_collect hentries).bind fun ds ds' hds => Task.twin_isStopped.bind ?_
  rintro stopped _ rfl
  refine Task.twin_now.bind ?_
  rintro ended _ rfl
  refine (twin_update (RunState.nameless_withStatus _)).bind fun _ _ _ => ?_
  refine (Task.twin_ask (P := pairing False) (.archive _ _)).bind fun _ _ _ => ?_
  refine (Task.twin_ask (P := pairing False) .retire).bind fun _ _ _ => ?_
  refine (twin_emit _ _).bind fun _ _ _ => .done ?_
  have hstats := congrArg (SuiteStats.aggregate (.ofNat run.request.scenarioIds.length)
    (.ofNat run.request.deviceIds.length)) hds
  rw [SuiteStats.aggregate_bare, SuiteStats.aggregate_bare] at hstats
  simp only [SuiteResult.bare, RunState.result, RunState.named, hds, hstats]

end RunTask

end DeviceSuite
