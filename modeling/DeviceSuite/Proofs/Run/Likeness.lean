import DeviceSuite.Proofs.Device.Timeless
import DeviceSuite.Proofs.Run.Helpers
import DeviceSuite.Proofs.Run.Seclusion

/-!
# Tours alike

Two tours of one device through the same scenarios are alike, whatever the runs are called that they
belong to, whenever these begin, and whoever else takes part in them. What they come to is the same
but for the times at which it happened and the pictures that were taken; how long it took is the
same as well.
-/

namespace DeviceSuite

open DeviceSuite.Task

/-! ## What remains without times and pictures -/

/-- The record of a step without its time. -/
def StepResult.gist (s : StepResult) : StepResult := { s with timestamp := .ofMillis 0 }

/-- The result of a slot without times and pictures, and without the video unless it matters. -/
def ScenarioResult.gist (videos : Bool) (r : ScenarioResult) : ScenarioResult :=
  { r with
    startedAt := .ofMillis 0
    completedAt := .ofMillis 0
    stepResults := r.stepResults.map StepResult.gist
    screenshots := []
    videoPath := if videos then r.videoPath else none }

/-- The result of a device without times and pictures, and without videos unless they matter. -/
def DeviceResult.gist (videos : Bool) (d : DeviceResult) : DeviceResult :=
  { d with scenarioResults := d.scenarioResults.map (ScenarioResult.gist videos) }

/-- What a tour comes to without times and pictures, and without videos unless they matter. -/
def TourResult.gist (videos : Bool) : TourResult → TourResult :=
  Except.map (DeviceResult.gist videos)

section Gist

variable {videos : Bool} {r r' : ScenarioResult} {d d' : DeviceResult}

/-- Results of the same gist have it with one more step of the same gist. -/
theorem ScenarioResult.gist_append (h : r.gist videos = r'.gist videos) {s s' : StepResult}
    (hs : s.gist = s'.gist) :
    { r with stepResults := r.stepResults ++ [s] }.gist videos =
      { r' with stepResults := r'.stepResults ++ [s'] }.gist videos := by
  have happend : ∀ (r : ScenarioResult) s, { r with stepResults := r.stepResults ++ [s] }.gist videos =
      { r.gist videos with stepResults := (r.gist videos).stepResults ++ [s.gist] } := by
    intro r s
    simp [gist]
  rw [happend, happend, h, hs]

/-- Results of the same gist have it with the same failure, too. -/
theorem ScenarioResult.gist_withFailure (h : r.gist videos = r'.gist videos) (error : String) :
    (r.withFailure error).gist videos = (r'.withFailure error).gist videos :=
  congrArg (ScenarioResult.withFailure · error) h

/-- The gist of a result does not say when it ended, but how long it took. -/
theorem ScenarioResult.gist_ended (h : r.gist videos = r'.gist videos) (ended ended' : Instant)
    (duration : UInt64) :
    { r with completedAt := ended, durationMs := duration }.gist videos =
      { r' with completedAt := ended', durationMs := duration }.gist videos :=
  congrArg (fun r : ScenarioResult => { r with durationMs := duration }) h

/-- The gist of a result says where its video is only if videos matter. -/
theorem ScenarioResult.gist_filmed (h : r.gist videos = r'.gist videos) {path path' : Option String}
    (hpath : videos = true → path = path') :
    { r with videoPath := path }.gist videos = { r' with videoPath := path' }.gist videos := by
  cases videos with
  | true =>
    obtain rfl := hpath rfl
    exact congrArg (fun r : ScenarioResult => { r with videoPath := path }) h
  | false => exact h

/-- Results of a device with the same gist have it with one more slot of the same gist. -/
theorem DeviceResult.gist_push (h : d.gist videos = d'.gist videos)
    (hr : r.gist videos = r'.gist videos) :
    (d.push r).gist videos = (d'.push r').gist videos := by
  have hpush : ∀ (d : DeviceResult) (r : ScenarioResult),
      (d.push r).gist videos = (d.gist videos).push (r.gist videos) := by
    intro d r
    simp [gist, push, ScenarioResult.gist]
  rw [hpush, hpush, h, hr]

end Gist

variable {τ : Type} {K : Comparison RunCall.Reply τ} {videos : Bool}

/-! ## Calls -/

namespace RunTask

/-- What a device does is alike if it is timeless where its calls are those of a tour. -/
theorem alike_onDevice {α : Type} {t : DeviceTask α}
    (h : t.Timeless (K.along RunCall.device fun _ r => r)) :
    (onDevice t).Alike K (· = ·) (onDevice t) :=
  h.embed

/-- Calls whose replies do not matter. -/
theorem alike_aside (hK : K.Secludes videos) (c c' : RunCall) (hc : c.isDevice = false)
    (hc' : c'.isDevice = false) :
    (ask c : RunTask c.Reply).Alike K (fun _ _ => True) (ask c' : RunTask c'.Reply) :=
  (idles_ask (hK.aside c hc).1).alike (idles_ask (hK.aside c' hc').2) fun _ _ _ _ => trivial

/-- Whatever is told as an event, nothing comes of it. -/
theorem alike_emit (hK : K.Secludes videos) (e e' : Event) :
    (emit e).Alike K (fun _ _ => True) (emit e') :=
  alike_aside hK (.emit e) (.emit e') rfl rfl

/-- Whatever is changed in the state of the run, nothing comes of it. -/
theorem alike_update (hK : K.Secludes videos) (f f' : RunState → RunState) :
    (update f).Alike K (fun _ _ => True) (update f') :=
  alike_aside hK (.update f) (.update f') rfl rfl

/-- Tours may read different instants. -/
theorem alike_instant : instant.Alike K (fun _ _ => True) instant :=
  alike_now.bind fun _ _ _ => alike_pure trivial

end RunTask

/-- The calls of a device are replied to alike where those of a tour are. -/
theorem Comparison.Secludes.along (hK : K.Secludes videos) (c : DeviceCall) :
    (K.along RunCall.device fun _ r => r).Replies c c (· = ·) := by
  rintro m m' _ m₁ _ m₁' hm ⟨r, hr, rfl⟩ ⟨r', hr', rfl⟩
  obtain ⟨hm₁, hrel⟩ := hK.device c m m' r m₁ r' m₁' hm hr hr'
  refine ⟨hm₁, ?_⟩
  cases hrel with
  | none => exact .none
  | some h => exact .some h

/-! ## Slots -/

/-- Two plans of the same work, in two runs. -/
structure SlotPlan.Like (p p' : SlotPlan) : Prop where
  settings : p.settings = p'.settings
  keepsArtifacts : p.keepsArtifacts = p'.keepsArtifacts

namespace SlotPlan

variable {p p' : SlotPlan} {r r' : ScenarioResult} {started started' : Nat}

/-- The results of slots have the same gist, and the walk goes on the same. -/
def Matches (videos : Bool) (x y : ScenarioResult × Flow) : Prop :=
  x.1.gist videos = y.1.gist videos ∧ x.2 = y.2

/-- The gist of a record does not say when it was made. -/
theorem gist_record (n : Node) (time time' : Instant) (status : StepStatus) (durationMs : Nat)
    (error : Option String) (performance : Option Performance) :
    (record n time status durationMs error performance).gist =
      (record n time' status durationMs error performance).gist := rfl

/-- Whatever comes of a picture, the tours go on alike. -/
theorem alike_photograph (hK : K.Secludes videos) (p p' : SlotPlan) (n : Node) :
    (p.photograph n).Alike K (fun _ _ => True) (p'.photograph n) := by
  have hshot := RunTask.alike_onDevice (timeless_ask (hK.along .screenshot))
  refine hshot.bind ?_
  rintro shot _ rfl
  cases shot with
  | error e => exact alike_pure trivial
  | ok bytes =>
    refine RunTask.alike_instant.bind fun _ _ _ => ?_
    refine (RunTask.alike_aside hK (.save _ _) (.save _ _) rfl rfl).bind fun saved saved' _ => ?_
    cases saved <;> cases saved' <;> exact alike_pure trivial

/-- Tours that are alike carry out an action alike. -/
theorem alike_conduct (hK : K.Secludes videos) (hp : p.Like p') (n : Node)
    (options : StepOptions) :
    (p.conduct n options).Alike K (fun x y => x.1 = y.1) (p'.conduct n options) := by
  rw [conduct, conduct, hp.settings, hp.keepsArtifacts]
  have hwork := n.timeless_conduct (fun c _ => hK.along c) p'.settings options
  refine (RunTask.alike_onDevice hwork).bind ?_
  rintro ⟨outcome, stopped⟩ _ rfl
  dsimp only
  split
  · exact (alike_photograph hK p p' n).bind fun _ _ _ => alike_pure rfl
  · exact alike_pure rfl

/-- Tours that are alike tell records of the same gist. -/
theorem alike_complete (hK : K.Secludes videos) (h : r.gist videos = r'.gist videos)
    {s s' : StepResult} (hs : s.gist = s'.gist) :
    (p.complete r s).Alike K (fun x y => x.gist videos = y.gist videos) (p'.complete r' s') :=
  (RunTask.alike_emit hK _ _).bind fun _ _ _ => alike_pure (ScenarioResult.gist_append h hs)

/-- Tours that are alike forewarn of the same step. -/
theorem alike_forewarn (hK : K.Secludes videos) (h : r.gist videos = r'.gist videos) (n : Node)
    (started started' : Nat) :
    (p.forewarn n started r).Alike K (fun x y => x.gist videos = y.gist videos)
      (p'.forewarn n started' r') := by
  rw [forewarn, forewarn]
  split
  · exact (RunTask.alike_emit hK _ _).bind fun _ _ _ =>
      alike_pure (ScenarioResult.gist_append h (gist_record ..))
  · exact alike_pure h

/-- Tours that are alike conclude a step alike if it took equally long. -/
theorem alike_conclude (hK : K.Secludes videos) (h : r.gist videos = r'.gist videos) (n : Node)
    (outcome : Outcome) (picture picture' : Option String) {ended ended' : Nat}
    (htook : ended - started = ended' - started') :
    (p.conclude n started r outcome picture ended).Alike K (Matches videos)
      (p'.conclude n started' r' outcome picture' ended') := by
  have hphotographed : ({ r with screenshots := r.screenshots ++ picture.toList }).gist videos =
      ({ r' with screenshots := r'.screenshots ++ picture'.toList }).gist videos := h
  simp only [conclude, htook]
  split
  · exact (alike_complete hK hphotographed (gist_record ..)).bind fun _ _ hr =>
      alike_pure ⟨hr, rfl⟩
  · exact (alike_complete hK hphotographed (gist_record ..)).bind fun _ _ hr =>
      alike_pure ⟨hr, rfl⟩

/-- Tours that are alike act alike. -/
theorem alike_act (hK : K.Secludes videos) (hp : p.Like p') (h : r.gist videos = r'.gist videos)
    (n : Node) (options : StepOptions) (hstarted : Level K.start K.start' started started') :
    (p.act n options started r).Alike K (Matches videos) (p'.act n options started' r') := by
  rw [act_eq, act_eq]
  refine (alike_forewarn hK h n started started').bind fun r r' hr => ?_
  refine (alike_conduct hK hp n options).bind ?_
  rintro ⟨outcome, picture⟩ ⟨_, picture'⟩ rfl
  exact alike_now.bind fun ended ended' hended =>
    alike_conclude hK hr n outcome picture picture' (hstarted.sub hended)

/-- Tours that are alike decide alike. -/
theorem alike_decide (hK : K.Secludes videos) (hp : p.Like p')
    (h : r.gist videos = r'.gist videos) (n : Node) (options : StepOptions)
    (hstarted : Level K.start K.start' started started') :
    (p.decide n options started r).Alike K (Matches videos) (p'.decide n options started' r') := by
  rw [decide, decide, hp.settings]
  have hlook := n.timeless_evaluate (fun c _ => hK.along c) p'.settings options
  refine (RunTask.alike_onDevice hlook).bind ?_
  rintro answer _ rfl
  refine alike_now.bind fun ended ended' hended => ?_
  rw [hstarted.sub hended]
  exact (alike_complete hK h (gist_record ..)).bind fun _ _ hr => alike_pure ⟨hr, rfl⟩

/-- A step leaves the same record in both runs, but for its time. -/
theorem alike_step (hK : K.Secludes videos) (hp : p.Like p') (h : r.gist videos = r'.gist videos)
    (n : Node) : (p.step n r).Alike K (Matches videos) (p'.step n r') := by
  rw [step, step]
  split
  · exact alike_pure ⟨h, rfl⟩
  · refine alike_now.bind fun started started' hstarted => ?_
    refine (RunTask.alike_emit hK _ _).bind fun _ _ _ => ?_
    split
    · exact (alike_complete hK h (gist_record ..)).bind fun _ _ hr => alike_pure ⟨hr, rfl⟩
    · split
      · exact alike_decide hK hp h n _ hstarted
      · exact alike_act hK hp h n _ hstarted

/-- A walk takes the same way in both runs. -/
theorem alike_walk (hK : K.Secludes videos) (hp : p.Like p') (nav : Navigator) (n : Node)
    (h : r.gist videos = r'.gist videos) :
    (p.walk nav n r).Alike K (fun x y => x.gist videos = y.gist videos) (p'.walk nav n r') := by
  induction nav, n, r using SlotPlan.walk.induct generalizing r' with
  | case1 nav n r ih =>
    rw [walk, walk]
    refine alike_isStopped.taskBind ?_
    rintro stopped _ rfl
    split
    · exact alike_pure (ScenarioResult.gist_withFailure h _)
    · refine (alike_step hK hp h n).taskBind ?_
      rintro ⟨r, flow⟩ ⟨r', _⟩ ⟨hr, rfl⟩
      cases flow with
      | halt error => exact alike_pure (ScenarioResult.gist_withFailure hr error)
      | next answer =>
        dsimp only
        split
        · exact alike_pure hr
        · next nav' next hnext => exact ih _ _ _ _ hnext hr

/-- Tours that are alike run a slot alike. -/
theorem alike_run (hK : K.Secludes videos) (hp : p.Like p') (g : Graph) (iteration : UInt32) :
    (p.run g iteration).Alike K (fun x y => x.gist videos = y.gist videos)
      (p'.run g iteration) := by
  rw [run, run, hp.settings]
  refine alike_now.bind fun started started' hstarted => ?_
  have hblank : (ScenarioResult.blank g iteration (.ofMillis started)).gist videos =
      (ScenarioResult.blank g iteration (.ofMillis started')).gist videos := rfl
  have hend : ∀ {r r' : ScenarioResult}, r.gist videos = r'.gist videos → Task.Alike K
      (fun x y => x.gist videos = y.gist videos)
      (do
        let ended ← now
        return { r with
          completedAt := .ofMillis ended
          durationMs := millis (ended - started) } : RunTask ScenarioResult)
      (do
        let ended ← now
        return { r' with
          completedAt := .ofMillis ended
          durationMs := millis (ended - started') }) := by
    refine fun hr => alike_now.bind fun ended ended' hended => ?_
    rw [hstarted.sub hended]
    exact alike_pure (ScenarioResult.gist_ended hr _ _ _)
  split
  · exact hend (ScenarioResult.gist_withFailure hblank _)
  · exact (alike_walk hK hp _ _ hblank).bind fun _ _ hr => hend hr

end SlotPlan

/-! ## Tours -/

/-- Two tours of one device that are to do the same, in two runs. -/
structure Tour.Like (t t' : Tour) : Prop where
  settings : t.settings = t'.settings
  keepsArtifacts : t.keepsArtifacts = t'.keepsArtifacts
  repeats : t.run.request.repeatCount = t'.run.request.repeatCount
  slots : t.run.request.slotsPerDevice = t'.run.request.slotsPerDevice
  interval : t.run.request.scenarioInterval = t'.run.request.scenarioInterval
  filmed : t.run.request.recordVideo = t'.run.request.recordVideo
  scenarios : t.scenarios = t'.scenarios
  deviceId : t.deviceId = t'.deviceId

namespace Tour

variable {t t' : Tour} {d d' : DeviceResult}

/-- Tours that are alike have equally many slots. -/
theorem Like.size (h : t.Like t') : t.size = t'.size := by
  rw [Tour.size, Tour.size, h.repeats, h.scenarios]

/-- Tours that are alike have their slots in the same repeats. -/
theorem Like.iteration (h : t.Like t') (k : Nat) : t.iteration k = t'.iteration k := by
  rw [Tour.iteration, Tour.iteration, h.scenarios]

/-- Tours that are alike have the same scenarios in their slots. -/
theorem Like.scenarioIndex (h : t.Like t') (k : Nat) : t.scenarioIndex k = t'.scenarioIndex k := by
  rw [Tour.scenarioIndex, Tour.scenarioIndex, h.scenarios]

/-- Slots of the same gist are settled alike. -/
theorem alike_settle (hK : K.Secludes videos) (t t' : Tour) (hd : d.gist videos = d'.gist videos)
    {r r' : ScenarioResult} (hr : r.gist videos = r'.gist videos) :
    (t.settle d r).Alike K (fun x y => x.gist videos = y.gist videos) (t'.settle d' r') :=
  (RunTask.alike_update hK _ _).bind fun _ _ _ => alike_pure (DeviceResult.gist_push hd hr)

/-- Tours that are alike skip a slot alike. -/
theorem alike_skip (hK : K.Secludes videos) (h : t.Like t') (g : Graph) (k : Nat)
    (hd : d.gist videos = d'.gist videos) :
    (t.skip g k d).Alike K (fun x y => x.gist videos = y.gist videos) (t'.skip g k d') := by
  rw [skip, skip, h.iteration]
  exact RunTask.alike_instant.bind fun _ _ _ => alike_settle hK t t' hd rfl

/-- Tours announce a slot, each in its own way. -/
theorem alike_announce (hK : K.Secludes videos) (t t' : Tour) (g : Graph) (k : Nat) :
    (t.announce g k).Alike K (fun _ _ => True) (t'.announce g k) := by
  refine RunTask.alike_instant.bind fun _ _ _ => (RunTask.alike_emit hK _ _).bind fun _ _ _ => ?_
  exact (RunTask.alike_aside hK .progress .progress rfl rfl).bind fun _ _ _ =>
    RunTask.alike_emit hK _ _

/-- Tours that are alike rest alike. -/
theorem alike_rest (h : t.Like t') (k : Nat) :
    (t.rest k).Alike K (fun _ _ => True) (t'.rest k) := by
  rw [rest, rest, h.slots, h.interval]
  split
  · exact (alike_sleep _).bind fun _ _ _ => alike_pure trivial
  · exact alike_pure trivial

/-- Where videos do not matter, nothing happens while a recording starts. -/
theorem idles_startFilm {S : Surroundings RunCall.Reply τ} (hS : ∀ c, c.isDevice = false → S.Idles c)
    (t : Tour) (g : Graph) (k : Nat) : (t.startFilm g k).Idles S fun _ => True := by
  rw [startFilm]
  split
  · exact (idles_ask (hS (.startVideo _) rfl)).bind fun _ _ => idles_pure trivial
  · exact idles_pure trivial

/-- Where videos do not matter, a recording that ends leaves the gist of a result as it is. -/
theorem idles_endFilm {S : Surroundings RunCall.Reply τ} (hS : ∀ c, c.isDevice = false → S.Idles c)
    (t : Tour) (g : Graph) (k : Nat) (recording : Bool) (r : ScenarioResult) :
    (t.endFilm g k recording r).Idles S fun r' => r'.gist false = r.gist false := by
  rw [endFilm]
  split
  · exact (idles_ask (hS (.stopVideo _) rfl)).bind fun _ _ => idles_pure rfl
  · exact idles_pure rfl

/-- Tours that are alike begin to record alike, if videos matter. -/
theorem alike_startFilm (hK : K.Secludes videos) (h : t.Like t') (g : Graph) (k : Nat) :
    (t.startFilm g k).Alike K (fun x y => videos = true → x = y) (t'.startFilm g k) := by
  cases videos with
  | false =>
    have hleft := idles_startFilm (fun c hc => (hK.aside c hc).1) t g k
    have hright := idles_startFilm (fun c hc => (hK.aside c hc).2) t' g k
    exact hleft.alike hright fun _ _ _ _ hv => by cases hv
  | true =>
    rw [startFilm, startFilm, h.filmed]
    split
    · refine (alike_ask (hK.started rfl _ _)).bind ?_
      rintro outcome _ rfl
      exact alike_pure fun _ => rfl
    · exact alike_pure fun _ => rfl

/-- Tours that are alike end a recording alike. -/
theorem alike_endFilm (hK : K.Secludes videos) (h : t.Like t') (g : Graph) (k : Nat)
    {recording recording' : Bool} (hrecording : videos = true → recording = recording')
    {r r' : ScenarioResult} (hr : r.gist videos = r'.gist videos) :
    (t.endFilm g k recording r).Alike K (fun x y => x.gist videos = y.gist videos)
      (t'.endFilm g k recording' r') := by
  cases videos with
  | false =>
    have hleft := idles_endFilm (fun c hc => (hK.aside c hc).1) t g k recording r
    have hright := idles_endFilm (fun c hc => (hK.aside c hc).2) t' g k recording' r'
    exact hleft.alike hright fun _ _ hx hy => hx.trans (hr.trans hy.symm)
  | true =>
    obtain rfl := hrecording rfl
    have hcontext : ∀ t : Tour, (t.plan g k).context =
        (Context.forDevice t.run.runId t.run.runId t.deviceId).forScenario g.id (t.iteration k) :=
      fun _ => rfl
    rw [endFilm, endFilm, hcontext t, hcontext t', h.deviceId, h.iteration]
    split
    · have hreplies := hK.stopped rfl t.run.runId t'.run.runId t'.deviceId g.id (t'.iteration k)
      refine (alike_ask hreplies).bind ?_
      rintro outcome _ rfl
      exact alike_pure (ScenarioResult.gist_filmed hr fun _ => rfl)
    · exact alike_pure hr

/-- A slot comes to the same on video as without, and to the same video if that matters. -/
theorem alike_film (hK : K.Secludes videos) (h : t.Like t') (g : Graph) (k : Nat) :
    (t.film g k).Alike K (fun x y => x.gist videos = y.gist videos) (t'.film g k) := by
  have hplans : (t.plan g k).Like (t'.plan g k) := ⟨h.settings, h.keepsArtifacts⟩
  rw [film_eq, film_eq, h.iteration]
  refine (alike_startFilm hK h g k).bind fun recording recording' hrecording => ?_
  exact (SlotPlan.alike_run hK hplans g _).bind fun r r' hr => alike_endFilm hK h g k hrecording hr

/-- Tours that are alike run a slot and rest after it alike. -/
theorem alike_visit (hK : K.Secludes videos) (h : t.Like t') (g : Graph) (k : Nat)
    (hd : d.gist videos = d'.gist videos) :
    (t.visit g k d).Alike K (fun x y => x.gist videos = y.gist videos) (t'.visit g k d') := by
  rw [visit, visit]
  refine (RunTask.alike_update hK _ _).bind fun _ _ _ => (alike_announce hK t t' g k).bind
    fun _ _ _ => ?_
  refine (alike_film hK h g k).bind fun r r' hr => (RunTask.alike_emit hK _ _).bind fun _ _ _ => ?_
  refine (alike_settle hK t t' hd hr).bind fun d d' hd => ?_
  exact (alike_rest h k).bind fun _ _ _ => alike_pure hd

/-- The slots of a tour come to the same, one after the other. -/
theorem alike_slots (hK : K.Secludes videos) (h : t.Like t') (left k : Nat)
    (hd : d.gist videos = d'.gist videos) :
    (t.slots left k d).Alike K (fun x y => x.gist videos = y.gist videos)
      (t'.slots left k d') := by
  induction left generalizing k d d' with
  | zero => exact alike_pure hd
  | succ left ih =>
    rw [slots, slots, ← h.scenarios, ← h.scenarioIndex]
    split
    · exact alike_pure hd
    · next g _ =>
      refine alike_isStopped.bind ?_
      rintro stopped _ rfl
      cases stopped with
      | true => exact (alike_skip hK h g k hd).bind fun _ _ hd => ih (k + 1) hd
      | false => exact (alike_visit hK h g k hd).bind fun _ _ hd => ih (k + 1) hd

/-- Tours that are alike work through their slots alike. -/
theorem alike_work (hK : K.Secludes videos) (h : t.Like t') (hd : d.gist videos = d'.gist videos) :
    (t.work d).Alike K (fun x y => x.gist videos = y.gist videos) (t'.work d') := by
  have haside := RunTask.alike_aside hK (.unregister t.context) (.unregister t'.context) rfl rfl
  have hlast : (ask (RunCall.unregister t.context) : RunTask Unit).Alike K (· = ·)
      (ask (RunCall.unregister t'.context)) := haside.mono fun _ _ _ => rfl
  rw [work, work, h.size]
  exact (RunTask.alike_aside hK (.register _) (.register _) rfl rfl).bind fun _ _ _ =>
    (alike_slots hK h _ 0 hd).ensuring hlast

/-- Tours of one device that are to do the same come to the same, in whatever runs they are made. -/
theorem alike_conduct (hK : K.Secludes videos) (h : t.Like t') :
    t.conduct.Alike K (fun x y => TourResult.gist videos x = TourResult.gist videos y)
      t'.conduct := by
  have hcall : ∀ c : DeviceCall, (RunTask.onDevice (ask c)).Alike K (· = ·)
      (RunTask.onDevice (ask c)) := fun c => RunTask.alike_onDevice (timeless_ask (hK.along c))
  rw [conduct, conduct, h.deviceId]
  refine (hcall .environment).bind ?_
  rintro answer _ rfl
  cases answer with
  | error e => exact alike_pure rfl
  | ok environment =>
    refine (hcall .appInfo).bind ?_
    rintro appInfo _ rfl
    refine (RunTask.alike_update hK _ _).bind fun _ _ _ => RunTask.alike_instant.bind fun _ _ _ => ?_
    refine (RunTask.alike_emit hK _ _).bind fun _ _ _ => ?_
    refine (alike_work hK h rfl).bind fun d d' hd => ?_
    refine (RunTask.alike_update hK _ _).bind fun _ _ _ => (RunTask.alike_emit hK _ _).bind
      fun _ _ _ => ?_
    exact alike_pure (congrArg Except.ok hd)

end Tour

end DeviceSuite
