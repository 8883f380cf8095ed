import DeviceSuite.Proofs.Run.Deeds
import DeviceSuite.Proofs.Run.Pictures
import DeviceSuite.Proofs.Run.Quiet
import DeviceSuite.Proofs.Task.Transcript

/-!
# Takes

A slot that is recorded asks the recorder to start, and once it has started, and the scenario has
come to its end, to stop: that is a take. In all transcripts of a tour the exchange with the
recorder is a row of takes, one for each slot that was run. Only where the tour crashed may the end
of the last one be missing.
-/

namespace DeviceSuite

/-- What a slot asks of the recorder, with the answers: to start, and to stop if it is asked that.
An answer is missing when the recorder crashed. -/
structure Take where
  context : Context
  started : Option VideoOutcome
  ended : Option (Option VideoOutcome)

namespace Take

/-- The recorder is asked to stop if it has started, and otherwise not. -/
def Whole (take : Take) : Prop := take.ended.isSome = take.started.any VideoOutcome.success

/-- The exchange with the recorder. -/
def answers (take : Take) : List (Answer RunCall.Reply) :=
  .reply (.startVideo take.context) take.started ::
    take.ended.toList.map fun outcome => .reply (.stopVideo take.context) outcome

/-- The path that the recorder told when it stopped, if it has started and stopped well. -/
def path? (take : Take) : Option String :=
  if take.started.any VideoOutcome.success ∧ take.ended.join.any VideoOutcome.success then
    take.ended.join.bind VideoOutcome.localPath
  else none

/-- The takes of the slots of a tour: one for each slot that was run, in order. Their results name
the videos, and those of slots that were skipped name none. -/
structure Of (context : Context) (results : List ScenarioResult) (takes : List Take) : Prop where
  ran : List.Forall₂ (fun (r : ScenarioResult) take =>
      take.context = context.forScenario r.scenarioId r.iteration ∧ r.videoPath = take.path?)
    (results.filter fun r => r.status ≠ .skipped) takes
  skipped : ∀ r ∈ results, r.status = .skipped → r.videoPath = none

/-- Without slots there are no takes. -/
theorem Of.nil (context : Context) : Take.Of context [] [] := ⟨.nil, by simp⟩

/-- The takes of slots after others come after the takes of those. -/
theorem Of.append {context : Context} {results more : List ScenarioResult}
    {takes later : List Take} (h : Of context results takes) (h' : Of context more later) :
    Of context (results ++ more) (takes ++ later) where
  ran := by
    rw [List.filter_append]
    exact List.rel_append h.ran h'.ran
  skipped r hr := (List.mem_append.1 hr).elim (h.skipped r) (h'.skipped r)

end Take

/-- Whether the recorder answered. -/
def Answer.films (a : Answer RunCall.Reply) : Bool := (a.call?.bind RunCall.recording?).isSome

/-- The exchange with the recorder in a transcript. -/
def filming (told : List (Answer RunCall.Reply)) : List (Answer RunCall.Reply) :=
  told.filter Answer.films

/-- The exchange with the recorder in two transcripts is that in each. -/
@[simp] theorem filming_append (told more : List (Answer RunCall.Reply)) :
    filming (told ++ more) = filming told ++ filming more :=
  List.filter_append ..

/-- To start is part of the exchange with the recorder. -/
@[simp] theorem filming_start (context : Context) (outcome : Option VideoOutcome)
    (told : List (Answer RunCall.Reply)) :
    filming (.reply (.startVideo context) outcome :: told) =
      .reply (.startVideo context) outcome :: filming told := rfl

/-- To stop is part of the exchange with the recorder. -/
@[simp] theorem filming_stop (context : Context) (outcome : Option VideoOutcome)
    (told : List (Answer RunCall.Reply)) :
    filming (.reply (.stopVideo context) outcome :: told) =
      .reply (.stopVideo context) outcome :: filming told := rfl

/-- Where nothing is told, the recorder is not asked. -/
@[simp] theorem filming_nil : filming [] = [] := rfl

/-- A task that does not call the recorder. -/
theorem Task.Only.unfilmed {α : Type} {t : RunTask α} {H : RunCall → Prop} {P : α → Prop}
    (h : t.Only H P) (hH : ∀ c, H c → c.recording? = none) :
    t.Ends fun told r => filming told = [] ∧ ∀ a ∈ r, P a := by
  apply h.ends.mono
  rintro told r ⟨hcalls, hr⟩
  refine ⟨List.filter_eq_nil_iff.2 fun a ha => ?_, hr⟩
  cases hcall : a.call? with
  | none => simp [Answer.films, hcall]
  | some c => simp [Answer.films, hcall, hH c (hcalls c (List.mem_filterMap.2 ⟨a, ha, hcall⟩))]

namespace Tour

variable {t : Tour} {g : Graph} {k : Nat} {d : DeviceResult}

/-- The exchange of a tour with the recorder is a row of takes; if the tour does not crash, it is a
whole one, and they are those of the slots whose results it adds. -/
def Shoots {α : Type} (t : Tour) (results : α → List ScenarioResult → Prop)
    (told : List (Answer RunCall.Reply)) (r : Option α) : Prop :=
  ∃ takes : List Take, (∀ take ∈ takes, take.Whole) ∧ filming told <+: takes.flatMap Take.answers ∧
    ∀ a ∈ r, filming told = takes.flatMap Take.answers ∧
      ∃ added, results a added ∧ Take.Of t.context added takes

/-- A tour that does not call the recorder. -/
theorem shoots_of_unfilmed {α : Type} {x : RunTask α} {H : RunCall → Prop} {P : α → Prop}
    {results : α → List ScenarioResult → Prop} (h : x.Only H P)
    (hH : ∀ c, H c → c.recording? = none)
    (hP : ∀ a, P a → ∃ added, results a added ∧ Take.Of t.context added []) :
    x.Ends (t.Shoots results) := by
  apply (h.unfilmed hH).mono
  rintro told r ⟨hnil, hr⟩
  exact ⟨[], by simp, by simp [hnil], fun a ha => ⟨hnil, hP a (hr a ha)⟩⟩

/-- A part of a tour that is one take. -/
theorem shoots_take {α : Type} {results : α → List ScenarioResult → Prop}
    {told : List (Answer RunCall.Reply)} {r : Option α} (take : Take) (hwhole : take.Whole)
    (htold : filming told = take.answers)
    (hr : ∀ a ∈ r, ∃ added, results a added ∧ Take.Of t.context added [take]) :
    t.Shoots results told r := by
  have hrow : filming told = [take].flatMap Take.answers := by rw [htold, List.flatMap_singleton]
  refine ⟨[take], fun take' htake => ?_, hrow ▸ List.prefix_rfl, fun a ha => ⟨hrow, hr a ha⟩⟩
  exact List.mem_singleton.1 htake ▸ hwhole

/-- The takes of one part of a tour are followed by those of the next. -/
theorem shoots_bind {α β : Type} {x : RunTask α} {f : α → RunTask β}
    {results : α → List ScenarioResult → Prop} {results' : β → List ScenarioResult → Prop}
    (h : x.Ends (t.Shoots results))
    (hf : ∀ a added, results a added → (f a).Ends (t.Shoots fun b more =>
      results' b (added ++ more))) : (x >>= f).Ends (t.Shoots results') := by
  apply Task.ends_bind.2
  apply h.mono
  rintro told r ⟨takes, hwhole, hstart, hr⟩
  cases r with
  | none => exact ⟨takes, hwhole, hstart, by simp⟩
  | some a =>
    obtain ⟨htold, added, hadded, hof⟩ := hr a rfl
    apply (hf a added hadded).mono
    rintro told' r' ⟨later, hwhole', hstart', hr'⟩
    refine ⟨takes ++ later, ?_, ?_, ?_⟩
    · exact fun take htake => (List.mem_append.1 htake).elim (hwhole take) (hwhole' take)
    · rw [filming_append, htold, List.flatMap_append]
      exact (List.prefix_append_right_inj _).2 hstart'
    · intro b hb
      obtain ⟨htold', more, hmore, hof'⟩ := hr' b hb
      exact ⟨by rw [filming_append, htold, htold', List.flatMap_append],
        added ++ more, hmore, hof.append hof'⟩

/-- A scenario that has crashed is a take in which a recording that goes on is not stopped. -/
theorem shoots_crashed {α : Type} {results : α → List ScenarioResult → Prop}
    {told : List (Answer RunCall.Reply)} (hnil : filming told = []) (context : Context)
    (outcome : VideoOutcome) :
    t.Shoots results (.reply (.startVideo context) (some outcome) :: told) (none : Option α) := by
  let ended : Option (Option VideoOutcome) := if outcome.success then some none else none
  refine ⟨[⟨context, some outcome, ended⟩], ?_, ?_, by simp⟩
  · intro take htake
    obtain rfl := List.mem_singleton.1 htake
    cases hsuccess : outcome.success <;> simp [ended, Take.Whole, hsuccess]
  · simp [hnil, Take.answers]

/-- The take of a slot that was run is told by its result, which names the video. -/
theorem take_of_ran {x : ScenarioResult} {take : Take} (hid : x.scenarioId = g.id)
    (hiteration : x.iteration = t.iteration k) (hran : x.status ≠ .skipped)
    (hcontext : take.context = (t.plan g k).context) (hpath : x.videoPath = take.path?) :
    Take.Of t.context [x] [take] := by
  refine ⟨?_, fun r hr hskipped => ?_⟩
  · rw [List.filter_cons_of_pos (by simpa using hran)]
    refine .cons ⟨?_, hpath⟩ .nil
    rw [hcontext, hid, hiteration]
    rfl
  · obtain rfl := List.mem_singleton.1 hr
    exact absurd hskipped hran

/-- A slot that is run and recorded is a take, and its result names the video. -/
theorem shoots_film (hrec : t.run.request.recordVideo = true) :
    (t.film g k).Ends (t.Shoots fun x added => added = [x]) := by
  have hids := ((t.plan g k).only_run g (t.iteration k)).unfilmed fun c hc => by
    have hstep : c.OfStep := hc.1
    cases c <;> first | rfl | cases hstep
  have hpictured := ((t.plan g k).only_pictured_run g (t.iteration k)).ends
  simp only [film, hrec, ↓reduceIte, Task.ends_bind, Task.ends_ask, pure_bind]
  intro started
  cases started with
  | none => exact shoots_take ⟨_, none, none⟩ rfl rfl (by simp)
  | some outcome =>
    dsimp only [Option.elim]
    apply (hids.and hpictured).mono
    rintro told (_ | x) ⟨⟨hnil, hids⟩, -, hpictured⟩
    · exact shoots_crashed hnil _ outcome
    · obtain ⟨hid, -, hiteration, hran⟩ := hids x rfl
      have hvideo := (hpictured x rfl).video
      dsimp only [Option.elim]
      split
      · next hsuccess =>
        simp only [Task.ends_bind, Task.ends_ask]
        intro ended
        let take : Take := ⟨(t.plan g k).context, some outcome, some ended⟩
        have hwhole : take.Whole := by simp [take, Take.Whole, hsuccess]
        cases ended with
        | none => exact shoots_take take hwhole (by simp [hnil, take, Take.answers]) (by simp)
        | some ended =>
          refine shoots_take take hwhole (by simp [hnil, take, Take.answers]) ?_
          rintro x' ⟨⟩
          refine ⟨_, rfl, take_of_ran hid hiteration hran rfl ?_⟩
          simp [take, Take.path?, hsuccess]
      · next hfailed =>
        let take : Take := ⟨(t.plan g k).context, some outcome, none⟩
        have hwhole : take.Whole := by simp [take, Take.Whole, hfailed]
        refine Task.ends_pure.2 (shoots_take take hwhole (by simp [hnil, take, Take.answers]) ?_)
        rintro x' ⟨⟩
        have hpath : x.videoPath = take.path? := hvideo.trans (by simp [take, Take.path?])
        exact ⟨_, rfl, take_of_ran hid hiteration hran rfl hpath⟩

/-- A slot that is skipped has no take, and its result names no video. -/
theorem shoots_skip : (t.skip g k d).Ends (t.Shoots fun d' added =>
    d'.scenarioResults = d.scenarioResults ++ added) := by
  have hskips : (t.skip g k d).Only (fun c => c.recording? = none) fun d' =>
      ∃ r : ScenarioResult, d' = d.push r ∧ r.status = .skipped ∧ r.videoPath = none := by
    simp only [skip, settle, Task.only_bind, RunTask.only_instant, RunTask.only_update,
      Task.only_pure]
    exact fun ms => ⟨rfl, fun _ => ⟨_, rfl, rfl, rfl⟩⟩
  apply shoots_of_unfilmed hskips fun _ hc => hc
  rintro d' ⟨r, rfl, hskipped, hvideo⟩
  refine ⟨[r], rfl, ⟨?_, fun r' hr' _ => List.mem_singleton.1 hr' ▸ hvideo⟩⟩
  rw [List.filter_cons_of_neg (by simp [hskipped])]
  exact .nil

/-- A tour that goes on after a part that does not call the recorder and has no results. -/
theorem shoots_bind_idle {α β : Type} {x : RunTask α} {f : α → RunTask β} {H : RunCall → Prop}
    {results : β → List ScenarioResult → Prop} (h : x.Only H fun _ => True)
    (hH : ∀ c, H c → c.recording? = none) (hf : ∀ a, (f a).Ends (t.Shoots results)) :
    (x >>= f).Ends (t.Shoots results) := by
  have hidle : x.Ends (t.Shoots fun _ added => added = []) :=
    shoots_of_unfilmed h hH fun _ _ => ⟨[], rfl, .nil _⟩
  apply shoots_bind hidle
  rintro a _ rfl
  exact hf a

/-- To change the progress of a device asks the recorder nothing. -/
theorem unfilmed_updateDevice (f : DeviceProgress → DeviceProgress) :
    (t.updateDevice f).Only (fun c => c.recording? = none) fun _ => True :=
  RunTask.only_update.2 ⟨rfl, fun _ => trivial⟩

/-- A slot that is run in a recorded run adds one take. -/
theorem shoots_visit (hrec : t.run.request.recordVideo = true) :
    (t.visit g k d).Ends (t.Shoots fun d' added =>
      d'.scenarioResults = d.scenarioResults ++ added) := by
  have hannounce : (t.announce g k).Only (fun c => c.recording? = none) fun _ => True := by
    simp only [announce, Task.only_bind, RunTask.only_emit, RunTask.only_instant, Task.only_ask]
    exact fun ms => ⟨rfl, fun _ => ⟨rfl, fun _ => ⟨rfl, fun _ => trivial⟩⟩⟩
  apply shoots_bind_idle (unfilmed_updateDevice _) (fun _ hc => hc)
  intro _
  apply shoots_bind_idle hannounce (fun _ hc => hc)
  intro _
  apply shoots_bind (shoots_film hrec)
  rintro r _ rfl
  have hsettle : ((do
      RunTask.emit (.scenarioComplete t.run.runId t.deviceId r)
      let d' ← t.settle d r
      t.rest k
      return d' : RunTask DeviceResult)).Only (fun c => c.recording? = none) (· = d.push r) := by
    simp only [settle, Task.only_bind, RunTask.only_emit, RunTask.only_update, Task.only_pure]
    exact ⟨rfl, fun _ => ⟨rfl, fun _ => t.only_rest k⟩⟩
  apply shoots_of_unfilmed hsettle fun _ hc => hc
  rintro _ rfl
  exact ⟨[], by simp [DeviceResult.push], .nil _⟩

/-- The slots of a tour that is recorded are a row of takes. -/
theorem shoots_slots (hrec : t.run.request.recordVideo = true) (left : Nat) :
    (t.slots left k d).Ends (t.Shoots fun d' added =>
      d'.scenarioResults = d.scenarioResults ++ added) := by
  have hdone : ∀ {d : DeviceResult}, (Task.done d : RunTask DeviceResult).Ends
      (t.Shoots fun d' added => d'.scenarioResults = d.scenarioResults ++ added) := by
    intro d
    refine ⟨[], by simp, by simp, ?_⟩
    rintro _ ⟨⟩
    exact ⟨rfl, [], (List.append_nil _).symm, .nil _⟩
  induction left generalizing k d with
  | zero => exact hdone
  | succ left ih =>
    rw [slots]
    split
    · exact hdone
    · next g hg =>
      have hflag : (Task.isStopped : RunTask Bool).Only (fun _ => False) fun _ => True :=
        fun _ => trivial
      apply shoots_bind_idle hflag (fun _ hc => hc.elim)
      intro stopped
      have hnext : ∀ (d' : DeviceResult) (added : List ScenarioResult),
          d'.scenarioResults = d.scenarioResults ++ added →
          (t.slots left (k + 1) d').Ends (t.Shoots fun b more =>
            b.scenarioResults = d.scenarioResults ++ (added ++ more)) := by
        intro d' added hadded
        simpa only [hadded, List.append_assoc] using ih (k := k + 1) (d := d')
      cases stopped with
      | true => exact shoots_bind shoots_skip hnext
      | false => exact shoots_bind (shoots_visit hrec) hnext

/-- The work of a tour that is recorded is a row of takes, for the context is registered and given
up around them. -/
theorem shoots_work (hrec : t.run.request.recordVideo = true) :
    (t.work d).Ends (t.Shoots fun d' added =>
      d'.scenarioResults = d.scenarioResults ++ added) := by
  have hregister : (Task.ask (RunCall.register t.context) : RunTask Unit).Only
      (fun c => c.recording? = none) fun _ => True := RunTask.only_call rfl
  apply shoots_bind_idle hregister (fun _ hc => hc)
  intro _
  apply Task.ends_ensuring.2
  apply (shoots_slots hrec t.size).mono
  rintro told r ⟨takes, hwhole, hstart, hr⟩
  apply Task.ends_ask.2
  intro reply
  have hquiet : filming (told ++ [.reply (.unregister t.context) reply]) = filming told := by
    rw [filming_append]
    exact List.append_nil _
  refine ⟨takes, hwhole, hquiet ▸ hstart, fun a ha => ?_⟩
  cases reply with
  | none => cases ha
  | some _ => exact hquiet ▸ hr a ha

/-- In all transcripts of a tour that is recorded, the exchange with the recorder is a row of
takes, and if the tour does not crash, it is a whole one. -/
theorem shoots_conduct (hrec : t.run.request.recordVideo = true) :
    t.conduct.Ends (t.Shoots fun outcome added =>
      added = (outcome.toOption.map DeviceResult.scenarioResults).getD []) := by
  have hdevice : ∀ {α : Type} (task : DeviceTask α),
      (RunTask.onDevice task).Only (fun c => c.recording? = none) fun _ => True :=
    fun task => (RunTask.only_onDevice task).weaken fun c hc => by
      cases c <;> first | rfl | cases hc
  have hinstant : RunTask.instant.Only (fun c => c.recording? = none) fun _ => True :=
    RunTask.only_instant.2 fun _ => trivial
  have hemit : ∀ {e : Event},
      (RunTask.emit e).Only (fun c => c.recording? = none) fun _ => True :=
    RunTask.only_emit.2 ⟨rfl, fun _ => trivial⟩
  have hquiet : ∀ c : RunCall, c.recording? = none → c.recording? = none := fun _ hc => hc
  rw [conduct]
  apply shoots_bind_idle (hdevice _) hquiet
  rintro (e | environment)
  · refine ⟨[], by simp, by simp, ?_⟩
    rintro _ ⟨⟩
    exact ⟨rfl, [], rfl, .nil _⟩
  · apply shoots_bind_idle (hdevice _) hquiet
    intro appInfo
    apply shoots_bind_idle (unfilmed_updateDevice _) hquiet
    intro _
    apply shoots_bind_idle hinstant hquiet
    intro ms
    apply shoots_bind_idle hemit hquiet
    intro _
    apply shoots_bind (shoots_work hrec)
    intro d added hadded
    have hlast : (do
        t.updateDevice fun p => { p with
          status := if 0 < d.stats.failed then .partiallyFailed else .completed }
        RunTask.emit (.deviceComplete t.run.runId d)
        return .ok d : RunTask TourResult).Only (fun c => c.recording? = none) (· = .ok d) := by
      simp only [Task.only_bind, RunTask.only_emit, Task.only_pure]
      exact (unfilmed_updateDevice _).mono fun _ _ => ⟨rfl, fun _ => trivial⟩
    apply shoots_of_unfilmed hlast hquiet
    rintro _ rfl
    refine ⟨[], ?_, .nil _⟩
    change added ++ [] = d.scenarioResults
    rw [hadded, List.append_nil]
    exact (List.nil_append added).symm

end Tour

end DeviceSuite
