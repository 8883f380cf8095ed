import DeviceSuite.Proofs.Run.Stages
import DeviceSuite.Proofs.Run.Touring
import DeviceSuite.Proofs.Session.Watch

/-!
# Keeping quiet

The tasks of a run are quiet after a stop. A tour looks at the stop flag before each slot and each
node, its device before each further attempt and each look, and between such a look and what is
begun after it there is no room for a stop. What is begun without one belongs to the parting.
-/

namespace DeviceSuite

open Calls

/-- The picture of a failure that is begun late. -/
def Calls.Pictures (context : Context) (calls : List RunCall) : Prop :=
  ∃ artifact, calls.Sublist [.device .screenshot, .save context artifact]

/-- What has been begun late when a step is over: nothing, if the walk is to go on. -/
def Flow.Leaves (context : Context) : Flow → List RunCall → Prop
  | next _, calls => calls = []
  | halt _, calls => Pictures context calls

/-- Who has begun nothing late has begun no picture late. -/
theorem Calls.pictures_of_nil {context : Context} {calls : List RunCall} (h : calls = []) :
    Pictures context calls :=
  ⟨⟨.failureScreenshot, none, "", []⟩, h ▸ List.nil_sublist _⟩

variable {run : RunState} {n : Nat} {l : Role} {b : Books} {video : Option Context}

namespace SlotPlan

variable (p : SlotPlan) (nd : Node) (options : StepOptions)

/-- A picture of a failure may be taken late. -/
theorem abides_photograph (h : b.Stands run l (Stage (· = []) video)) :
    (p.photograph nd).Abides ((silence run n).terms l)
      (Task.Upon (fun b => b.Open run l) fun _ =>
        Books.Stands run l (Stage (Pictures p.context) video)) b := by
  have hshot : (RunTask.onDevice (Task.ask DeviceCall.screenshot)).Abides ((silence run n).terms l)
      (Task.Upon (fun b => b.Open run l) fun _ =>
        Books.Stands run l (Stage (List.Sublist · [.device .screenshot]) video)) b := by
    apply RunTask.abides_onDevice_ask
    apply h.abides_call (RunCall.steady_of_outward rfl)
    intro own stopped hown _
    have hnone : (late own).Sublist [] := hown.late.symm ▸ List.nil_sublist _
    obtain ⟨hallowed, hlate⟩ := outward (c := .device .screenshot) (l := l) hnone id
      (.inr ⟨p.context, ⟨.failureScreenshot, none, "", []⟩, by simp⟩)
      (fun _ h => by cases h) (fun h => by cases h) stopped
    exact ⟨hallowed, hown.reach hlate rfl⟩
  rw [photograph]
  apply hshot.bind
  intro shot b hb
  cases shot with
  | error e => exact hb.mono fun own hown =>
      hown.mono fun calls hcalls => ⟨⟨.failureScreenshot, none, "", []⟩, hcalls.trans (by simp)⟩
  | ok bytes =>
    apply Task.Abides.now_bind
    intro ms
    have hsave : ∀ artifact, (Task.ask (RunCall.save p.context artifact)).Abides
        ((silence run n).terms l) (Task.Upon (fun b => b.Open run l) fun _ =>
          Books.Stands run l (Stage (Pictures p.context) video)) b := by
      intro artifact
      apply hb.abides_call (RunCall.steady_of_outward rfl)
      intro own stopped hown _
      obtain ⟨hallowed, hlate⟩ := outward (c := .save p.context artifact) (l := l) hown.late id
        (.inr ⟨p.context, artifact, by simp⟩) (fun _ h => by cases h) (fun h => by cases h) stopped
      exact ⟨hallowed, hown.reach ⟨artifact, hlate⟩ rfl⟩
    apply (hsave _).bind
    intro receipt b hb
    cases receipt with
    | error e => exact hb
    | ok saved => exact hb

/-- An action that succeeds leaves nothing that is begun late. -/
theorem abides_conduct (h : b.Stands run l (Told (· = []) video))
    (hstop : b.state.stopRequested = false) :
    (p.conduct nd options).Abides ((silence run n).terms l)
      (Task.Upon (fun b => b.Open run l) fun x b =>
        (x.1.success = true → b.Stands run l (Told (· = []) video)) ∧
          b.Stands run l (Stage (Pictures p.context) video)) b := by
  rw [conduct]
  have hconduct := Task.abides_embed
    (nd.abides_conduct (heeds_device (n := n)) p.settings options ⟨h, hstop⟩)
  apply Task.Abides.bind hconduct
  intro x b hb
  dsimp only
  split
  · next hfailed =>
    apply (p.abides_photograph nd (hb.mono fun _ h => h.toStage)).bind
    intro picture b hb
    refine ⟨?_, hb⟩
    intro hsuccess
    have hx : x.1.success = true := hsuccess
    simp [hx] at hfailed
  · exact ⟨fun _ => hb, hb.mono fun _ h => h.toStage.mono fun _ => pictures_of_nil⟩

/-- The step that failed is told of, and so is its picture. -/
theorem abides_complete {K : List RunCall → Prop} (h : b.Stands run l (Stage K video))
    (result : ScenarioResult) (step : StepResult)
    (htold : step.status = .failed ∨ pictured (b.own l) = false) :
    (p.complete result step).Abides ((silence run n).terms l)
      (Task.Upon (fun b => b.Open run l) fun _ => Books.Stands run l (Told K video)) b := by
  have h' : b.Stands run l fun own =>
      Stage K video own ∧ (step.status = .failed ∨ pictured own = false) :=
    ⟨h.still, h.heard, h.calls, htold⟩
  have hemit : (RunTask.emit (.stepComplete p.context.runId p.context.deviceId result.scenarioId
      step)).Abides ((silence run n).terms l) (Task.Upon (fun b => b.Open run l) fun _ =>
        Books.Stands run l (Told K video)) b := by
    apply h'.abides_call (RunCall.bookkeeping_emit _).1
    intro own stopped hown _
    constructor
    · apply allowed_of_bookkeeping rfl
      intro hpictured event hevent
      obtain rfl : _ = event := RunCall.emit.inj hevent
      apply hown.2.resolve_right
      intro hfalse
      rw [hpictured] at hfalse
      cases hfalse
    · refine ⟨hown.1.book rfl, ?_⟩
      rw [pictured, latest?_append]
      rfl
  exact hemit.bind fun _ b hb => hb

/-- A step is concluded with a picture begun late only if it failed. -/
theorem abides_conclude (started : Nat) (result : ScenarioResult) (outcome : Outcome)
    (picture : Option String) (ended : Nat)
    (hpassed : outcome.success = true → b.Stands run l (Told (· = []) video))
    (h : b.Stands run l (Stage (Pictures p.context) video)) :
    (p.conclude nd started result outcome picture ended).Abides ((silence run n).terms l)
      (Task.Upon (fun b => b.Open run l) fun x =>
        Books.Stands run l (Told (x.2.Leaves p.context) video)) b := by
  simp only [conclude]
  split
  · next hsuccess =>
    have h' := hpassed hsuccess
    exact (p.abides_complete (h'.mono fun _ h => h.toStage) _ _ (.inr h'.calls.told)).bind
      fun _ b hb => hb
  · exact (p.abides_complete h _ _ (.inl rfl)).bind fun _ b hb => hb

/-- An action that has begun in time goes on no more than a picture of its failure. -/
theorem abides_act (started : Nat) (result : ScenarioResult)
    (h : b.Stands run l (Told (· = []) video)) (hstop : b.state.stopRequested = false) :
    (p.act nd options started result).Abides ((silence run n).terms l)
      (Task.Upon (fun b => b.Open run l) fun x =>
        Books.Stands run l (Told (x.2.Leaves p.context) video)) b := by
  have hforewarn : (p.forewarn nd started result).Abides ((silence run n).terms l)
      (Task.Upon (fun b => b.Open run l) fun _ b => b.Stands run l (Told (· = []) video) ∧
        b.state.stopRequested = false) b := by
    rw [forewarn]
    split
    · exact (h.abides_book_free (RunCall.bookkeeping_emit _) rfl hstop).bind fun _ b hb => hb
    · exact ⟨h, hstop⟩
  rw [act_eq]
  apply hforewarn.bind
  intro result b hb
  apply (p.abides_conduct nd options hb.1 hb.2).bind
  intro x b hb
  exact .now_bind fun ended => p.abides_conclude nd started result x.1 x.2 ended hb.1 hb.2

/-- A condition that has been read in time begins nothing late. -/
theorem abides_decide (started : Nat) (result : ScenarioResult)
    (h : b.Stands run l (Told (· = []) video)) (hstop : b.state.stopRequested = false) :
    (p.decide nd options started result).Abides ((silence run n).terms l)
      (Task.Upon (fun b => b.Open run l) fun x =>
        Books.Stands run l (Told (x.2.Leaves p.context) video)) b := by
  rw [decide]
  have hevaluate := Task.abides_embed
    (nd.abides_evaluate (heeds_device (n := n)) p.settings options ⟨h, hstop⟩)
  apply Task.Abides.bind hevaluate
  intro answer b hb
  apply Task.Abides.now_bind
  intro ended
  exact (p.abides_complete (hb.mono fun _ h => h.toStage) _ _ (.inr hb.calls.told)).bind
    fun _ b hb => hb

/-- A step is begun where the stop flag is not raised, or it is that of an end node. -/
theorem abides_step (result : ScenarioResult) (h : b.Stands run l (Told (· = []) video))
    (hstop : nd.kind ≠ .finish → b.state.stopRequested = false) :
    (p.step nd result).Abides ((silence run n).terms l)
      (Task.Upon (fun b => b.Open run l) fun x =>
        Books.Stands run l (Told (x.2.Leaves p.context) video)) b := by
  rw [step]
  split
  · exact h
  · next hkind =>
    simp only [Bool.or_eq_true, decide_eq_true_eq, not_or] at hkind
    apply Task.Abides.now_bind
    intro started
    apply (h.abides_book_free (RunCall.bookkeeping_emit _) rfl (hstop hkind.2)).bind
    intro _ b hb
    split
    · have hstage := hb.1.mono fun _ h => h.toStage
      exact (p.abides_complete hstage _ _ (.inr hb.1.calls.told)).bind fun _ b hb => hb
    · split
      · exact p.abides_decide nd _ _ result hb.1 hb.2
      · exact p.abides_act nd _ _ result hb.1 hb.2

/-- A walk begins no more than a picture of a failure late. -/
theorem abides_walk (nav : Navigator) (result : ScenarioResult)
    (h : b.Stands run l (Told (· = []) video)) :
    (p.walk nav nd result).Abides ((silence run n).terms l)
      (Task.Upon (fun b => b.Open run l) fun _ =>
        Books.Stands run l (Told (Pictures p.context) video)) b := by
  induction nav, nd, result using SlotPlan.walk.induct generalizing b with
  | case1 nav nd result ih =>
    rw [walk]
    apply Task.Abides.isStopped_bind
    intro stopped hread
    have hread : stopped = b.state.stopRequested := hread
    split
    · exact h.mono fun _ h => h.mono fun _ => pictures_of_nil
    · next hgo =>
      have hstop : nd.kind ≠ .finish → b.state.stopRequested = false := fun hkind => by
        simpa [hkind, hread] using hgo
      apply (p.abides_step nd result h hstop).taskBind
      intro x b hb
      rcases x with ⟨result', answer | error⟩
      · dsimp only
        split
        · exact hb.mono fun _ h => h.mono fun _ => pictures_of_nil
        · next nav' next hnext => exact ih _ _ _ _ hnext hb
      · exact hb

/-- A slot begins no more than a picture of a failure late. -/
theorem abides_run (g : Graph) (iteration : UInt32) (h : b.Stands run l (Told (· = []) video)) :
    (p.run g iteration).Abides ((silence run n).terms l)
      (Task.Upon (fun b => b.Open run l) fun _ =>
        Books.Stands run l (Told (Pictures p.context) video)) b := by
  rw [SlotPlan.run]
  apply Task.Abides.now_bind
  intro started
  dsimp only
  split
  · exact fun ms => h.mono fun _ h => h.mono fun _ => pictures_of_nil
  · next nav nd _ =>
    exact (p.abides_walk nd nav _ h).bind fun result b hb ms => hb

end SlotPlan

namespace Tour

variable (t : Tour) (g : Graph)

/-- A recording is started before the scenario, when no stop is requested, and it is this recording
that is stopped after it. -/
theorem heeds_film (k : Nat) (h : b.Stands run l (Told (· = []) none))
    (hstop : b.state.stopRequested = false) :
    (t.film g k).Abides ((silence run n).terms l)
      (Task.Upon (fun b => b.Open run l) fun _ =>
        Books.Stands run l (Told (fun _ => True) none)) b := by
  have hrun : ∀ {video b}, b.Stands run l (Told (· = []) video) →
      ((t.plan g k).run g (t.iteration k)).Abides ((silence run n).terms l)
        (Task.Upon (fun b => b.Open run l) fun _ =>
          Books.Stands run l (Told (Pictures (t.plan g k).context) video)) b := fun h =>
    (t.plan g k).abides_run g (t.iteration k) h
  simp only [film]
  split
  · have hstart : (Task.ask (RunCall.startVideo (t.plan g k).context)).Abides
        ((silence run n).terms l) (Task.Upon (fun b => b.Open run l) fun _ b =>
          b.Stands run l (Told (· = []) (some (t.plan g k).context)) ∧ _) b :=
      h.abides_free (Q := Told (· = []) (some (t.plan g k).context))
        (RunCall.steady_of_outward rfl) rfl hstop fun own hown => by
          refine ⟨allowed_of_outward (fun h => by cases h) (fun _ h => by cases h)
            (fun h => by cases h), ⟨?_, ?_⟩, ?_⟩
          · rw [late_append_of_not rfl]
            exact hown.late
          · intro context hvideo
            exact (recording?_append_of_some rfl).trans hvideo
          · exact pictured_append_of_false hown.told fun h => by cases h
    apply hstart.bind
    intro outcome b hb
    apply (hrun hb.1).bind
    intro result b hb
    split
    · have hend : (Task.ask (RunCall.stopVideo (t.plan g k).context)).Abides
          ((silence run n).terms l) (Task.Upon (fun b => b.Open run l) fun _ =>
            Books.Stands run l (Told (fun _ => True) none)) b := by
        apply hb.abides_call (RunCall.steady_of_outward rfl)
        intro own stopped hown _
        obtain ⟨artifact, hlate⟩ := hown.late
        have hvideo : ∀ context, RunCall.stopVideo (t.plan g k).context = .stopVideo context →
            recording? own = some context := fun context hcontext =>
          hown.video context (congrArg some (RunCall.stopVideo.inj hcontext))
        obtain ⟨hallowed, -⟩ := outward (c := .stopVideo (t.plan g k).context) (l := l) hlate id
          (.inr ⟨(t.plan g k).context, artifact, by simp⟩) hvideo (fun h => by cases h) stopped
        exact ⟨hallowed, .idle trivial (pictured_append_of_false hown.told fun h => by cases h)⟩
      exact hend.bind fun outcome b hb => hb
    · exact hb.mono fun _ h => .idle trivial h.told
  · exact (hrun h).bind fun result b hb => hb.mono fun _ h => .idle trivial h.told

/-- A slot that begins in time stays quiet after a stop. -/
theorem heeds_visit (k : Nat) (d : DeviceResult)
    (h : b.Stands run l (Told (fun _ => True) none)) (hstop : b.state.stopRequested = false) :
    (t.visit g k d).Abides ((silence run n).terms l)
      (Task.Upon (fun b => b.Open run l) fun _ =>
        Books.Stands run l (Told (fun _ => True) none)) b := by
  simp only [visit, announce, bind_assoc]
  have hfresh := h.fresh hstop
  apply (hfresh.abides_book_free ⟨RunCall.steady_updateDevice _ _, rfl⟩ rfl hstop).bind
  intro _ b hb
  apply Task.Abides.now_bind
  intro ms
  apply (hb.1.abides_book_free (RunCall.bookkeeping_emit _) rfl hb.2).bind
  intro _ b hb
  have hprogress : RunCall.progress.Bookkeeping := RunCall.bookkeeping_of_changes rfl rfl
  apply (hb.1.abides_book_free hprogress rfl hb.2).bind
  intro percent b hb
  apply (hb.1.abides_book_free (RunCall.bookkeeping_emit _) rfl hb.2).bind
  intro _ b hb
  apply (t.heeds_film g k hb.1 hb.2).bind
  intro result b hb
  apply (hb.abides_book (Q := fun _ => True) _).upon (fun _ h => h) fun _ _ h => h.2
  simp only [settle, Task.only_bind, RunTask.only_emit, RunTask.only_update, Task.only_pure]
  refine ⟨RunCall.bookkeeping_emit _, fun _ => ⟨⟨RunCall.steady_completeSlot _, rfl⟩, ?_⟩⟩
  exact fun _ => t.only_rest k

/-- A tour stays quiet after a stop. -/
theorem heeds_work (d : DeviceResult) (h : b.Stands run l (Told (fun _ => True) none)) :
    (t.work d).Abides ((silence run n).terms l)
      (Task.Upon (fun b => b.Open run l) fun _ =>
        Books.Stands run l (Told (fun _ => True) none)) b := by
  have hregister := RunTask.only_call (c := .register t.context)
    (RunCall.bookkeeping_of_changes rfl rfl)
  have hunregister := RunTask.only_call (c := .unregister t.context)
    (RunCall.bookkeeping_of_changes rfl rfl)
  apply (h.abides_book hregister).bind
  intro _ b hb
  have hslots : (t.slots t.size 0 d).Abides ((silence run n).terms l)
      (Task.Upon (fun b => b.Open run l) fun _ =>
        Books.Stands run l (Told (fun _ => True) none)) b :=
    t.abides_slots (I := fun _ _ => Books.Stands run l (Told (fun _ => True) none))
      (fun _ _ hb _ => (hb.abides_book ((only_skip _ _).weaken fun _ h => h.1)).upon
        (fun _ h => h) fun _ _ h => h.2)
      (fun _ _ hb hstop => t.heeds_visit _ _ _ hb hstop) (Nat.zero_add _) hb.2
  apply hslots.ensuring
  · intro b hb
    exact hb.abides_untold (RunCall.bookkeeping_of_changes rfl rfl) rfl rfl
  · intro d b hb
    exact (hb.abides_book hunregister).upon (fun _ h => h) fun _ _ h => h.2

/-- A tour begins with what its device says of itself, also after a stop. -/
theorem heeds_conduct (h : b.Stands run l (Told (· = []) none)) :
    t.conduct.Abides ((silence run n).terms l)
      (Task.Upon (fun b => b.Open run l) fun _ b => b.Open run l) b := by
  have henvironment : (RunTask.onDevice (Task.ask DeviceCall.environment)).Abides
      ((silence run n).terms l) (Task.Upon (fun b => b.Open run l) fun _ =>
        Books.Stands run l (Told (List.Sublist · [.device .environment]) none)) b := by
    apply RunTask.abides_onDevice_ask
    apply h.abides_call (RunCall.steady_of_outward rfl)
    intro own stopped hown _
    have hnone : (late own).Sublist [] := hown.late.symm ▸ List.nil_sublist _
    obtain ⟨hallowed, hlate⟩ := outward (c := .device .environment) (l := l) hnone id
      (.inl (by simp)) (fun _ h => by cases h) (fun h => by cases h) stopped
    exact ⟨hallowed, hown.reach hlate rfl, pictured_append_of_false hown.told fun h => by cases h⟩
  rw [conduct]
  apply henvironment.bind
  intro r b hb
  cases r with
  | error e => exact hb.still
  | ok environment =>
    have happ : (RunTask.onDevice (Task.ask DeviceCall.appInfo)).Abides
        ((silence run n).terms l) (Task.Upon (fun b => b.Open run l) fun _ =>
          Books.Stands run l (Told (fun _ => True) none)) b := by
      apply RunTask.abides_onDevice_ask
      apply hb.abides_call (RunCall.steady_of_outward rfl)
      intro own stopped hown _
      obtain ⟨hallowed, -⟩ := outward (c := .device .appInfo) (l := l) hown.late id
        (.inl (List.Sublist.refl _)) (fun _ h => by cases h) (fun h => by cases h) stopped
      exact ⟨hallowed, .idle trivial (pictured_append_of_false hown.told fun h => by cases h)⟩
    have hupdate := fun f => RunTask.only_call (H := RunCall.Bookkeeping)
      ⟨RunCall.steady_updateDevice t.deviceId f, rfl⟩
    have hemit := fun e => RunTask.only_call (RunCall.bookkeeping_emit e)
    apply happ.bind
    intro appInfo b hb
    apply (hb.abides_book (hupdate _)).bind
    intro _ b hb
    apply Task.Abides.now_bind
    intro ms
    apply (hb.2.abides_book (hemit _)).bind
    intro _ b hb
    apply (t.heeds_work _ hb.2).bind
    intro d b hb
    apply (hb.abides_book (hupdate _)).bind
    intro _ b hb
    exact (hb.2.abides_book (hemit _)).bind fun _ b hb => hb.2.still

end Tour

/-- The lead of a run only keeps the books, and waits for the tours. -/
theorem RunTask.only_lead (run : RunState) : (lead run).Only RunCall.OfLead fun _ => True := by
  have hstatus := fun status => only_call
    (RunCall.ofLead_of_changes (RunCall.steady_withStatus status) rfl)
  have hemit := fun e => only_call (RunCall.ofLead_of_waits (RunCall.bookkeeping_emit e) rfl)
  have htours : RunCall.tours.OfLead := ⟨RunCall.bookkeeping_of_changes rfl rfl, fun _ => rfl⟩
  have hcollect := fun entries => (only_collect entries).weaken fun _ h =>
    RunCall.ofLead_of_changes h.1 h.2
  have harchive := fun r => only_call (c := .archive r)
    (RunCall.ofLead_of_waits (RunCall.bookkeeping_of_changes rfl rfl) rfl)
  have hretire := only_call (c := .retire)
    (RunCall.ofLead_of_waits (RunCall.bookkeeping_of_changes rfl rfl) rfl)
  rw [lead]
  apply Task.only_bind.2
  apply (hstatus _).mono
  intro _ _
  apply Task.only_bind.2
  apply only_instant.2
  intro ms
  apply Task.only_bind.2
  apply (hemit _).mono
  intro _ _
  apply Task.only_bind.2
  apply (only_call htours).mono
  intro reports _
  apply Task.only_bind.2
  apply (hcollect _).mono
  intro devices _
  apply Task.only_bind.2
  intro stopped
  apply Task.only_bind.2
  intro ms
  apply Task.only_bind.2
  apply (hstatus _).mono
  intro _ _
  apply Task.only_bind.2
  apply (harchive _).mono
  intro _ _
  apply Task.only_bind.2
  apply hretire.mono
  intro _ _
  exact Task.only_bind.2 ((hemit _).mono fun _ _ => trivial)

/-- A tour of a run that begins has called nothing. -/
theorem Books.blank_stands {n place : Nat} {id : String}
    (h : run.request.deviceIds[place]? = some id) :
    (Books.blank run).Stands run (.tour n place id) (Told (· = []) none) :=
  ⟨blank_open h, fun h => absurd rfl h, .idle rfl rfl⟩

/-- The tasks of a run are quiet after a stop from the beginning. -/
theorem silence_joined (run : RunState) (n : Nat) (scenarios : List Graph) :
    (silence run n).Joined scenarios where
  blank := ⟨fun _ he => absurd he List.not_mem_nil, fun _ => quiet_nil⟩
  lead {b} hd := by
    have hb : (Books.blank run).Stands run (.lead n) (Told (fun _ => True) none) :=
      ⟨trivial, fun h => absurd rfl h, .idle trivial rfl⟩
    have hlead := (RunTask.only_lead run).weaken fun _ h => h.1
    exact ((hb.drift hd).abides_book hlead).mono fun _ _ _ => trivial
  tour := by
    rintro t place b hrun - hid - hd
    have hb := (Books.blank_stands hid).drift hd
    have hbegun : RunCall.begun.Bookkeeping := RunCall.bookkeeping_of_changes rfl rfl
    have hallowed : (silence run n).may (.tour n place t.deviceId) b .begun :=
      allowed_of_untold rfl rfl
    refine ⟨hallowed, ?_⟩
    intro b hd'
    have hcall := (hb.call hbegun.1 (hb.calls.book hbegun.2)).drift hd'
    apply (t.heeds_conduct hcall).mono
    intro b r hr
    cases r with
    | none => exact ⟨hr, trivial⟩
    | some r => exact ⟨hr, trivial⟩

end DeviceSuite
