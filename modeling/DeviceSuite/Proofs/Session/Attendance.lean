import DeviceSuite.Proofs.Run.Attendance
import DeviceSuite.Proofs.Session.Course

/-!
# The attendance of the devices of a run

The minutes of a session tell which devices are registered at the sink for which reports. Only the
tours of a run register devices for it, each its own, so a device that is requested once attends for
as long as its slots go on, and no device attends once the run has settled. But the sink does not
count: of two tours of one device, the first that ends takes the context away from the other,
`Course.attendance_taken`.
-/

namespace DeviceSuite

/-! ## What the sink holds -/

namespace ArtifactSink

variable (s : ArtifactSink) (c : Context) (reportId deviceId : String)

/-- A device that is registered is so for that report, and the others are as before. -/
theorem isRegistered_register : (s.register c).isRegistered reportId deviceId =
    if (c.reportId, c.deviceId) = (reportId, deviceId) then true
    else s.isRegistered reportId deviceId := by
  unfold register
  by_cases hkey : (c.reportId, c.deviceId) = (reportId, deviceId)
  · obtain ⟨rfl, rfl⟩ := Prod.mk.inj hkey
    cases hold : s.isRegistered c.reportId c.deviceId with
    | true => simp [hold]
    | false => simp [isRegistered]
  · rw [if_neg hkey]
    split
    · rfl
    · simp [isRegistered, Ne.symm hkey]

/-- A device that is taken out is not registered for that report, and the others are as before. -/
theorem isRegistered_unregister : (s.unregister c).isRegistered reportId deviceId =
    if (c.reportId, c.deviceId) = (reportId, deviceId) then false
    else s.isRegistered reportId deviceId := by
  by_cases hkey : (c.reportId, c.deviceId) = (reportId, deviceId)
  · simp [isRegistered, unregister, hkey]
  · simp [isRegistered, unregister, hkey, List.contains_eq_mem, Ne.symm hkey]

end ArtifactSink

namespace World

variable {σ : Type} {key : String × String}

/-- Whether a device attends for a report, if there is a sink. -/
def attends? (w : World σ) (key : String × String) : Option Bool :=
  w.desk.map fun d => d.sink.isRegistered key.1 key.2

variable (w : World σ) (service : Service DeviceCall.Reply σ) (l : Role) (c : RunCall)

/-- An answer changes the attendance of a device as its minute says. -/
theorem answer_attends? : (w.answer service l c).1.attends? key =
    (w.attends? key).map fun on => attending key on [.answered l c (w.answer service l c).2] := by
  have hsame : ∀ {m : Minute RunCall.Reply Role} {w' : World σ}, m.attends? key = none →
      w'.attends? key = w.attends? key →
      w'.attends? key = (w.attends? key).map fun on => attending key on [m] := by
    intro m w' hm hw
    simp [hw, hm]
  have hsink : ∀ (f : ArtifactSink → ArtifactSink), (w.updateSink f).attends? key =
      w.desk.map fun d => (f d.sink).isRegistered key.1 key.2 := fun f => by
    simp [attends?, updateSink, Function.comp_def, ArtifactDesk.mapSink]
  have hanswers := w.answers service l c
  cases c with
  | register context =>
    refine (hsink _).trans ?_
    simp only [ArtifactSink.isRegistered_register, attends?, answer, attending_cons, attending_nil,
      Minute.attends?, Option.map_map, Function.comp_def]
    split <;> rfl
  | unregister context =>
    refine (hsink _).trans ?_
    simp only [ArtifactSink.isRegistered_unregister, attends?, attending_cons, attending_nil,
      Minute.attends?, Option.map_map, Function.comp_def]
    split <;> rfl
  | save context artifact =>
    apply hsame rfl
    simp only [answer, save]
    split
    · rfl
    · next desk hdesk =>
      simp only [attends?, hdesk, Option.map_some, ArtifactDesk.save, ArtifactDesk.put,
        ArtifactSink.save, ArtifactSink.isRegistered]
      split
      · rfl
      · split <;> rfl
  | _ =>
    apply hsame rfl
    simp [attends?, hanswers.desk_eq]

/-- What a strand that goes on makes of the attendance of a device, its minutes tell. -/
theorem resume_attends? {strand : Strand RunCall.Reply RoleResult}
    (able : (host service).isAble w l strand = true) :
    ((host service).resume l strand w).1.attends? key =
      (w.attends? key).map fun on => attending key on ((host service).minutesOf l strand w) := by
  let P (x : World σ × List (Minute RunCall.Reply Role)) : Prop :=
    x.1.attends? key = (w.attends? key).map fun on => attending key on x.2
  have able' : (host service).minuted.isAble (w, []) l strand = true := by
    cases strand <;> exact able
  have hkept : P ((host service).minuted.resume l strand (w, [])).1 := by
    apply Host.resume_keeps (P := P) _ _ _ _ able' (by simp [P])
    · rintro ⟨w', log⟩ c h
      refine Eq.trans ?_ h
      cases c with
      | save context artifact =>
        change (w'.desk.map _).map _ = w'.desk.map _
        simp [Function.comp_def, ArtifactDesk.request]
      | _ => rfl
    · rintro ⟨w', log⟩ c h
      obtain ⟨registry, devices, snapshots, hw'⟩ := w'.accept_eq service l c
      have hdesk : (w'.accept service l c).1.attends? key = w'.attends? key := by rw [hw']; rfl
      change (w'.accept service l c).1.attends? key =
        (w.attends? key).map fun on => attending key on (log ++ [.begun l c])
      simp only [hdesk, attending_append]
      exact h
    · rintro ⟨w', log⟩ c h
      have h : w'.attends? key = (w.attends? key).map fun on => attending key on log := h
      change (w'.answer service l c).1.attends? key = (w.attends? key).map fun on =>
        attending key on (log ++ [.answered l c (w'.answer service l c).2])
      rw [answer_attends?, h, Option.map_map]
      simp only [Function.comp_def, attending_append]
    · rintro ⟨w', log⟩ r h
      refine Eq.trans ?_ h
      cases l <;> rfl
  rw [Host.minuted_resume] at hkept
  simpa [P] using hkept

end World

/-! ## Who goes to the sink -/

/-- The identifiers of runs are new: no two runs have one, and the sink has no report of it. -/
structure SessionPlan.Fresh {σ : Type} (plan : SessionPlan σ) : Prop where
  distinct : Function.Injective plan.runId
  unused : ∀ make, plan.desk = some make → ∀ places n id,
    (make places).sink.isRegistered (plan.runId n) id = false

/-- A tour may register its device for its run, and take it out again; a lead may not. -/
def SessionPlan.Lets {σ : Type} (plan : SessionPlan σ) : Role → RunCall → Prop
  | .lead _, c => c.attends? = none
  | .tour n _ id, c => ∀ context ∈ c.attends?, context.reportId = plan.runId n ∧
      context.deviceId = id

/-- A lead registers nobody. -/
theorem RunTask.lead_attends (run : RunState) :
    (lead run).Only (fun c => c.attends? = none) fun _ => True := by
  have hupdate : ∀ c : RunCall, c.Steady ∧ c.changes = true → c.attends? = none :=
    fun c h => by cases c <;> first | rfl | cases h.2
  have hcollect := fun entries => (only_collect entries).weaken hupdate
  have harchive := fun r => only_call (H := fun c => c.attends? = none) (c := .archive r) rfl
  have hretire := only_call (H := fun c => c.attends? = none) (c := .retire) rfl
  simp only [lead, Task.only_bind, only_update, only_instant, only_emit, Task.only_ask,
    Task.only_pure]
  refine ⟨rfl, fun _ ms => ⟨rfl, fun _ => ⟨rfl, fun reports => ?_⟩⟩⟩
  apply (hcollect _).mono
  refine fun devices _ stopped ms => ⟨rfl, fun _ => ?_⟩
  apply (harchive _).mono
  intro _ _
  apply hretire.mono
  exact fun _ _ => ⟨rfl, fun _ => trivial⟩

namespace Session

variable {σ : Type} {s s' : Session σ} {m : Move} {more : Calls} {key : String × String}

/-- The tasks go to the sink as they may. -/
def Dutiful (s : Session σ) : Prop :=
  ∀ e ∈ s.pool.strands, e.2.Makes (s.plan.Lets e.1) fun _ => True

/-- Tasks have been dutiful since the session was opened. -/
theorem Opened.dutiful (ho : s.Opened) : s.Dutiful := by
  refine Opened.makes (H := SessionPlan.Lets) (fun s run scenarios hrun e he => ?_) ho
  rcases List.mem_cons.1 he with rfl | he
  · exact Task.only_bind.2 ((RunTask.lead_attends _).mono fun _ _ => trivial)
  · obtain ⟨⟨id, place⟩, -, rfl⟩ := List.mem_map.1 he
    have hbegun : s.plan.Lets (.tour s.world.registry.runs.length place id) .begun := nofun
    refine ⟨hbegun, fun _ => Task.only_bind.2 (((Tour.does_conduct _).weaken fun c hc => ?_).mono
      fun _ _ => trivial)⟩
    intro context hcontext
    have hown : context = .forDevice run.runId run.runId id := by
      cases c with
      | register c => exact (Option.some.inj hcontext).symm.trans hc
      | unregister c => exact (Option.some.inj hcontext).symm.trans hc
      | _ => cases hcontext
    rw [hown]
    exact ⟨hrun, rfl⟩

/-- What a move makes of the attendance of a device, its minutes tell. -/
theorem perform_attends? (h : s.allows m = true) : (s.perform m).world.attends? key =
    (s.world.attends? key).map fun on => attending key on (s.minutesOf m) := by
  cases moved_of_allows h with
  | turn able turn found goes world strands minutes =>
    rw [world, minutes]
    exact World.resume_attends? _ _ _ goes
  | aside more added strands new runs crews blank desk minutes =>
    rw [minutes, World.attends?, World.attends?, desk, Option.map_map]
    rfl

/-- The minutes of a move are of a task, which goes to the sink as it may. -/
theorem Opened.lets (ho : s.Opened) (h : s.allows m = true) :
    ∀ e ∈ s.minutesOf m, e.label ∈ s.pool.strands.map (·.1) ∧ s.plan.Lets e.label e.call := by
  cases moved_of_allows h with
  | @turn i l strand able turn found goes world strands minutes =>
    have hmem := List.mem_of_getElem? found
    have hmakes : strand.Makes (s.plan.Lets l) fun _ => True := ho.dutiful _ hmem
    have hall := Host.mem_minutesOf (h := s.host) goes hmakes
    rw [minutes]
    intro e he
    obtain ⟨hlabel, hlets⟩ := hall e he
    rw [hlabel]
    exact ⟨List.mem_map_of_mem hmem, hlets⟩
  | aside more added strands new runs crews blank desk minutes =>
    rw [minutes]
    exact fun e he => absurd he List.not_mem_nil

/-- A minute about the attendance of a device for a run is of a tour of this device in this run. -/
theorem tour_of_lets {plan : SessionPlan σ} (hplan : plan.Fresh) {n : Nat} {id : String}
    {e : Minute RunCall.Reply Role} (h : plan.Lets e.label e.call)
    (he : e.attends? (plan.runId n, id) ≠ none) : ∃ place, e.label = .tour n place id := by
  obtain ⟨context, hcontext, hkey⟩ : ∃ context ∈ e.call.attends?,
      (context.reportId, context.deviceId) = (plan.runId n, id) := by
    by_contra hnot
    push Not at hnot
    exact he (attends?_eq_none hnot)
  obtain ⟨hreport, rfl⟩ := Prod.mk.inj hkey
  cases hlabel : e.label with
  | lead k =>
    rw [hlabel] at h
    have h : e.call.attends? = none := h
    rw [h] at hcontext
    cases hcontext
  | tour k place id =>
    rw [hlabel] at h
    obtain ⟨hk, hid⟩ := h context hcontext
    exact ⟨place, by rw [hplan.distinct (hk.symm.trans hreport), hid]⟩

/-- No device attends for a run that is still to come. -/
theorem Opened.vacant (ho : s.Opened) (hplan : s.plan.Fresh) : ∀ n id,
    s.world.registry.runs.length ≤ n → s.world.attends? (s.plan.runId n, id) ≠ some true := by
  induction ho with
  | @setUp plan source s h =>
    obtain ⟨rfl, -, -, -, places, hdesk⟩ := setUp_blank h
    intro n id _
    rw [World.attends?, hdesk]
    cases hmake : s.plan.desk with
    | none => simp
    | some make => simp [hplan.unused make hmake places n id]
  | @next s s' more ho hnext ih =>
    obtain ⟨m, hm, rfl⟩ := hnext.move
    rw [plan_perform hm] at hplan ⊢
    intro n id hn
    have hruns : s.world.registry.runs.length ≤ (s.perform m).world.registry.runs.length := by
      cases moved_of_allows hm with
      | turn able turn => exact turn ▸ (ho.numbered.numbers_takeTurn able).1.ge
      | aside _ _ _ _ runs => exact runs
    have hnone : ∀ e ∈ s.minutesOf m, e.attends? (s.plan.runId n, id) = none := by
      intro e he
      by_contra hsome
      obtain ⟨hlabel, hlets⟩ := ho.lets hm e he
      obtain ⟨place, htour⟩ := tour_of_lets hplan hlets hsome
      have hlt := ho.numbered.runs _ hlabel
      rw [htour] at hlt
      exact absurd (Nat.lt_of_lt_of_le hlt hruns) (Nat.not_lt.2 hn)
    have hsame : ∀ on, attending (s.plan.runId n, id) on (s.minutesOf m) = on :=
      fun on => attending_eq hnone
    simp only [perform_attends? hm, hsame, Option.map_id']
    exact ih hplan n id (hruns.trans hn)

end Session

/-- What the device of a minute answered to the question what it is. -/
def Minute.described? : Minute RunCall.Reply Role → Option (Option (Except DeviceError Environment))
  | .answered _ (.device .environment) reply => some reply
  | _ => none

/-- A device that attends at last has been left attending by one of those who changed that. -/
theorem exists_of_attending {key : String × String} {minutes : Minutes}
    (h : attending key false minutes = true) : ∃ e ∈ minutes, e.attends? key ≠ none ∧
      attending key false (minutes.ofTask e.label) = true := by
  induction minutes using List.reverseRecOn with
  | nil => cases h
  | append_singleton minutes e ih =>
    rw [attending_append, attending_cons, attending_nil] at h
    have hlast : ∀ l, (Minutes.ofTask l (minutes ++ [e])) =
        Minutes.ofTask l minutes ++ if e.label = l then [e] else [] := by
      intro l
      by_cases hl : e.label = l <;> simp [Minutes.ofTask, hl]
    cases he : e.attends? key with
    | some on =>
      rw [he] at h
      refine ⟨e, by simp, by simp [he], ?_⟩
      rw [hlast, if_pos rfl, attending_append, attending_cons, he]
      exact h
    | none =>
      rw [he] at h
      obtain ⟨e', hmem, hsome, hon⟩ := ih h
      refine ⟨e', List.mem_append_left _ hmem, hsome, ?_⟩
      rw [hlast, attending_append, hon]
      split <;> simp [he]

namespace Course

open Session

variable {σ : Type} (c : Course σ)

/-- Whether a device attends for the run after so many minutes. -/
def attends (id : String) (minutes : Minutes) : Bool := attending (c.run.runId, id) false minutes

/-- How the devices of a run attend at the sink. -/
structure Attended : Prop where
  /-- Those devices are registered for the run of which the minutes say so. -/
  sink : ∀ id on, c.now.world.attends? (c.run.runId, id) = some on → on = c.attends id c.minutes
  /-- A device that is requested once attends from each minute of a slot of it until the next of
  its minutes. -/
  slots : ∀ place id, c.request.deviceIds[place]? = some id →
    (∀ other, c.request.deviceIds[other]? = some id → other = place) →
    ∀ sofar : Minutes, sofar <+: c.minutes →
      ∀ m ∈ (sofar.ofTask (.tour c.number place id)).getLast?,
        m.call.inSlot = true → c.attends id sofar = true
  /-- The task of a device that cannot describe itself does not go to the sink. -/
  undescribed : ∀ place id, c.request.deviceIds[place]? = some id → ∀ reply,
    (c.minutes.ofTask (.tour c.number place id)).findSome? Minute.described? = some reply →
    (∀ environment, reply ≠ some (.ok environment)) →
    ∀ m ∈ c.minutes.ofTask (.tour c.number place id), m.call.attends? = none
  /-- When the run has settled, no device is registered for it. -/
  settled : (c.now.result? c.number).isSome → ∀ id,
    c.now.world.attends? (c.run.runId, id) ≠ some true

variable {c}

/-- The minutes of a course are of tasks that go to the sink as they may. -/
theorem lets (c : Course σ) : ∀ e ∈ c.minutes,
    e.label ∈ c.now.pool.strands.map (·.1) ∧ c.before.plan.Lets e.label e.call := by
  suffices h : c.now.Opened ∧ c.now.plan = c.before.plan ∧ ∀ e ∈ c.minutes,
      e.label ∈ c.now.pool.strands.map (·.1) ∧ c.before.plan.Lets e.label e.call from h.2.2
  refine performs_keeps (P := fun s minutes => s.Opened ∧ s.plan = c.before.plan ∧
    ∀ e ∈ minutes, e.label ∈ s.pool.strands.map (·.1) ∧ c.before.plan.Lets e.label e.call)
    ⟨c.opened_start, rfl, by simp⟩ ?_ c.allowed
  rintro s minutes m ⟨ho, hplan, hall⟩ hm
  have hlabels : s.pool.strands.map (·.1) ⊆ (s.perform m).pool.strands.map (·.1) := by
    cases moved_of_allows hm with
    | turn able turn found goes world strands minutes =>
      rw [strands, Company.map_set_label found]
      exact List.Subset.refl _
    | aside more added strands new runs crews blank desk minutes =>
      rw [strands, List.map_append]
      exact List.subset_append_left _ _
  refine ⟨ho.perform hm, (plan_perform hm).trans hplan, fun e he => ?_⟩
  rcases List.mem_append.1 he with hold | hnew
  · exact ⟨hlabels (hall e hold).1, (hall e hold).2⟩
  · obtain ⟨hlabel, hlets⟩ := ho.lets hm e hnew
    exact ⟨hlabels hlabel, hplan ▸ hlets⟩

/-- A minute about the attendance of a device for the run is of a tour that the request names. -/
theorem tour_of_attends (hplan : c.before.plan.Fresh) {id : String} {e : Minute RunCall.Reply Role}
    (hmem : e ∈ c.minutes) (he : e.attends? (c.run.runId, id) ≠ none) :
    ∃ place, e.label = .tour c.number place id ∧ c.request.deviceIds[place]? = some id := by
  obtain ⟨hlabel, hlets⟩ := c.lets e hmem
  obtain ⟨place, htour⟩ := tour_of_lets hplan hlets he
  exact ⟨place, htour, c.kept.tours place id (htour ▸ hlabel)⟩

/-- Those devices attend now of which the minutes say so. -/
theorem attends?_now (hplan : c.before.plan.Fresh) (id : String) :
    c.now.world.attends? (c.run.runId, id) =
      c.before.world.desk.map fun _ => c.attends id c.minutes := by
  have htold : c.now.world.attends? (c.run.runId, id) = (c.start.world.attends?
      (c.run.runId, id)).map fun on => attending (c.run.runId, id) on c.minutes := by
    refine performs_keeps (P := fun s minutes => s.world.attends? (c.run.runId, id) =
      (c.start.world.attends? (c.run.runId, id)).map fun on =>
        attending (c.run.runId, id) on minutes) (by simp) ?_ c.allowed
    intro s minutes m hs hm
    rw [perform_attends? hm, hs, Option.map_map]
    simp only [Function.comp_def, attending_append]
  have hstart : c.start.world.attends? (c.run.runId, id) =
      c.before.world.attends? (c.run.runId, id) := by
    rw [start, world_launch]
    rfl
  have hbefore := c.opened.vacant hplan c.number id (Nat.le_refl _)
  rw [htold, hstart]
  change c.before.world.attends? (c.run.runId, id) ≠ some true at hbefore
  cases hdesk : c.before.world.desk with
  | none => simp [World.attends?, hdesk]
  | some desk =>
    simp only [World.attends?, hdesk, Option.map_some, ne_eq, Option.some.injEq,
      Bool.not_eq_true] at hbefore ⊢
    rw [hbefore]
    rfl

/-- The minutes of a tour attend to its slots. -/
theorem attendsSlots {place : Nat} {id : String} (hid : c.request.deviceIds[place]? = some id) :
    AttendsSlots (c.run.runId, id) false (c.minutes.ofTask (.tour c.number place id)) := by
  obtain ⟨strand, reply, told, outcome, -, hyields, hstart, -⟩ := c.told hid
  obtain ⟨hslots, -⟩ := ((c.tour place id).attends_conduct (.tour c.number place id)).of_yields hyields
  refine AttendsSlots.start ?_ hstart
  exact ⟨nofun, nofun, hslots⟩

/-- A tour that has been reported has taken its device out again. -/
theorem attending_of_reported {place : Nat} {id : String} {crew : Crew}
    {outcome : Option TourResult} (hid : c.request.deviceIds[place]? = some id)
    (hcrew : c.now.world.crew? c.number = some crew) (hmem : (place, outcome) ∈ crew.reports) :
    attending (c.run.runId, id) false (c.minutes.ofTask (.tour c.number place id)) = false := by
  obtain ⟨reply, told, hyields, hminutes⟩ := c.told_of_reported hid hcrew hmem
  rw [hminutes]
  exact (((c.tour place id).attends_conduct (.tour c.number place id)).of_yields hyields).2

/-- Where the identifiers of runs are new, the devices of a run attend at the sink. -/
theorem devices_attend (hplan : c.before.plan.Fresh) : c.Attended where
  sink id on hon := by
    rw [attends?_now hplan] at hon
    obtain ⟨-, -, rfl⟩ := Option.map_eq_some_iff.1 hon
    rfl
  slots place id hid honce sofar hsofar m hm hslot := by
    have hown : attending (c.run.runId, id) false (sofar.ofTask (.tour c.number place id)) =
        c.attends id sofar := by
      refine attending_filter fun e he hother => ?_
      by_contra hsome
      obtain ⟨other, hlabel, hother'⟩ := tour_of_attends hplan (hsofar.subset he) hsome
      rw [honce other hother'] at hlabel
      simp [hlabel] at hother
    rw [← hown]
    have hstart : sofar.ofTask (.tour c.number place id) <+:
        c.minutes.ofTask (.tour c.number place id) := hsofar.filter _
    exact ((attendsSlots hid).start hstart).attending hm hslot
  undescribed place id hid reply hreply hfailed m hm := by
    obtain ⟨strand, begun, told, outcome, -, hyields, hstart, -⟩ := c.told hid
    obtain ⟨answer, rest, rfl, hrest⟩ := (c.tour place id).described_conduct.of_yields hyields
    obtain ⟨more, hmore⟩ := hstart
    have hall : (DeviceSuite.minutesOf (.tour c.number place id)
        (.reply RunCall.begun begun :: .reply (.device .environment) answer :: rest)).findSome?
          Minute.described? = some answer := rfl
    rw [← hmore, List.findSome?_append, hreply] at hall
    obtain rfl : reply = answer := Option.some.inj hall
    rw [hrest hfailed] at hmore
    have hmem := hmore ▸ List.mem_append_left more hm
    simp only [minutesOf_cons, minutesOf_nil, Answer.minutes, List.append_nil, List.cons_append,
      List.nil_append, List.mem_cons, List.not_mem_nil, or_false] at hmem
    rcases hmem with rfl | rfl | rfl | rfl <;> rfl
  settled hsome id hon := by
    obtain ⟨r, hr⟩ := Option.isSome_iff_exists.1 hsome
    obtain ⟨crew, hcrew, hreports, -⟩ := c.reported hr
    rw [attends?_now hplan] at hon
    obtain ⟨-, -, hattends⟩ := Option.map_eq_some_iff.1 hon
    obtain ⟨e, hmem, hsome, hleft⟩ := exists_of_attending hattends
    obtain ⟨place, hlabel, hid⟩ := tour_of_attends hplan hmem hsome
    obtain ⟨outcome, hreport⟩ := hreports place id hid
    rw [hlabel, attending_of_reported hid hcrew hreport] at hleft
    cases hleft

end Course

namespace Sample

/-- The plan of the sample with a sink, and a new identifier for every run. -/
def guarded : SessionPlan Unit :=
  { plan described with
    desk := some fun places => .new places (fun _ _ => 0) []
    runId := fun n => .ofList (List.replicate n 'r') }

/-- The identifiers of the plan with a sink are new. -/
theorem fresh_guarded : guarded.Fresh where
  distinct n m h := by
    have hlength := congrArg List.length (String.ofList_injective h)
    simpa using hlength
  unused := by
    rintro _ ⟨⟩ places n id
    rfl

/-- The session with this plan. -/
def guardedSession : Session Unit :=
  { session described with
    plan := guarded
    pool := .empty { (session described).world with
      desk := guarded.desk.map fun make => make Settings.default.artifactConcurrency.toNat } }

/-- The session with a sink can be opened. -/
theorem opened_guarded : guardedSession.Opened := by
  have h : Session.setUp guarded (.given .default) = .ok guardedSession := rfl
  exact .setUp h

/-- The course of a recorded run with this plan. -/
def guardedCourse (deviceIds : List String)
    (accepted : guardedSession.check (filmed deviceIds) = .ok [scenario]) (moves : List Move)
    (allowed : (guardedSession.launch "s" "" (filmed deviceIds) [scenario]).1.allowsAll moves =
      true) : Course Unit :=
  ⟨guardedSession, opened_guarded, "s", "", filmed deviceIds, [scenario], accepted, moves, allowed⟩

end Sample

namespace Course

/-- The first device of the sample attends while its slot goes on. -/
theorem devices_attend_sample :
    ∃ c : Course Unit, c.Attended ∧ c.now.world.attends? (c.run.runId, "d") = some true := by
  refine ⟨Sample.guardedCourse ["d", "e"] rfl [.turn 0, .turn 1] (by decide +kernel),
    devices_attend Sample.fresh_guarded, ?_⟩
  decide +kernel

/-- A device is requested twice: when the first of its tours has ended, the device attends no more,
though the other tour is in the midst of a slot. -/
theorem attendance_taken :
    ∃ c : Course Unit, c.before.plan.Fresh ∧ c.request.deviceIds = ["d", "d"] ∧
      ((c.minutes.ofTask (.tour c.number 1 "d")).getLast?.any fun m => m.call.inSlot) = true ∧
      c.now.world.attends? (c.run.runId, "d") = some false := by
  refine ⟨Sample.guardedCourse ["d", "d"] rfl
    [.turn 0, .turn 1, .turn 2, .clock 1, .turn 1] (by decide +kernel),
    Sample.fresh_guarded, rfl, ?_, ?_⟩ <;> decide +kernel

end Course

end DeviceSuite
