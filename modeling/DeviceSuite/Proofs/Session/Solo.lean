import DeviceSuite.Proofs.Run.Likeness
import DeviceSuite.Proofs.Session.Course
import DeviceSuite.Proofs.Session.Patience
import DeviceSuite.Proofs.Session.Payloads

/-!
# A device among others and alone

The result of a run has the results of the tours that have ended well, in the order of the request:
`Course.collected`. A device that is left to itself comes to the same in a run with others as in a
run of its own, whoever the others are, however long they take and whatever becomes of them:
`Course.isolated`.
-/

namespace DeviceSuite

namespace Session

variable {σ : Type} {s : Session σ}

/-- What a task has come to, if it has ended. -/
def ending? (s : Session σ) (l : Role) : Option (Option RoleResult) :=
  (s.pool.strands.lookup l).bind Strand.result?

/-- A task has come to an end if its strand has. -/
theorem Numbered.ending?_eq_some (hn : s.Numbered) {l : Role} {ending : Option RoleResult} :
    s.ending? l = some ending ↔ (l, .ended ending) ∈ s.pool.strands := by
  constructor
  · intro h
    obtain ⟨strand, hlookup, hended⟩ := Option.bind_eq_some_iff.1 h
    obtain ⟨before, after, hsplit, -⟩ := List.lookup_eq_some_iff.1 hlookup
    cases strand with
    | ended result =>
      obtain rfl := Option.some.inj hended
      exact hsplit ▸ List.mem_append_right _ List.mem_cons_self
    | _ => cases hended
  · intro h
    cases hlookup : s.pool.strands.lookup l with
    | none =>
      have hne := List.lookup_eq_none_iff.1 hlookup _ h
      simp at hne
    | some strand =>
      obtain ⟨before, after, hsplit, -⟩ := List.lookup_eq_some_iff.1 hlookup
      have hmem : (l, strand) ∈ s.pool.strands :=
        hsplit ▸ List.mem_append_right _ List.mem_cons_self
      obtain rfl := hn.strand_inj hmem h
      rw [ending?, hlookup]
      rfl

end Session

namespace Course

open Session

variable {σ : Type} {c solo : Course σ} {id : String} {place : Nat} {stop : Option Nat}
  {r : SuiteResult}

/-- What has come of the tour of the device at a place, if it has ended. -/
def outcome? (c : Course σ) (place : Nat) (id : String) : Option (Option TourResult) :=
  (c.now.ending? (.tour c.number place id)).map RoleResult.tour?

/-- The result of the device at a place, if its tour has ended and neither crashed nor returned an
error. -/
def okay? (c : Course σ) (place : Nat) (id : String) : Option DeviceResult :=
  (c.outcome? place id).join.bind Except.toOption

/-- A tour has come to something if its strand has ended with that. -/
theorem outcome?_eq_some {outcome : Option TourResult} :
    c.outcome? place id = some outcome ↔
      ∃ ending, (.tour c.number place id, .ended ending) ∈ c.now.pool.strands ∧
        RoleResult.tour? ending = outcome := by
  rw [outcome?, Option.map_eq_some_iff]
  exact exists_congr fun ending => and_congr_left' c.opened_now.numbered.ending?_eq_some

/-- What has been reported of a tour has come of it. -/
theorem outcome?_of_reported {crew : Crew} {outcome : Option TourResult}
    (hid : c.request.deviceIds[place]? = some id) (hcrew : c.now.world.crew? c.number = some crew)
    (hmem : (place, outcome) ∈ crew.reports) : c.outcome? place id = some outcome := by
  obtain ⟨id', ending, hended, rfl⟩ := (c.opened_now.filed _ _ hcrew place _).1 hmem
  obtain rfl : id' = id := Option.some.inj
    ((c.kept.tours place id' (List.mem_map_of_mem hended)).symm.trans hid)
  exact outcome?_eq_some.2 ⟨ending, hended, rfl⟩

/-- In a run that has a result all tours have ended, and the result has those of the devices whose
tours have ended well, in the order of the request. -/
theorem collected (hr : c.now.result? c.number = some r) :
    (∀ e ∈ c.request.deviceIds.zipIdx, (c.outcome? e.2 e.1).isSome = true) ∧
      r.deviceResults = c.request.deviceIds.zipIdx.filterMap (fun e => c.okay? e.2 e.1) ∧
      ∀ e ∈ c.request.deviceIds.zipIdx, ∀ d ∈ c.okay? e.2 e.1, d.deviceId = e.1 := by
  obtain ⟨calls, hu⟩ := c.underway
  obtain ⟨-, runId, suiteId, suiteName, startedAt, hobserved⟩ := hu.observed
  obtain ⟨b, ⟨hof, hsound, haccount⟩, -⟩ := hobserved _ (accounting_joined _ _ c.scenarios)
  obtain ⟨hcomplete, hdevices, -⟩ := haccount.result r ((result?_of_books hof).symm.trans hr)
  have hcrew : c.now.world.crew? c.number = some b.crew := hof.2.1
  have hreported : ∀ {place id}, c.request.deviceIds[place]? = some id →
      ∃ outcome, (place, outcome) ∈ b.crew.reports ∧ c.outcome? place id = some outcome := by
    intro place id hid
    obtain ⟨⟨place', outcome⟩, hmem, rfl⟩ :=
      List.mem_map.1 (hsound.mem_reports hcomplete (List.getElem?_eq_some_iff.1 hid).1)
    exact ⟨outcome, hmem, outcome?_of_reported hid hcrew hmem⟩
  have houtcomes : b.crew.outcomes =
      c.request.deviceIds.zipIdx.map fun e => (c.outcome? e.2 e.1).join := by
    apply List.ext_getElem?
    intro place
    rw [List.getElem?_map, List.getElem?_zipIdx, Nat.zero_add, Option.map_map]
    cases hid : c.request.deviceIds[place]? with
    | none =>
      have hle : b.crew.size ≤ place := hsound.size.trans_le (List.getElem?_eq_none_iff.1 hid)
      simp [Crew.outcomes, hle]
    | some id =>
      obtain ⟨outcome, hmem, houtcome⟩ := hreported hid
      have hlt : place < b.crew.size :=
        (List.getElem?_eq_some_iff.1 hid).1.trans_eq hsound.size.symm
      simp [Crew.outcomes, hlt, hsound.lookup_reports hmem, houtcome]
  refine ⟨?_, ?_, ?_⟩
  · rintro ⟨id, place⟩ he
    obtain ⟨outcome, -, houtcome⟩ := hreported (List.mem_zipIdx_iff_getElem?.1 he)
    exact houtcome ▸ rfl
  · rw [hdevices, okayed, houtcomes, List.filterMap_map]
    rfl
  · rintro ⟨id, place⟩ he d hd
    have hid := List.mem_zipIdx_iff_getElem?.1 he
    obtain ⟨outcome, hmem, houtcome⟩ := hreported hid
    have hok : outcome = some (.ok d) := by
      have hd : (c.outcome? place id).join.bind Except.toOption = some d := hd
      rw [houtcome] at hd
      rcases outcome with _ | (e | d') <;> cases hd
      rfl
    have hdevice := (haccount.reports place d (hok ▸ hmem)).1
    exact Option.some.inj (hdevice.symm.trans hid)

/-- The result of a run names the devices whose tours have ended well, in the order of the
request. -/
theorem collected_ids (hr : c.now.result? c.number = some r) :
    r.deviceResults.map DeviceResult.deviceId =
      (c.request.deviceIds.zipIdx.filter fun e => (c.okay? e.2 e.1).isSome).map (·.1) := by
  obtain ⟨-, hdevices, hids⟩ := collected hr
  rw [hdevices, List.map_filterMap, ← List.filterMap_eq_map, List.filterMap_filter]
  apply List.filterMap_congr
  intro e he
  cases hokay : c.okay? e.2 e.1 with
  | none => rfl
  | some d => simp [hids e he d hokay]

/-- Of a device that is requested once, the result of a run has what its tour has come to. -/
theorem filter_collected (hnodup : c.request.deviceIds.Nodup)
    (hid : c.request.deviceIds[place]? = some id) (hr : c.now.result? c.number = some r) :
    (r.deviceResults.filter fun d => d.deviceId = id) = (c.okay? place id).toList := by
  obtain ⟨-, hdevices, hids⟩ := collected hr
  have hmem : (id, place) ∈ c.request.deviceIds.zipIdx := List.mem_zipIdx_iff_getElem?.2 hid
  cases hokay : c.okay? place id with
  | some d =>
    have hnames : (r.deviceResults.map DeviceResult.deviceId).Nodup := by
      rw [collected_ids hr]
      have hsub := (List.filter_sublist (p := fun e : String × Nat => (c.okay? e.2 e.1).isSome)
        (l := c.request.deviceIds.zipIdx)).map Prod.fst
      rw [List.zipIdx_map_fst] at hsub
      exact hnodup.sublist hsub
    obtain rfl : d.deviceId = id := hids _ hmem d hokay
    exact filter_key_eq hnames (hdevices ▸ List.mem_filterMap.2 ⟨_, hmem, hokay⟩)
  | none =>
    apply List.filter_eq_nil_iff.2
    intro d hd
    rw [hdevices] at hd
    obtain ⟨⟨id', place'⟩, hmem', hokay'⟩ := List.mem_filterMap.1 hd
    have hid' := List.mem_zipIdx_iff_getElem?.1 hmem'
    have hdevice : d.deviceId = id' := hids _ hmem' d hokay'
    simp only [decide_eq_true_eq]
    rintro rfl
    obtain rfl : place = place' := (List.getElem?_inj (List.getElem?_eq_some_iff.1 hid).1 hnodup).1
      (hid.trans (hdevice ▸ hid'.symm))
    rw [hdevice] at hokay
    cases hokay.symm.trans hokay'

/-! ## A device that is left to itself -/

/-- In a course a device is left to itself: saves and recordings take no time, no device stops a run,
the tours that had the device before have ended, and everything is done in its time, the stop so
long after the launch, if there is one. -/
structure Secludes (c : Course σ) (id : String) (stop : Option Nat) : Prop where
  swift : c.before.plan.Swift
  aloof : c.before.plan.service.Aloof
  free : ∀ m p strand, (.tour m p id, strand) ∈ c.before.pool.strands →
    strand.result?.isSome = true
  moves : c.start.Respects c.number id (stop.map (c.before.now + ·)) c.moves

/-- What a tour sees when its run is launched. -/
def dawn (c : Course σ) (id : String) (stop : Option Nat) : Moment (Option σ) :=
  ⟨c.before.now, stop.map (c.before.now + ·), c.before.world.devices.get? id⟩

/-- What a tour may come to on its own. -/
def MayCome (c : Course σ) (place : Nat) (id : String) (stop : Option Nat)
    (outcome : Option TourResult) : Prop :=
  ∃ m, (c.tour place id).conduct.Comes
    (c.before.plan.service.seclusion c.before.plan.recorder) (c.dawn id stop) outcome m

/-- A tour comes to what its conduct comes to, once its run has begun. -/
theorem mayCome_of_comes {r : Option RoleResult}
    (h : (c.before.tour c.run c.scenarios place id).ComesTo
      (c.before.plan.service.seclusion c.before.plan.recorder) (c.dawn id stop) r) :
    ∃ outcome, r = outcome.map .tour ∧ c.MayCome place id stop outcome := by
  obtain ⟨m, reply, _, ⟨rfl, -⟩, hcomes⟩ := h
  obtain ⟨outcome, m₁, hconduct, hr⟩ := Task.comes_bind.1 hcomes
  refine ⟨outcome, ?_, m₁, hconduct⟩
  cases outcome with
  | none => exact hr.1
  | some result => exact hr.1

/-- A run that is launched waits for its stop, or is to be stopped at once. -/
theorem awaits_start (c : Course σ) (stop : Option Nat) :
    c.start.world.Awaits c.number (stop.map (c.before.now + ·)) := by
  have hrun : c.start.world.registry.run? c.number = some c.run := run?_launch _ _ _ _ _
  have hnow : c.start.world.now = c.before.now := now_launch _ _ _ _ _
  cases stop with
  | none => exact .inl ⟨c.run, hrun, rfl⟩
  | some k =>
    by_cases hk : k = 0
    · exact .inr ⟨by simp [hk, hnow], c.run, hrun, rfl⟩
    · have hlater : ¬ c.before.now + k ≤ c.start.world.now := by omega
      exact .inl ⟨c.run, hrun, (decide_eq_false hlater).symm⟩

/-- The tours of the device are that of the run, and those that had it before. -/
theorem tour_of_mem_start (hnodup : c.request.deviceIds.Nodup)
    (hid : c.request.deviceIds[place]? = some id) {m p : Nat}
    {strand : Strand RunCall.Reply RoleResult}
    (he : (.tour m p id, strand) ∈ c.start.pool.strands) :
    m = c.number ∧ p = place ∨ (.tour m p id, strand) ∈ c.before.pool.strands := by
  rw [start, strands_launch] at he
  rcases List.mem_append.1 he with hold | hnew
  · exact .inr hold
  · obtain heq | ⟨p', id', hid', heq⟩ := mem_newStrands _ hnew
    · cases heq
    · cases heq
      exact .inl ⟨rfl, (List.getElem?_inj (List.getElem?_eq_some_iff.1 hid').1 hnodup).1
        (hid'.trans hid.symm)⟩

/-- A run that is launched leaves the device to itself. -/
theorem Secludes.launch (h : c.Secludes id stop) (hnodup : c.request.deviceIds.Nodup)
    (hid : c.request.deviceIds[place]? = some id) :
    c.start.Secludes c.number place id (stop.map (c.before.now + ·)) fun r =>
      ∃ outcome, r = outcome.map .tour ∧ c.MayCome place id stop outcome := by
  have hstrands : c.start.pool.strands =
      c.before.pool.strands ++ c.before.newStrands c.run c.scenarios := strands_launch _ _ _ _ _
  have hseen : c.start.world.seen (stop.map (c.before.now + ·)) id = c.dawn id stop := by
    rw [start, world_launch]
    rfl
  constructor
  case opened => exact c.opened_start
  case swift => exact h.swift
  case aloof => exact h.aloof
  case awaits => exact c.awaits_start stop
  case lead =>
    rw [hstrands, List.map_append]
    exact List.mem_append_right _ List.mem_cons_self
  case begun => exact .inr ⟨[], c.run, dormant_launch c.opened.numbered c.suiteId c.suiteName⟩
  case alone =>
    intro m p strand he
    exact (tour_of_mem_start hnodup hid he).imp_right (h.free m p strand)
  case tour =>
    have hmem : (_, c.before.tour c.run c.scenarios place id) ∈
        c.before.newStrands c.run c.scenarios := tour_mem_newStrands _ _ hid
    refine ⟨c.before.tour c.run c.scenarios place id, hstrands ▸ List.mem_append_right _ hmem,
      ⟨rfl, fun _ => ?_⟩, fun r hr => ?_⟩
    · exact Task.only_bind.2 (((Tour.only_conduct _).weaken fun _ h => ⟨h.1, h.2.1⟩).mono
        fun _ _ => trivial)
    · rw [hseen] at hr
      exact mayCome_of_comes hr

/-- The tour of a device that is left to itself comes to what it may come to on its own. -/
theorem Secludes.mayCome (h : c.Secludes id stop) (hnodup : c.request.deviceIds.Nodup)
    (hid : c.request.deviceIds[place]? = some id) {outcome : Option TourResult}
    (houtcome : c.outcome? place id = some outcome) : c.MayCome place id stop outcome := by
  obtain ⟨ending, hended, rfl⟩ := outcome?_eq_some.1 houtcome
  obtain ⟨outcome, rfl, hcomes⟩ := ((h.launch hnodup hid).performs h.moves).ended hended
  cases outcome <;> exact hcomes

/-- A course goes on as another one. -/
def Continues (c c' : Course σ) : Prop :=
  ∃ more allowed, c' = { c with moves := c.moves ++ more, allowed := allowed }

/-- A run in which a device is left to itself can be brought to its end. -/
theorem Secludes.exists_result (h : c.Secludes id stop) (hnodup : c.request.deviceIds.Nodup)
    (hid : c.request.deviceIds[place]? = some id) :
    ∃ c', c.Continues c' ∧ c'.Secludes id stop ∧ (c'.now.result? c'.number).isSome = true := by
  have hlaunched := h.launch hnodup hid
  obtain ⟨moves, hmoves, hread, hpast⟩ := (hlaunched.performs h.moves).exists_stopped
  have hmoves := respects_append.2 ⟨h.moves, hmoves⟩
  let stopped : Course σ := { c with moves := c.moves ++ moves, allowed := hmoves.allowed }
  have hsecluded : stopped.now.Secludes c.number place id _ _ := hlaunched.performs hmoves
  have hsame : (c.start.performs c.moves).performs moves = stopped.now :=
    (performs_append _ _ _).symm
  rw [hsame] at hread hpast
  obtain ⟨more, hmore, hwait⟩ := hsecluded.wait_respects hread hpast
  have hmore := respects_append.2 ⟨hmoves, hmore⟩
  rw [List.append_assoc] at hmore
  obtain ⟨calls, hu⟩ := stopped.underway
  obtain ⟨-, r, -, hr⟩ := hu.ends hsecluded.swift.queue
  have hnow : c.start.performs (c.moves ++ (moves ++ more)) = stopped.now.wait c.number := by
    rw [← List.append_assoc, performs_append]
    exact hwait
  refine ⟨_, ⟨moves ++ more, hmore.allowed, rfl⟩, ⟨h.swift, h.aloof, h.free, hmore⟩, ?_⟩
  exact Option.isSome_iff_exists.2 ⟨r, (congrArg (Session.result? · c.number) hnow).trans hr⟩

/-! ## Among others and alone -/

/-- The same work for one of the devices alone, which is in the same state and does the same when as
much time has passed. -/
structure Alone (c solo : Course σ) (id : String) : Prop where
  request : solo.request = { c.request with deviceIds := [id] }
  scenarios : solo.scenarios = c.scenarios
  settings : solo.before.settings = c.before.settings
  desk : solo.before.world.desk.isSome = c.before.world.desk.isSome
  service : Service.InStep c.before.now solo.before.now c.before.plan.service
    solo.before.plan.service
  device : solo.before.world.devices.get? id = c.before.world.devices.get? id

/-- The tours of the device are to do the same. -/
theorem Alone.like (h : c.Alone solo id) (place place' : Nat) :
    (c.tour place id).Like (solo.tour place' id) where
  settings := h.settings.symm
  keepsArtifacts := h.desk.symm
  repeats := (congrArg Request.repeatCount h.request).symm
  slots := (congrArg Request.slotsPerDevice h.request).symm
  interval := (congrArg Request.scenarioInterval h.request).symm
  filmed := (congrArg Request.recordVideo h.request).symm
  scenarios := h.scenarios.symm
  deviceId := rfl

/-- The tours of the device come to the same. -/
theorem Alone.gist_eq (h : c.Alone solo id) (ha : c.before.plan.service.Aloof)
    (ha' : solo.before.plan.service.Aloof) {videos : Bool}
    (hvideos : videos = true → c.before.plan.recorder.Agrees solo.before.plan.recorder)
    {place' : Nat} {outcome outcome' : Option TourResult}
    (hcome : c.MayCome place id stop outcome) (hcome' : solo.MayCome place' id stop outcome') :
    outcome.map (TourResult.gist videos) = outcome'.map (TourResult.gist videos) := by
  obtain ⟨m, hcomes⟩ := hcome
  obtain ⟨m', hcomes'⟩ := hcome'
  have hmeets : (c.dawn id stop).Meets c.before.now solo.before.now (solo.dawn id stop) :=
    ⟨⟨0, rfl, rfl⟩, ⟨stop, rfl, rfl⟩, h.device.symm⟩
  obtain ⟨-, hrel⟩ := Tour.alike_conduct (h.service.secludes ha ha' hvideos) (h.like place place')
    _ _ _ _ _ _ hmeets hcomes hcomes'
  cases hrel with
  | none => rfl
  | some hgist => exact congrArg some hgist

/-- The gist of a result is that of what a tour comes to. -/
theorem toOption_gist (videos : Bool) (outcome : Option TourResult) :
    (outcome.bind Except.toOption).map (DeviceResult.gist videos) =
      (outcome.map (TourResult.gist videos)).bind Except.toOption := by
  rcases outcome with _ | (e | d) <;> rfl

end Course

namespace Sample

/-- A device that takes its time for each call, and describes itself as told. -/
abbrev Slow := Nat × Except DeviceError Environment

/-- Slow devices do everything, and see nothing. -/
def slow : Service DeviceCall.Reply Slow where
  accept _ state _ := ⟨state, state.1, []⟩
  answer _ state
    | .environment => (state, some state.2)
    | .appInfo => (state, some (.ok none))
    | .perform _ => (state, some (.ok .ok))
    | .locate _ => (state, some (.ok .absent))
    | .screenshot => (state, some (.ok []))

/-- Two slow devices with the scenario, one of which cannot describe itself. -/
def slowPlan : SessionPlan Slow where
  service := slow
  devices := [("d", 3, described), ("e", 5, offline)]
  scenarios := ⟨.ofList [("g", scenario)], .empty⟩
  suites := .empty
  archive := .empty
  readFault := none
  listFault := none
  desk := none
  recorder := .idle
  runId _ := "r"
  suiteId _ := "s"

/-- A slow device stops no run. -/
theorem aloof_slow : slow.Aloof := fun _ _ _ => List.not_mem_nil

/-- The helpers of the plan take no time. -/
theorem swift_slowPlan : slowPlan.Swift :=
  ⟨(fun _ h => by cases h), (fun _ h => by cases h), fun _ => rfl, fun _ => rfl⟩

/-- The session of slow devices before its first run. -/
def slowSession : Session Slow where
  plan := slowPlan
  settings := .default
  scenarios := slowPlan.scenarios
  connected := ["d", "e"]
  handles := []
  pool := .empty
    { now := 0
      registry := .empty
      crews := []
      devices := .ofList slowPlan.devices
      desk := none
      recorder := .idle
      archive := .empty
      events := []
      snapshots := [] }

/-- The session of slow devices can be opened. -/
theorem opened_slow : slowSession.Opened := by
  have h : Session.setUp slowPlan (.given .default) = .ok slowSession := rfl
  exact .setUp h

/-- The course of a run of slow devices. -/
def slowCourse (deviceIds : List String)
    (accepted : slowSession.check (request deviceIds) = .ok [scenario]) (moves : List Move)
    (allowed : (slowSession.launch "s" "" (request deviceIds) [scenario]).1.allowsAll moves = true) :
    Course Slow :=
  ⟨slowSession, opened_slow, "s", "", request deviceIds, [scenario], accepted, moves, allowed⟩

/-- All runs of one slow device do the same for it. -/
theorem alone_slowCourse {deviceIds : List String} {id : String} {moves moves' : List Move}
    {accepted : slowSession.check (request deviceIds) = .ok [scenario]}
    {accepted' : slowSession.check (request [id]) = .ok [scenario]}
    {allowed : (slowSession.launch "s" "" (request deviceIds) [scenario]).1.allowsAll moves = true}
    {allowed' : (slowSession.launch "s" "" (request [id]) [scenario]).1.allowsAll moves' = true} :
    (slowCourse deviceIds accepted moves allowed).Alone
      (slowCourse [id] accepted' moves' allowed') id :=
  ⟨rfl, rfl, rfl, rfl, .refl 0 slow, rfl⟩

/-- A run of both devices, which is stopped at the fourth instant. -/
def both : Course Slow :=
  slowCourse ["d", "e"] rfl
    [.turn 0, .turn 1, .turn 2, .clock 3, .turn 1, .clock 4, .stopRun 0, .clock 5, .turn 2, .clock 6,
      .turn 1, .turn 0] (by decide +kernel)

/-- A run of one of them, which is stopped at the same instant. -/
def single : Course Slow :=
  slowCourse ["d"] rfl
    [.turn 0, .turn 1, .clock 3, .turn 1, .clock 4, .stopRun 0, .clock 6, .turn 1, .turn 0]
    (by decide +kernel)

/-- In the run of both the first device is left to itself. -/
theorem secludes_both : both.Secludes "d" (some 4) :=
  ⟨swift_slowPlan, aloof_slow, fun _ _ _ h => absurd h List.not_mem_nil,
    ⟨both.allowed, by decide +kernel, by decide⟩⟩

/-- In the run of one the device is left to itself. -/
theorem secludes_single : single.Secludes "d" (some 4) :=
  ⟨swift_slowPlan, aloof_slow, fun _ _ _ h => absurd h List.not_mem_nil,
    ⟨single.allowed, by decide +kernel, by decide⟩⟩

end Sample

namespace Course

open Session

variable {σ : Type} {c solo : Course σ} {id : String} {stop : Option Nat}

/-- A device comes to the same among others and alone. -/
theorem isolated (hnodup : c.request.deviceIds.Nodup) (hid : id ∈ c.request.deviceIds)
    (hc : c.Secludes id stop) (hsolo : solo.Secludes id stop) (h : c.Alone solo id) {videos : Bool}
    (hvideos : videos = true → c.before.plan.recorder.Agrees solo.before.plan.recorder) :
    (∀ r r', c.now.result? c.number = some r → solo.now.result? solo.number = some r' →
      (r.deviceResults.filter fun d => d.deviceId = id).map (DeviceResult.gist videos) =
        r'.deviceResults.map (DeviceResult.gist videos)) ∧
    (∀ place outcome outcome', c.request.deviceIds[place]? = some id →
      c.outcome? place id = some outcome → solo.outcome? 0 id = some outcome' →
        outcome.map (TourResult.gist videos) = outcome'.map (TourResult.gist videos)) ∧
    (∀ r, c.now.result? c.number = some r →
      (∀ e ∈ c.request.deviceIds.zipIdx, (c.outcome? e.2 e.1).isSome = true) ∧
        r.deviceResults.map DeviceResult.deviceId =
          (c.request.deviceIds.zipIdx.filter fun e => (c.okay? e.2 e.1).isSome).map (·.1)) ∧
    ∃ c', c.Continues c' ∧ c'.Secludes id stop ∧ (c'.now.result? c'.number).isSome = true := by
  have hids : solo.request.deviceIds = [id] := congrArg Request.deviceIds h.request
  have hnodup' : solo.request.deviceIds.Nodup := hids ▸ List.nodup_singleton id
  have hid' : solo.request.deviceIds[0]? = some id := hids ▸ rfl
  have houtcomes : ∀ place outcome outcome', c.request.deviceIds[place]? = some id →
      c.outcome? place id = some outcome → solo.outcome? 0 id = some outcome' →
        outcome.map (TourResult.gist videos) = outcome'.map (TourResult.gist videos) :=
    fun place outcome outcome' hplace hcame hcame' => h.gist_eq hc.aloof hsolo.aloof hvideos
      (hc.mayCome hnodup hplace hcame) (hsolo.mayCome hnodup' hid' hcame')
  obtain ⟨place, hplace⟩ := List.getElem?_of_mem hid
  refine ⟨fun r r' hr hr' => ?_, houtcomes, fun r hr => ⟨(collected hr).1, collected_ids hr⟩,
    hc.exists_result hnodup hplace⟩
  have hmem : (id, place) ∈ c.request.deviceIds.zipIdx := List.mem_zipIdx_iff_getElem?.2 hplace
  have hmem' : (id, 0) ∈ solo.request.deviceIds.zipIdx := List.mem_zipIdx_iff_getElem?.2 hid'
  obtain ⟨outcome, hcame⟩ := Option.isSome_iff_exists.1 ((collected hr).1 _ hmem)
  obtain ⟨hended', hdevices', -⟩ := collected hr'
  obtain ⟨outcome', hcame'⟩ := Option.isSome_iff_exists.1 (hended' _ hmem')
  have hall : r'.deviceResults = (solo.okay? 0 id).toList := by
    rw [hdevices', hids]
    cases hokay : solo.okay? 0 id <;> simp [hokay]
  rw [filter_collected hnodup hplace hr, hall, okay?, okay?, hcame, hcame', ← Option.toList_map,
    ← Option.toList_map]
  simp only [Option.join_some, toOption_gist, houtcomes place outcome outcome' hplace hcame hcame']

/-- A slow device comes to the same whether the other one, which fails, is there or not. -/
theorem isolated_sample :
    Sample.both.request.deviceIds.Nodup ∧ (Sample.both.now.result? 0).isSome = true ∧
      (Sample.single.now.result? 0).isSome = true ∧
      ∀ r r', Sample.both.now.result? 0 = some r → Sample.single.now.result? 0 = some r' →
        (r.deviceResults.filter fun d => d.deviceId = "d").map (DeviceResult.gist true) =
          r'.deviceResults.map (DeviceResult.gist true) := by
  have hagrees : Recorder.idle.Agrees Recorder.idle :=
    ⟨⟨rfl, rfl⟩, ⟨rfl, rfl⟩, fun _ _ _ _ _ => rfl⟩
  exact ⟨by decide, by decide +kernel, by decide +kernel,
    (isolated (by decide) (by decide) Sample.secludes_both Sample.secludes_single
      Sample.alone_slowCourse fun _ => hagrees).1⟩

end Course

end DeviceSuite
