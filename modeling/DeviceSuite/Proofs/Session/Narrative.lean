import DeviceSuite.Proofs.Session.Decision

/-!
# The narrative of a run

In every history of a session, what is told of a run makes a story: it opens with the first event,
each device that ends well has told a word of the grammar, one that could not describe itself
nothing, and one that crashed the beginning of a word. The last event tells how the run has ended;
it is told once, when the run is not listed any more, and a run that is given time comes to it.
-/

namespace DeviceSuite

open Calls

/-- The events that are about a device. -/
def Event.about (deviceId : String) (events : List Event) : List Event :=
  events.filter fun e => e.deviceId? = some deviceId

namespace Calls

/-- The calls of the tasks of a run. -/
def ofRun (n : Nat) (calls : Calls) : Calls := calls.filter fun e => e.label.run = n

/-- The calls of a task. -/
def ofTask (l : Role) (calls : Calls) : Calls := calls.filter fun e => e.label = l

/-- What only the calls of one task say is said by them. -/
theorem filterMap_ofTask {α : Type} {f : RunCall → Option α} {l : Role} {own : Calls}
    (h : ∀ e ∈ own, e.label ≠ l → f e.call = none) :
    own.filterMap (fun e => f e.call) = (own.ofTask l).filterMap fun e => f e.call := by
  rw [ofTask, List.filterMap_filter]
  apply List.filterMap_congr
  intro e he
  by_cases hl : e.label = l
  · simp [hl]
  · simp [hl, h e he hl]

/-- What a task tells about its device is all that is told about it. -/
theorem about_tellings {id : String} {l : Role} {own : Calls}
    (hself : ∀ e ∈ own, e.label = l → ∀ event ∈ e.call.event?, event.deviceId? = some id)
    (hother : ∀ e ∈ own, e.label ≠ l → ∀ event ∈ e.call.event?, event.deviceId? ≠ some id) :
    Event.about id (tellings own) = tellings (own.ofTask l) := by
  let said (c : RunCall) : Option Event := c.event?.filter fun event => event.deviceId? = some id
  have hnone : ∀ e ∈ own, e.label ≠ l → said e.call = none := by
    intro e he hl
    rw [Option.filter_eq_none_iff]
    simpa using hother e he hl
  have hsome : ∀ e ∈ own.ofTask l, said e.call = e.call.event? := by
    intro e he
    obtain ⟨hmem, hl⟩ := List.mem_filter.1 he
    simp only [said]
    cases hevent : e.call.event? with
    | none => rfl
    | some event => simp [hself e hmem (of_decide_eq_true hl) event hevent]
  rw [Event.about, tellings, tellings, List.filter_filterMap]
  exact (filterMap_ofTask hnone).trans (List.filterMap_congr hsome)

end Calls

/-- What is told about a device by the end of its tour. -/
def Spoken : Option TourResult → List Event → Prop
  | some (.ok d), events => events.map Event.topic ∈ Grammar.tour.matches' ∧
    events.filterMap Event.slotStart? = d.ran.map fun r => (r.scenarioId, r.iteration)
  | some (.error _), events => events = []
  | none, events => ∃ rest, rest ≠ [] ∧ events.map Event.topic ++ rest ∈ Grammar.tour.matches'

/-- A tour that has told what fits its outcome has spoken as it should. -/
theorem TourTold.spoken {runId id : String} {outcome : Option TourResult} {events : List Event}
    (h : TourTold runId id outcome events) : Spoken outcome events := by
  rcases outcome with _ | (e | d)
  · exact h
  · exact h
  · exact ⟨h.2.2, h.2.1.begun⟩

namespace RunState

variable {run state : RunState}

/-- Runs of the same title have the same identifier. -/
theorem runId_of_title (h : state.title = run.title) : state.runId = run.runId :=
  show state.title.runId = run.title.runId from congrArg RunState.runId h

/-- Runs of the same title have the same first event. -/
theorem opening_of_title (h : state.title = run.title) (now : Instant) :
    state.opening now = run.opening now :=
  show state.title.opening now = run.title.opening now from congrArg (opening · now) h

end RunState

/-- What is said of a run by its lead is said of the run as it is now. -/
theorem Led.congr {run state : RunState} {r : SuiteResult} {own : Calls}
    {joined : Begun RunCall Role} (h : Led run r own joined) (htitle : state.title = run.title) :
    Led state r own joined := by
  refine ⟨h.call, h.status, ?_⟩
  rw [RunState.runId_of_title htitle]
  simp only [RunState.opening_of_title htitle]
  exact h.calls

namespace Books

variable {run : RunState} {n : Nat} {b : Books}

/-- In a run that requests every device once, what is told about a device is told by its tour. -/
theorem Chronicled.about (h : b.Chronicled run n) (hnodup : run.request.deviceIds.Nodup)
    {place : Nat} {id : String} (hid : run.request.deviceIds[place]? = some id) :
    Event.about id (tellings b.calls) = tellings (b.own (.tour n place id)) := by
  apply Calls.about_tellings
  · intro e he hl event hevent
    have hvoiced := h.voiced e he
    rw [Voiced, hl] at hvoiced
    exact (hvoiced.2.2.2 event hevent).2
  · intro e he hl event hevent hdevice
    have hvoiced := h.voiced e he
    rw [Voiced] at hvoiced
    split at hvoiced
    · rw [(hvoiced.2 event hevent).2] at hdevice
      cases hdevice
    · next m place' id' hlabel =>
      obtain ⟨rfl, hid', -, hconcerns⟩ := hvoiced
      rw [(hconcerns event hevent).2] at hdevice
      obtain rfl := Option.some.inj hdevice
      have hplace := (List.getElem?_inj (List.getElem?_eq_some_iff.1 hid).1 hnodup).1
        (hid.trans hid'.symm)
      exact hl (hplace ▸ hlabel)

/-- What is told of a run names it. -/
theorem Chronicled.named (h : b.Chronicled run n) :
    ∀ event ∈ tellings b.calls, event.runId = run.runId := by
  intro event hevent
  obtain ⟨e, he, hevent⟩ := mem_tellings.1 hevent
  have hvoiced := h.voiced e he
  rw [Voiced] at hvoiced
  split at hvoiced
  · exact (hvoiced.2 event hevent).1
  · exact (hvoiced.2.2.2 event hevent).1

/-- The story of a run with a result, from its first event to its last. -/
theorem Chronicled.closing (h : b.Chronicled run n) {r : SuiteResult}
    {joined : Begun RunCall Role} (hled : Led run r (b.own (.lead n)) joined)
    (hopening : tellings b.calls = [] ∨ ∃ now later, tellings b.calls = run.opening now :: later) :
    ∃ now middle, tellings b.calls =
        run.opening now :: (middle ++ [.ending run.runId joined.stopped r]) ∧
      ∀ event ∈ middle, event.isTerminal = false := by
  obtain ⟨_, htellings⟩ := hled.tellings
  have hending : Event.ending run.runId joined.stopped r ∈ tellings (b.own (.lead n)) := by
    simp [htellings]
  obtain ⟨e, he, hevent⟩ := mem_tellings.1 hending
  obtain ⟨earlier, later, htold⟩ :=
    List.append_of_mem (mem_tellings.2 ⟨e, (List.mem_filter.1 he).1, hevent⟩)
  obtain ⟨rfl, -⟩ := h.last _ _ _ htold (Event.isTerminal_ending ..)
  rcases hopening with hnone | ⟨now, told, hopening⟩
  · simp [htold] at hnone
  · cases earlier with
    | nil =>
      rw [hopening] at htold
      have hlast := Event.isTerminal_ending run.runId joined.stopped r
      rw [← (List.cons.inj htold).1] at hlast
      cases hlast
    | cons event middle =>
      rw [hopening] at htold
      obtain ⟨rfl, rfl⟩ := List.cons.inj htold
      refine ⟨now, middle, hopening, fun event hevent => ?_⟩
      cases hterminal : event.isTerminal with
      | false => rfl
      | true =>
        obtain ⟨before, after, rfl⟩ := List.append_of_mem hevent
        have hsplit : tellings b.calls = (run.opening now :: before) ++
            event :: (after ++ [.ending run.runId joined.stopped r]) := by
          simp [hopening]
        have hnil := (h.last _ _ _ hsplit hterminal).1
        simp at hnil

end Books

/-- The call that tells a lead of its tours is one of its calls. -/
theorem Led.joined_mem {run : RunState} {r : SuiteResult} {own : Calls} {joined : Begun RunCall Role}
    (h : Led run r own joined) : joined ∈ own := by
  obtain ⟨now, opening, settling, closing, rfl, -⟩ := h.calls
  exact List.mem_append_right _ List.mem_cons_self

namespace Session

variable {σ : Type} {s : Session σ} {calls : Calls} {n : Nat} {request : Request}
  {scenarios : List Graph} {state : RunState} {r : SuiteResult}

/-- The end of a run with a result: all tours have ended, and the last event says whether the flag
was raised when the lead learnt so. -/
structure Closes (s : Session σ) (calls : Calls) (n : Nat) (request : Request)
    (scenarios : List Graph) (state : RunState) (r : SuiteResult) (joined : Begun RunCall Role) :
    Prop where
  ended : ∃ crew, s.world.crew? n = some crew ∧
    ∀ place < request.deviceIds.length, place ∈ crew.reports.map (·.1)
  led : Led state r (calls.ofTask (.lead n)) joined
  told : ∃ now middle, tellings (calls.ofRun n) =
      state.opening now :: (middle ++ [.ending state.runId joined.stopped r]) ∧
    ∀ event ∈ middle, event.isTerminal = false
  /-- The lead has learnt so in one of its turns, and `joined` has found the flag as it was then. -/
  learnt : ∃ s' before i more, Underway s' before n request scenarios ∧
    s'.Learns n i request.deviceIds.length joined ∧
    calls = before ++ (s'.callsOfTurn i ++ more) ∧ History (s'.takeTurn i) more s
  /-- A stop that is requested before all tours have ended is noticed. -/
  noticed : ∀ s' before more crew, Underway s' before n request scenarios → History s' more s →
    calls = before ++ more → s'.world.isStopped n = true → s'.world.crew? n = some crew →
    crew.isComplete = false → joined.stopped = true

/-- What has been told of a run under way. -/
structure Narrates (s : Session σ) (calls : Calls) (n : Nat) (request : Request)
    (scenarios : List Graph) (state : RunState) : Prop where
  found : s.world.registry.run? n = some state
  requested : state.request = request
  logged : ∃ before, s.world.events.map Prod.snd = before ++ tellings calls
  named : ∀ event ∈ tellings (calls.ofRun n), event.runId = state.runId
  first : tellings (calls.ofRun n) = [] ∨
    ∃ now later, tellings (calls.ofRun n) = state.opening now :: later
  last : ∀ earlier event later, tellings (calls.ofRun n) = earlier ++ event :: later →
    event.isTerminal = true → later = [] ∧ ∀ entry ∈ s.world.registry.active, entry.2 ≠ n
  devices : ∀ crew place id outcome, s.world.crew? n = some crew →
    request.deviceIds[place]? = some id → (place, outcome) ∈ crew.reports →
    Spoken outcome (Event.about id (tellings (calls.ofRun n)))
  closes : ∀ r, s.result? n = some r → ∃ joined, s.Closes calls n request scenarios state r joined

/-- The log of a session ends with the events of a run under way and those told beside it. -/
theorem Underway.logged (hu : Underway s calls n request scenarios) :
    s.Prompt ∧ ∃ before, s.world.events.map Prod.snd = before ++ tellings calls := by
  induction hu with
  | launch suiteId suiteName ho hcheck =>
    exact ⟨(ho.prompt.next (.launch suiteId suiteName hcheck)).1, _, (List.append_nil _).symm⟩
  | next _ hnext ih =>
    obtain ⟨hprompt, before, hlog⟩ := ih
    obtain ⟨hprompt', hlog'⟩ := hprompt.next hnext
    exact ⟨hprompt', before, by rw [hlog', hlog, tellings_append, List.append_assoc]⟩

/-- The chronicle of a run under way, with its first event. -/
theorem Underway.chronicled (hu : Underway s calls n request scenarios) :
    ∃ (run : RunState) (b : Books), run.request = request ∧ b.Of n (s.world, calls) ∧
      b.Sound run ∧ b.Chronicled run n ∧
      (tellings b.calls = [] ∨ ∃ now later, tellings b.calls = run.opening now :: later) := by
  obtain ⟨runId, suiteId, suiteName, startedAt, ⟨-, hobserved⟩, hopening⟩ := hu.opens
  obtain ⟨b, ⟨hof, hsound, hchronicled⟩, -⟩ := hobserved _ (chronicle_joined _ n scenarios)
  refine ⟨_, b, rfl, hof, hsound, hchronicled, ?_⟩
  rw [hof.2.2.1]
  rcases hopening with hdormant | hawake
  · left
    rw [hdormant.calls]
    rfl
  · exact .inr hawake

/-- The call with which a lead waits for the tours goes on in a turn that decides the run. -/
theorem Underway.learns (hu : Underway s calls n request scenarios) {joined : Begun RunCall Role}
    (hmem : joined ∈ calls) (hlead : joined.label = .lead n) (htours : joined.call = .tours) :
    ∃ s' before i more, Underway s' before n request scenarios ∧
      s'.Learns n i request.deviceIds.length joined ∧
      calls = before ++ (s'.callsOfTurn i ++ more) ∧ History (s'.takeTurn i) more s := by
  obtain ⟨s', before, i, more, hu', able, hjoined, hsplit, hhistory⟩ := hu.exists_turn hmem
  obtain ⟨l, strand, hi, -⟩ := takeTurn_spec able
  obtain rfl : l = .lead n := (label_of_mem_callsOfTurn hi able _ hjoined).symm.trans hlead
  have hrun : joined.label.run = n := by rw [hlead, Role.run]
  have hnext : Next s' (s'.callsOfTurn i) (s'.takeTurn i) := .turn able
  have hafter := hu'.next hnext
  have hunmoved := hu'.unmoved_takeTurn able hi
  refine ⟨s', before, i, more, hu', ⟨able, ⟨strand, hi⟩, ?_, ⟨hjoined, htours⟩, ?_⟩, hsplit, hhistory⟩
  · obtain ⟨run, b, rfl, hof, hsound, hchronicled, -⟩ := hafter.chronicled
    have hmem' : joined ∈ b.calls := hof.2.2.1 ▸
      List.mem_filter.2 ⟨List.mem_append_right _ hjoined, by simpa using hrun⟩
    have hcomplete := hchronicled.joined joined hmem' htours
    obtain ⟨-, crew, hmanned⟩ := hu'.manned
    have hreports : some (b.crew.size, b.crew.reports) = some (crew.size, crew.reports) := by
      simpa [World.reports?, hof.2.1, hmanned.found] using hunmoved.reports
    obtain ⟨-, hsame⟩ := Prod.mk.inj (Option.some.inj hreports)
    exact ⟨crew, hmanned.found, fun place hlt => hsame ▸ hsound.mem_reports hcomplete hlt⟩
  · apply Bool.eq_iff_iff.2
    constructor
    · intro hstopped
      rw [← hunmoved.flag]
      exact hafter.heard joined (List.mem_append_right _ hjoined) hrun hstopped
    · exact fun hstopped => (hu'.stays_stopped hstopped hnext.history).2 joined hjoined hrun

/-- A stop is noticed by the lead that is told of the tours later. -/
theorem noticed_of_raised {s' : Session σ} {before more : Calls} {crew : Crew}
    {joined : Begun RunCall Role} (hu : Underway s' before n request scenarios)
    (hhistory : History s' more s) (hstop : s'.world.isStopped n = true)
    (hcrew : s'.world.crew? n = some crew) (hopen : crew.isComplete = false)
    (hmem : joined ∈ before ++ more) (hrun : joined.label.run = n) (htours : joined.call = .tours) :
    joined.stopped = true := by
  rcases List.mem_append.1 hmem with hmem | hmem
  · obtain ⟨run, b, -, hof, -, hchronicled, -⟩ := hu.chronicled
    obtain rfl : crew = b.crew := Option.some.inj (hcrew.symm.trans hof.2.1)
    have hbefore : joined ∈ b.calls := hof.2.2.1 ▸ List.mem_filter.2 ⟨hmem, by simpa using hrun⟩
    rw [hchronicled.joined joined hbefore htours] at hopen
    cases hopen
  · exact (hu.stays_stopped hstop hhistory).2 joined hmem hrun

/-- A run that is under way tells its story. -/
theorem Underway.narrates (hu : Underway s calls n request scenarios)
    (hnodup : request.deviceIds.Nodup) : ∃ state, s.Narrates calls n request scenarios state := by
  obtain ⟨run, b, rfl, hof, hsound, hchronicled, hopening⟩ := hu.chronicled
  have hcalls : b.calls = calls.ofRun n := hof.2.2.1
  have hopening' : tellings (calls.ofRun n) = [] ∨
      ∃ now later, tellings (calls.ofRun n) = b.state.opening now :: later := by
    rw [← hcalls]
    simpa only [RunState.opening_of_title hsound.title] using hopening
  refine ⟨b.state, hof.1, hsound.request, hu.logged.2, ?_, hopening', ?_, ?_, ?_⟩
  · rw [← hcalls, RunState.runId_of_title hsound.title]
    exact hchronicled.named
  · intro earlier event later htold hterminal
    obtain ⟨hlater, -, hlisted⟩ := hchronicled.last earlier event later (hcalls ▸ htold) hterminal
    refine ⟨hlater, fun entry hentry hn => ?_⟩
    have hmem := hof.2.2.2 entry hentry hn
    rw [hlisted] at hmem
    exact absurd hmem List.not_mem_nil
  · intro crew place id outcome hcrew hid hmem
    obtain rfl : crew = b.crew := Option.some.inj (hcrew.symm.trans hof.2.1)
    rw [← hcalls, hchronicled.about hnodup hid]
    exact (hchronicled.told place id outcome hid hmem).spoken
  · intro r hr
    have hresult : b.crew.result = some r := (result?_of_books hof).symm.trans hr
    obtain ⟨hcomplete, joined, hled⟩ := hchronicled.result r hresult
    have hown : b.own (.lead n) = calls.ofTask (.lead n) := hof.own rfl
    have hled' : Led b.state r (calls.ofTask (.lead n)) joined :=
      (hown ▸ hled).congr hsound.title
    obtain ⟨hmem, hlabel⟩ := List.mem_filter.1 hled'.joined_mem
    have hlabel : joined.label = .lead n := of_decide_eq_true hlabel
    refine ⟨joined, ⟨b.crew, hof.2.1, fun place hlt => hsound.mem_reports hcomplete hlt⟩, hled', ?_,
      hu.learns hmem hlabel hled.call, ?_⟩
    · obtain ⟨now, middle, htold, hmiddle⟩ := hchronicled.closing hled hopening
      refine ⟨now, middle, ?_, hmiddle⟩
      rw [← hcalls, htold, RunState.opening_of_title hsound.title,
        RunState.runId_of_title hsound.title]
    · intro s' before more crew hu' hhistory hsplit hstop hcrew hopen
      have hrun : joined.label.run = n := by rw [hlabel, Role.run]
      exact noticed_of_raised hu' hhistory hstop hcrew hopen (hsplit ▸ hmem) hrun hled.call

/-- The events of a run under way make a story, and with time it comes to its end. -/
theorem story_told (hu : Underway s calls n request scenarios)
    (hnodup : request.deviceIds.Nodup) (hplan : s.plan.Furnished) :
    (∃ state, s.Narrates calls n request scenarios state) ∧
      ∃ more r state, History s more (s.wait n) ∧ (s.wait n).result? n = some r ∧
        (s.wait n).Narrates (calls ++ more) n request scenarios state := by
  obtain ⟨more, r, hhistory, hr⟩ := hu.ends hplan
  obtain ⟨state, hstate⟩ := (hu.history hhistory).narrates hnodup
  exact ⟨hu.narrates hnodup, more, r, state, hhistory, hr, hstate⟩

/-- The story of the sample, whose devices describe themselves and perform an action. -/
theorem story_told_sample :
    let start := Sample.launched Sample.described (Sample.request ["d", "e"])
    let s := start.takeTurns [0, 1, 2, 0]
    let calls := start.callsOfTurns [0, 1, 2, 0]
    (s.result? 0).isSome = true ∧
      (Event.about "d" (tellings calls)).map Event.topic =
        ["suite:device:start", "suite:scenario:start", "suite:progress", "suite:step:start",
          "suite:step:complete", "suite:scenario:complete", "suite:device:complete"] ∧
      ∃ state, s.Narrates calls 0 (Sample.request ["d", "e"]) [Sample.scenario] state := by
  have able : (Sample.launched Sample.described
      (Sample.request ["d", "e"])).areAble [0, 1, 2, 0] = true := by decide +kernel
  have hu := Sample.underway (Sample.check_request _) able
  have hplan : (Sample.plan Sample.described).Furnished := fun make hmake => by cases hmake
  exact ⟨by decide +kernel, by decide +kernel, (story_told hu (by decide) hplan).1⟩

/-- A stop that comes when the tours of the sample have ended, and before its lead has had a turn
since, finds the run undecided: the last event says that it was stopped. -/
theorem stopped_after_tours :
    let start := Sample.launched Sample.described (Sample.request ["d", "e"])
    let ended := start.takeTurns [0, 1, 2]
    let closed := (ended.stop "r").1.takeTurns [0]
    ended.Underway (start.callsOfTurns [0, 1, 2]) 0 (Sample.request ["d", "e"]) [Sample.scenario] ∧
      (ended.world.crew? 0).map (fun crew => crew.reports.map (·.1)) = some [0, 1] ∧
      ended.world.isStopped 0 = false ∧
      History ended ([] ++ (ended.stop "r").1.callsOfTurns [0]) closed ∧
      (closed.result? 0).isSome = true ∧
      closed.world.events.getLast?.map (fun e => e.2.topic) = some "suite:stopped" := by
  intro start ended closed
  have able : start.areAble [0, 1, 2] = true := by decide +kernel
  have able' : (ended.stop "r").1.areAble [0] = true := by decide +kernel
  refine ⟨Sample.underway (Sample.check_request _) able, by decide +kernel, by decide +kernel,
    (Next.stop "r").history.trans (takeTurns_history able'), ?_⟩
  exact ⟨by decide +kernel, by decide +kernel⟩

end Session

end DeviceSuite
