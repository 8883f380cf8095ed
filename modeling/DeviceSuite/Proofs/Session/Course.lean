import DeviceSuite.Proofs.Session.Reports

/-!
# The course of a run

The course of a run are the moves that its session makes from the launch of the run on. The minutes
of each task of the run are the beginning of a transcript of that task, and a tour that has ended
has left a whole one: `Course.told`. So what is true of all transcripts of a tour is seen in the
minutes of every course.
-/

namespace DeviceSuite

/-- A task that makes something of the result of another has the same transcripts. -/
theorem Task.Yields.map {C : Type} {R : C → Type} {α β : Type} {t : Task R α} {f : α → β}
    {told : List (Answer R)} {r : Option β} (h : (do return f (← t) : Task R β).Yields told r) :
    ∃ r', t.Yields told r' ∧ r = r'.map f := by
  refine Task.Ends.of_yields (Q := fun told r => ∃ r', t.Yields told r' ∧ r = r'.map f) ?_ h
  apply Task.ends_bind.2
  apply t.ends_yields.mono
  intro told r hr
  cases r with
  | none => exact ⟨none, hr, rfl⟩
  | some a => exact ⟨some a, by simpa using hr, rfl⟩

/-- The course of a run, from its launch on. -/
structure Course (σ : Type) where
  before : Session σ
  opened : before.Opened
  suiteId : String
  suiteName : String
  request : Request
  scenarios : List Graph
  accepted : before.check request = .ok scenarios
  moves : List Move
  allowed : (before.launch suiteId suiteName request scenarios).1.allowsAll moves = true

namespace Course

open Session

variable {σ : Type} (c : Course σ)

/-- The session in which the run has just begun. -/
def start : Session σ := (c.before.launch c.suiteId c.suiteName c.request c.scenarios).1

/-- The number of the run. -/
def number : Nat := c.before.world.registry.runs.length

/-- The run as it begins. -/
def run : RunState := c.before.newRun c.suiteId c.suiteName c.request

/-- The session as it is now. -/
def now : Session σ := c.start.performs c.moves

/-- The minutes of the course. -/
def minutes : Minutes := c.start.minutesOfAll c.moves

/-- What the device at a place is to do. -/
def tour (place : Nat) (id : String) : Tour where
  settings := c.before.settings
  keepsArtifacts := c.before.world.desk.isSome
  run := c.run
  scenarios := c.scenarios
  deviceId := id
  place := place + 1

/-- The tasks of the run. -/
def task : Role → RunTask RoleResult
  | .lead _ => do return .lead (← RunTask.lead c.run)
  | .tour _ place id => .call RunCall.begun fun _ => do return .tour (← (c.tour place id).conduct)

/-- The run is under way. -/
theorem underway : ∃ calls, c.now.Underway calls c.number c.request c.scenarios := by
  obtain ⟨calls, hhistory⟩ := history_of_allowsAll c.allowed
  exact ⟨_, (Underway.launch c.suiteId c.suiteName c.opened c.accepted).history hhistory⟩

/-- The session in which the run has just begun can be opened. -/
theorem opened_start : c.start.Opened :=
  c.opened.next (.launch c.suiteId c.suiteName c.accepted)

/-- The session as it is now can be opened. -/
theorem opened_now : c.now.Opened := c.underway.elim fun _ hu => hu.manned.1

/-- A run under way has its course. -/
theorem exists_of_underway {s : Session σ} {calls : Calls} {n : Nat} {request : Request}
    {scenarios : List Graph} (hu : s.Underway calls n request scenarios) :
    ∃ c : Course σ, c.now = s ∧ c.number = n ∧ c.request = request ∧ c.scenarios = scenarios := by
  induction hu with
  | launch suiteId suiteName ho hcheck =>
    exact ⟨⟨_, ho, suiteId, suiteName, _, _, hcheck, [], rfl⟩, rfl, rfl, rfl, rfl⟩
  | next _ hnext ih =>
    obtain ⟨c, rfl, hnumber, hrequest, hscenarios⟩ := ih
    obtain ⟨m, hm, rfl⟩ := hnext.move
    have hallowed : c.start.allowsAll (c.moves ++ [m]) = true :=
      allowsAll_append.2 ⟨c.allowed, Bool.and_eq_true_iff.2 ⟨hm, rfl⟩⟩
    exact ⟨{ c with moves := c.moves ++ [m], allowed := hallowed },
      performs_append _ _ _, hnumber, hrequest, hscenarios⟩

/-- The tasks of the run stand where their minutes say, and its tours are those of its request. -/
structure Kept (s : Session σ) (minutes : Minutes) : Prop where
  numbered : s.Numbered
  runs : c.number < s.world.registry.runs.length
  tours : ∀ place id, .tour c.number place id ∈ s.pool.strands.map (·.1) →
    c.request.deviceIds[place]? = some id
  minuted : ∀ e ∈ s.pool.strands, e.1.run = c.number →
    e.2.Minuted e.1 (c.task e.1) (minutes.ofTask e.1)

variable {c}

/-- The tasks of a run that has just begun have no minutes. -/
theorem kept_start : c.Kept c.start [] := by
  have hn := c.opened.numbered
  refine ⟨hn.launch _ _ _ _, ?_, ?_, ?_⟩
  · rw [start, runs_length_launch, number]
    exact Nat.lt_succ_self _
  · intro place id hlabel
    obtain ⟨e, he, hl⟩ := List.mem_map.1 hlabel
    have hrun : e.1.run = c.number := by rw [hl]; rfl
    obtain rfl | ⟨place', id', hid, rfl⟩ :=
      mem_newStrands _ (hn.mem_newStrands_of_launch he hrun)
    · cases hl
    · cases hl
      exact hid
  · intro e he hrun
    obtain rfl | ⟨place, id, -, rfl⟩ := mem_newStrands _ (hn.mem_newStrands_of_launch he hrun)
    · exact ⟨[], .refl _, rfl⟩
    · exact ⟨[], .refl _, rfl⟩

/-- The tasks still stand where their minutes say after any move. -/
theorem Kept.perform {s : Session σ} {minutes : Minutes} {m : Move} (h : c.Kept s minutes)
    (hm : s.allows m = true) : c.Kept (s.perform m) (minutes ++ s.minutesOf m) := by
  obtain ⟨calls, hnext⟩ := next_of_allows hm
  have hn := h.numbered.next hnext
  cases moved_of_allows hm with
  | @turn i l strand able turn found goes world strands hminutes =>
    have hlabel := Host.mem_minutesOf (h := s.host) goes strand.makes_any
    have hruns := (h.numbered.numbers_takeTurn able).1
    refine ⟨hn, ?_, ?_, ?_⟩
    · rw [turn, hruns]
      exact h.runs
    · intro place id hmem
      rw [strands, Company.map_set_label found] at hmem
      exact h.tours place id hmem
    · intro e he hrun
      rw [strands] at he
      rw [hminutes, Minutes.ofTask_append]
      rcases Company.mem_set_label h.numbered.labels found he with rfl | ⟨hold, hne⟩
      · rw [Minutes.ofTask_of_forall fun m hm => (hlabel m hm).1]
        exact Host.minuted_of_resume (h.minuted _ (List.mem_of_getElem? found) hrun) _
      · have hother : ∀ m ∈ s.host.minutesOf l strand s.world, m.label ≠ e.1 :=
          fun m hm => (hlabel m hm).1 ▸ hne.symm
        rw [Minutes.ofTask_eq_nil hother, List.append_nil]
        exact h.minuted e hold hrun
  | aside more added strands new runs crews blank desk hminutes =>
    have hold : ∀ e ∈ (s.perform m).pool.strands, e.1.run = c.number → e ∈ s.pool.strands := by
      intro e he hrun
      rcases List.mem_append.1 (strands ▸ he) with hold | hnew
      · exact hold
      · exact absurd (hrun.symm.trans (new e hnew).1) (Nat.ne_of_lt h.runs)
    refine ⟨hn, Nat.lt_of_lt_of_le h.runs runs, ?_, ?_⟩
    · intro place id hlabel
      obtain ⟨e, he, hl⟩ := List.mem_map.1 hlabel
      exact h.tours place id (List.mem_map.2 ⟨e, hold e he (by rw [hl]; rfl), hl⟩)
    · intro e he hrun
      rw [hminutes, List.append_nil]
      exact h.minuted e (hold e he hrun) hrun

/-- The tasks stand where their minutes say now. -/
theorem kept (c : Course σ) : c.Kept c.now c.minutes :=
  performs_keeps kept_start Kept.perform c.allowed

/-- The minutes of a tour are the beginning of what it is told: that the run has begun, and then a
transcript of its own. When it has ended, they are all of it. -/
theorem told (c : Course σ) {place : Nat} {id : String}
    (hid : c.request.deviceIds[place]? = some id) :
    ∃ strand reply told outcome, (.tour c.number place id, strand) ∈ c.now.pool.strands ∧
      (c.tour place id).conduct.Yields told outcome ∧
      c.minutes.ofTask (.tour c.number place id) <+:
        DeviceSuite.minutesOf (.tour c.number place id) (.reply RunCall.begun reply :: told) ∧
      ∀ ending, strand = .ended ending → ending = outcome.map .tour ∧
        c.minutes.ofTask (.tour c.number place id) =
          DeviceSuite.minutesOf (.tour c.number place id) (.reply RunCall.begun reply :: told) := by
  obtain ⟨calls, hu⟩ := c.underway
  obtain ⟨-, crew, hmanned⟩ := hu.manned
  obtain ⟨⟨_, strand⟩, hmem, rfl⟩ := List.mem_map.1 (hmanned.tours place id hid)
  obtain ⟨all, r, hyields, hstart, hended⟩ := (c.kept.minuted _ hmem rfl).transcript
  cases hyields with
  | @call _ _ reply told r hyields =>
    obtain ⟨outcome, hconduct, rfl⟩ := hyields.map
    exact ⟨strand, reply, told, outcome, hmem, hconduct, hstart, hended⟩

/-- What has been reported of a tour is what has come of it, and its minutes are complete. -/
theorem told_of_reported (c : Course σ) {place : Nat} {id : String} {crew : Crew}
    {outcome : Option TourResult} (hid : c.request.deviceIds[place]? = some id)
    (hcrew : c.now.world.crew? c.number = some crew) (hmem : (place, outcome) ∈ crew.reports) :
    ∃ reply told, (c.tour place id).conduct.Yields told outcome ∧
      c.minutes.ofTask (.tour c.number place id) =
        DeviceSuite.minutesOf (.tour c.number place id) (.reply RunCall.begun reply :: told) := by
  obtain ⟨id', ending, hended, rfl⟩ := (c.opened_now.filed _ _ hcrew place _).1 hmem
  obtain rfl : id' = id := Option.some.inj
    ((c.kept.tours place id' (List.mem_map_of_mem hended)).symm.trans hid)
  obtain ⟨strand, reply, told, outcome, hstrand, hyields, -, hend⟩ := c.told hid
  obtain rfl := c.kept.numbered.strand_inj hstrand hended
  obtain ⟨rfl, hminutes⟩ := hend ending rfl
  have houtcome : RoleResult.tour? (outcome.map .tour) = outcome := by cases outcome <;> rfl
  exact ⟨reply, told, houtcome.symm ▸ hyields, hminutes⟩

/-- In a run that has a result, something has come of every tour, and the devices that have results
are those of which a result has come. -/
theorem reported (c : Course σ) {r : SuiteResult} (hr : c.now.result? c.number = some r) :
    ∃ crew, c.now.world.crew? c.number = some crew ∧
      (∀ place id, c.request.deviceIds[place]? = some id →
        ∃ outcome, (place, outcome) ∈ crew.reports) ∧
      ∀ d ∈ r.deviceResults, ∃ place id, c.request.deviceIds[place]? = some id ∧
        (place, some (.ok d)) ∈ crew.reports := by
  obtain ⟨calls, hu⟩ := c.underway
  obtain ⟨-, runId, suiteId, suiteName, startedAt, hobserved⟩ := hu.observed
  obtain ⟨b, ⟨hof, hsound, haccount⟩, -⟩ := hobserved _ (accounting_joined _ _ c.scenarios)
  obtain ⟨hcomplete, hdevices, -⟩ :=
    haccount.result r ((result?_of_books hof).symm.trans hr)
  refine ⟨b.crew, hof.2.1, fun place id hid => ?_, fun d hd => ?_⟩
  · obtain ⟨⟨place', outcome⟩, hmem, rfl⟩ :=
      List.mem_map.1 (hsound.mem_reports hcomplete (List.getElem?_eq_some_iff.1 hid).1)
    exact ⟨outcome, hmem⟩
  · rw [hdevices] at hd
    obtain ⟨outcome, houtcome, hok⟩ := List.mem_filterMap.1 hd
    obtain rfl : outcome = some (.ok d) := by
      rcases outcome with _ | (e | d') <;> cases hok
      rfl
    obtain ⟨place, hplace⟩ := List.getElem?_of_mem houtcome
    have hlen : b.crew.outcomes.length = c.request.deviceIds.length := by
      rw [Crew.outcomes, List.length_map, List.length_range, hsound.size]
      rfl
    have hlt := hlen ▸ (List.getElem?_eq_some_iff.1 hplace).1
    have hzip : (c.request.deviceIds[place], some (.ok d)) ∈
        c.request.deviceIds.zip b.crew.outcomes :=
      List.mem_iff_getElem?.2 ⟨place, List.getElem?_zip_eq_some.2
        ⟨List.getElem?_eq_getElem hlt, hplace⟩⟩
    obtain ⟨place', hid, hreport⟩ := (hsound.mem_zip_outcomes hcomplete).1 hzip
    exact ⟨place', _, hid, hreport⟩

/-- What is true of all that tours may end with is true of the results of the devices of a run. -/
theorem forall_deviceResults (c : Course σ) {H : RunCall → Prop} {Q : DeviceResult → Prop}
    (h : ∀ place id, (c.tour place id).conduct.Only H fun r => ∀ d, r = .ok d → Q d)
    {r : SuiteResult} (hr : c.now.result? c.number = some r) : ∀ d ∈ r.deviceResults, Q d := by
  intro d hd
  obtain ⟨crew, hcrew, -, hdevices⟩ := c.reported hr
  obtain ⟨place, id, hid, hmem⟩ := hdevices d hd
  obtain ⟨reply, told, hyields, -⟩ := c.told_of_reported hid hcrew hmem
  exact ((h place id).returns.of_yields hyields).2 d rfl

end Course

/-- The course of a run of the sample. -/
def Sample.course {environment : Except DeviceError Environment} {request : Request}
    (accepted : (Sample.session environment).check request = .ok [Sample.scenario])
    (moves : List Move) (allowed : (Sample.launched environment request).allowsAll moves = true) :
    Course Unit :=
  ⟨Sample.session environment, Sample.opened environment, "s", "", request, [Sample.scenario],
    accepted, moves, allowed⟩

end DeviceSuite
