import DeviceSuite.Proofs.Run.Takes
import DeviceSuite.Proofs.Session.Course

/-!
# The recordings of a run

In the minutes of a run that is recorded, what each of its devices says to the recorder is a row of
takes, so far as it has come. The row is whole once the device has done its part without a crash,
and then its takes are those of the slots that its result says were run. A device that crashes in
the midst of a slot leaves the recording running: `recording_left_running`.
-/

namespace DeviceSuite

/-- Whether a minute is about the recorder. -/
def Minute.films (m : Minute RunCall.Reply Role) : Bool := m.call.recording?.isSome

/-- Whether the recorder told that it has started. -/
def Minute.hasStarted : Minute RunCall.Reply Role → Bool
  | .answered _ (.startVideo _) reply => reply.any VideoOutcome.success
  | _ => false

/-- The minutes about the recorder are those of the exchange with it. -/
theorem filter_films_minutesOf (l : Role) (told : List (Answer RunCall.Reply)) :
    (minutesOf l told).filter Minute.films = minutesOf l (filming told) := by
  induction told with
  | nil => rfl
  | cons a told ih =>
    rw [minutesOf_cons, List.filter_append, ih]
    cases a with
    | reply c r => cases hc : c.recording? <;>
        simp [filming, Answer.films, Answer.call?, Answer.minutes, Minute.films, Minute.call, hc]
    | _ => simp [filming, Answer.films, Answer.call?, Answer.minutes]

namespace Course

variable {σ : Type} (c : Course σ)

/-- What the device at a place says to the recorder, and what it is answered. -/
def filming (place : Nat) (id : String) : Minutes :=
  (c.minutes.ofTask (.tour c.number place id)).filter Minute.films

/-- What a row of takes looks like in the minutes of a device. -/
def row (place : Nat) (id : String) (takes : List Take) : Minutes :=
  minutesOf (.tour c.number place id) (takes.flatMap Take.answers)

/-- The recordings of the device at a place are such takes. -/
structure Bracketed (place : Nat) (id : String) (takes : List Take) : Prop where
  /-- In each of them the recorder is asked to stop once, with the context with which it was asked
  to start, if it has started; and if it has not, it is not asked to stop. -/
  whole : ∀ take ∈ takes, take.Whole
  /-- The device goes through them one after the other. -/
  begun : c.filming place id <+: c.row place id takes
  /-- A device that has done its part has gone through all of them, and they are those of the slots
  that it has run. -/
  done : ∀ crew outcome, c.now.world.crew? c.number = some crew →
    (place, some outcome) ∈ crew.reports →
    c.filming place id = c.row place id takes ∧
      Take.Of (c.tour place id).context
        ((outcome.toOption.map DeviceResult.scenarioResults).getD []) takes
  /-- Before the run settles, each device has done its part or has crashed. -/
  settled : (c.now.result? c.number).isSome → ∃ crew outcome,
    c.now.world.crew? c.number = some crew ∧ (place, outcome) ∈ crew.reports

variable {c} in
/-- In a run that is recorded, each start of the recorder that succeeds is followed by one stop with
the same context, before the next start of the device and before the run settles, unless the device
crashes; a start that fails is followed by none. The slots that are skipped have neither, and the
results of the others name the path that the stop has told if both have succeeded, and none
otherwise. -/
theorem recordings_bracketed {place : Nat} {id : String} (hrec : c.request.recordVideo = true)
    (hid : c.request.deviceIds[place]? = some id) : ∃ takes, c.Bracketed place id takes := by
  obtain ⟨strand, reply, told, outcome, hstrand, hyields, hstart, hend⟩ := c.told hid
  have hfilter : ∀ {reply : Option Unit} {told : List (Answer RunCall.Reply)},
      (minutesOf (.tour c.number place id) (.reply RunCall.begun reply :: told)).filter
        Minute.films = minutesOf (.tour c.number place id) (DeviceSuite.filming told) :=
    fun {reply told} => filter_films_minutesOf _ (.reply RunCall.begun reply :: told)
  have hshoots := fun {told outcome} (hyields : (c.tour place id).conduct.Yields told outcome) =>
    (Tour.shoots_conduct (t := c.tour place id) hrec).of_yields hyields
  obtain ⟨takes, hwhole, htakes, hresult⟩ := hshoots hyields
  refine ⟨takes, hwhole, ?_, ?_, ?_⟩
  · obtain ⟨rest, hrest⟩ := htakes
    refine (hstart.filter Minute.films).trans ?_
    rw [hfilter, row, ← hrest, minutesOf_append]
    exact List.prefix_append ..
  · intro crew outcome' hcrew hreport
    obtain ⟨id', ending, hended, houtcome⟩ := (c.opened_now.filed _ _ hcrew place _).1 hreport
    obtain rfl : id' = id := Option.some.inj
      ((c.kept.tours place id' (List.mem_map_of_mem hended)).symm.trans hid)
    obtain rfl := c.kept.numbered.strand_inj hstrand hended
    obtain ⟨rfl, hminutes⟩ := hend ending rfl
    obtain rfl : outcome = some outcome' := by
      cases outcome <;> exact houtcome.symm
    obtain ⟨hwholly, added, rfl, hof⟩ := hresult outcome' rfl
    refine ⟨?_, hof⟩
    rw [filming, hminutes, hfilter, hwholly, row]
  · intro hsome
    obtain ⟨r, hr⟩ := Option.isSome_iff_exists.1 hsome
    obtain ⟨crew, hcrew, hreports, -⟩ := c.reported hr
    obtain ⟨outcome, hreport⟩ := hreports place id hid
    exact ⟨crew, outcome, hcrew, hreport⟩

/-- The first device of the sample is recorded, and does its part. -/
theorem recordings_bracketed_sample :
    ∃ c : Course Unit, (∃ takes, c.Bracketed 0 "d" takes) ∧ (c.filming 0 "d").length = 4 ∧
      c.now.world.crews.map (fun crew => crew.reports.map fun report => report.2.isSome) =
        [[true]] := by
  let moves : List Move := [.turn 0, .turn 1, .clock 1, .turn 1]
  exact ⟨Sample.course (Sample.check_filmed Sample.described) moves (by decide +kernel),
    recordings_bracketed rfl rfl, by decide +kernel, by decide +kernel⟩

end Course

namespace Sample

/-- A device that crashes when it is told to do something. -/
def frail : Service DeviceCall.Reply Unit :=
  { service described with
    answer := fun time s c =>
      match c with
      | .perform _ => (s, none)
      | c => (service described).answer time s c }

/-- A scenario that taps. -/
def tap : Graph where
  id := "g"
  name := ""
  nodes :=
    [⟨"s", .start, none, .empty⟩,
      ⟨"t", .action, none, .ofList [("actionType", .text "tap"), ("x", .int 1), ("y", .int 2)]⟩]
  connections := [⟨"s", "t", none⟩]

/-- The session with such a device and such a scenario. -/
def failing : Session Unit :=
  let plan := { plan described with
    service := frail
    devices := [("d", ())]
    scenarios := ⟨.ofList [("g", tap)], .empty⟩ }
  { session described with
    plan := plan
    scenarios := plan.scenarios
    connected := ["d"]
    pool := .empty { (session described).world with devices := .ofList plan.devices } }

/-- The session with the failing device can be opened. -/
theorem opened_failing : failing.Opened := by
  have h : Session.setUp failing.plan (.given .default) = .ok failing := rfl
  exact .setUp h

/-- The course of a recorded run with such a device. -/
def broken (moves : List Move)
    (allowed : (failing.launch "s" "" (filmed ["d"]) [tap]).1.allowsAll moves = true) :
    Course Unit :=
  ⟨failing, opened_failing, "s", "", filmed ["d"], [tap], rfl, moves, allowed⟩

end Sample

/-- A device crashes in the midst of a slot that is recorded: the run settles, and the recorder,
which had started, has not been asked to stop. -/
theorem recording_left_running :
    ∃ c : Course Unit, c.request.recordVideo = true ∧ c.request.deviceIds = ["d"] ∧
      (c.now.result? c.number).isSome = true ∧ (c.filming 0 "d").any Minute.hasStarted = true ∧
      (c.filming 0 "d").all (fun m => m.call.recording? != some none) = true := by
  refine ⟨Sample.broken [.turn 0, .turn 1, .clock 1, .turn 1, .turn 0] (by decide +kernel), rfl,
    rfl, ?_, ?_, ?_⟩ <;> decide +kernel

end DeviceSuite
