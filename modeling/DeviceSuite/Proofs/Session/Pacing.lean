import DeviceSuite.Proofs.Run.Pacing
import DeviceSuite.Proofs.Session.Course
import DeviceSuite.Proofs.Session.Instants
import DeviceSuite.Proofs.Session.Progress

/-!
# The pace of the devices of a run

In a punctual course the slots of a device begin at fixed distances: each after the first exactly
when the gap after the one before it is over, and the device is done at the instant at which its
last slot ends, or at which the run is stopped in a gap: `Course.slots_paced`. What is seen of a
device is read off the calls of its tour, each with the instant at which it begins. A run that is
given time always comes to its end in this way: `Course.exists_punctual_end`.
-/

namespace DeviceSuite

/-- A request for two runs of the scenario, with a rest between them. -/
def Sample.spaced : Request := { request ["d"] with repeatCount := 2, scenarioInterval := 5 }

/-- The request with an interval is accepted. -/
theorem Sample.check_spaced :
    (session described).check spaced = .ok [scenario] := rfl

namespace Course

open Session

variable {σ : Type} (c : Course σ) (place : Nat) (id : String)

/-- What is seen of the pace of a device in the course. -/
def marks : List (Nat × Mark) := marksOf (c.start.timesOf (.tour c.number place id) c.moves)

/-- The instant at which the flag of the run is first seen raised, if it is. -/
def stoppedAt : Option Nat := c.start.raisedIn c.number c.moves

/-- The number of slots of each device. -/
def slots : Nat := c.request.repeatCount.toNat * c.request.scenarioIds.length

/-- The slots of a device are run in rounds that keep the pace. -/
structure Paced (rounds : List Round) (closed : Option Nat) : Prop where
  /-- The rounds are those of the first slots in their order, and what has been seen by now is the
  beginning of them. -/
  seen : c.marks place id <+:
    (c.tour place id).row 0 rounds ++ closed.toList.map (·, .closes)
  length_le : rounds.length ≤ c.slots
  sound : ∀ x ∈ rounds, x.Sound
  /-- Between two slots there is exactly the interval of the request. -/
  spaced : rounds.IsChain fun x y => y.began = x.ended + c.request.scenarioInterval.toNat
  /-- No slot begins after the stop. -/
  heeded : ∀ stop ∈ c.stoppedAt, ∀ x ∈ rounds, x.began ≤ stop
  /-- The device is done when its last slot has ended. -/
  closes : ∀ time ∈ closed, rounds.length = c.slots → ∀ x ∈ rounds.getLast?, time = x.ended
  /-- If slots are left, the run has been stopped before the gap after the last one was over, and
  the gap has ended with the stop. -/
  cut : ∀ time ∈ closed, rounds.length < c.slots → ∃ stop ∈ c.stoppedAt,
    ∀ x ∈ rounds.getLast?, stop ≤ x.ended + c.request.scenarioInterval.toNat ∧
      time = max x.ended stop
  /-- A device that has a result is done. -/
  reported : ∀ crew d, c.now.world.crew? c.number = some crew →
    (place, some (.ok d)) ∈ crew.reports → closed.isSome ∧
      c.marks place id = (c.tour place id).row 0 rounds ++ closed.toList.map (·, .closes)

variable {c place id}

/-- A request that is accepted has slots. -/
theorem slots_pos : 0 < c.slots := by
  obtain ⟨-, hscenarios, hrepeats, -⟩ := check_ok c.accepted
  refine Nat.mul_pos (Nat.pos_of_ne_zero fun h => hrepeats ?_) (List.length_pos_iff.2 hscenarios)
  exact UInt32.toNat_inj.1 h

/-- A tour has the slots of its request. -/
theorem size_tour : (c.tour place id).size = c.slots :=
  congrArg (c.request.repeatCount.toNat * ·) (check_length c.accepted)

/-- As long as the slots of a device fit into a word, its tour counts up to their number. -/
theorem size_tour_eq (hlt : c.slots < UInt32.size) :
    (c.tour place id).size = (c.tour place id).run.request.slotsPerDevice.toNat :=
  size_tour.trans (Request.slotsPerDevice_toNat (check_ok c.accepted).2.2.1 hlt).symm

/-- A tour unfolds as expected from the launch of its run on. -/
theorem tracks_start (hid : c.request.deviceIds[place]? = some id)
    {Q : List (Nat × RunCall) → Option TourResult → Beat → Prop}
    (h : ∀ b : Beat, (∀ time ∈ b.raised, time ≤ b.now) →
      (c.tour place id).conduct.Unfolds RunCall.pace b Q) :
    c.start.Tracks (.tour c.number place id) (fun calls r b => ∃ began rest r',
        calls = (began, RunCall.begun) :: rest ∧ r = r'.map .tour ∧ Q rest r' b)
      (c.start.raised? c.number) := by
  refine ⟨shows_raised? _ _, c.before.tour c.run c.scenarios place id, ?_, rfl, ?_⟩
  · rw [start, strands_launch]
    exact List.mem_append_right _ (tour_mem_newStrands _ _ hid)
  · intro began b _ hcall
    have hpast := hcall.later.past fun time htime => le_now_of_raised? htime
    apply Task.unfolds_bind.2
    refine (h b hpast).mono fun calls r b' hQ => ?_
    cases r with
    | none => exact ⟨began, calls, none, rfl, rfl, hQ⟩
    | some outcome => exact ⟨began, calls ++ [], some outcome, rfl, rfl, by simpa using hQ⟩

/-- A run that is given time comes to its end in punctual moves. -/
theorem exists_punctual_end (hplan : c.now.plan.Furnished) :
    ∃ moves r, c.now.allowsAll moves = true ∧ c.now.AllPunctual moves ∧
      (c.now.performs moves).result? c.number = some r := by
  obtain ⟨calls, hu⟩ := c.underway
  obtain ⟨more, r, -, hr⟩ := hu.ends hplan
  obtain ⟨moves, hallowed, hpunctual, hperforms⟩ := c.opened_now.wait_punctual c.number
  exact ⟨moves, r, hallowed, hpunctual, hperforms ▸ hr⟩

/-- What is seen of a device belongs to a way in which its tour unfolds until it ends, at a beat
that tells of the same stop as the course, or that comes before it; of a device that has reported it is
all there is to be seen. -/
theorem exists_timed (hlt : c.slots < UInt32.size) (hpunctual : c.start.AllPunctual c.moves)
    (hid : c.request.deviceIds[place]? = some id) :
    ∃ marks r b, (c.tour place id).Timed marks r b ∧ c.marks place id <+: marks ∧
      (b.raised = c.stoppedAt ∨ b.Later ⟨c.now.now, c.stoppedAt⟩) ∧
      ∀ crew outcome, c.now.world.crew? c.number = some crew →
        (place, outcome) ∈ crew.reports → r = outcome ∧ c.marks place id = marks := by
  have hsize : 0 < (c.tour place id).size := size_tour.symm ▸ slots_pos
  have hstart := tracks_start hid fun b hpast =>
    Tour.seen_conduct (size_tour_eq hlt) hpast hsize
  obtain ⟨-, strand, hmem, hu⟩ := hstart.performs c.opened_start c.allowed hpunctual
  obtain ⟨calls, r, b, hb, ⟨began, rest, r', hcalls, rfl, htimed⟩, hended⟩ := hu.exists
  have hmarks : marksOf rest = c.marks place id ++ marksOf calls :=
    (congrArg marksOf hcalls).symm.trans (marksOf_append _ _)
  refine ⟨_, r', b, htimed, hmarks ▸ List.prefix_append _ _, hb, ?_⟩
  intro crew outcome hcrew hreport
  obtain ⟨id', ending, hending, rfl⟩ := (c.opened_now.filed _ _ hcrew place _).1 hreport
  obtain rfl : id' = id := Option.some.inj
    ((c.kept.tours place id' (List.mem_map_of_mem hending)).symm.trans hid)
  obtain rfl := c.kept.numbered.strand_inj hmem hending
  obtain ⟨rfl, rfl⟩ := hended ending rfl
  refine ⟨?_, by rw [hmarks]; exact (List.append_nil _).symm⟩
  cases r' <;> rfl

/-- The slots of a device keep the pace, as long as the device can count them. -/
theorem slots_paced (hlt : c.slots < UInt32.size) (hpunctual : c.start.AllPunctual c.moves)
    (hid : c.request.deviceIds[place]? = some id) :
    ∃ rounds closed, c.Paced place id rounds closed := by
  obtain ⟨marks, r, b, ⟨first, rounds, closed, hpaced, hover, hmarks, hdone⟩, hseen, hb,
    hreported⟩ := exists_timed hlt hpunctual hid
  -- The tour may have ended before the run was stopped, and the stop is not told of at its end.
  have hkept : ∀ stop ∈ b.raised, stop ∈ c.stoppedAt := by
    rcases hb with hsame | hlater
    · exact fun stop hstop => hsame ▸ hstop
    · exact hlater.kept
  have hheeded : ∀ stop ∈ c.stoppedAt, ∀ x ∈ rounds, x.began ≤ stop := by
    rcases hb with hsame | hlater
    · exact hsame ▸ hpaced.heeded
    · exact (hpaced.later_end hlater).heeded
  refine ⟨rounds, closed, hseen.trans hmarks, size_tour ▸ hpaced.length_le,
    fun x hx => (hpaced.sound x hx).1, hpaced.spaced, hheeded, ?_, ?_, ?_⟩
  · rintro time htime hlength x hx
    rcases hover time htime with ⟨y, hy, hlast⟩ | ⟨rfl, -⟩
    · obtain rfl := Option.some.inj (Eq.trans hx.symm hy)
      rcases hlast with ⟨-, hended⟩ | ⟨hlt, -⟩
      · exact hended
      · exact absurd (hlength.trans size_tour.symm) (Nat.ne_of_lt hlt)
    · cases hx
  · intro time htime hlt
    rcases hover time htime with ⟨y, hy, hlast⟩ | ⟨rfl, stop, hstop, -⟩
    · rcases hlast with ⟨hlength, -⟩ | ⟨-, stop, hstop, hle, hmax⟩
      · exact absurd (hlength.trans size_tour) (Nat.ne_of_lt hlt)
      · refine ⟨stop, hkept stop hstop, fun x hx => ?_⟩
        obtain rfl := Option.some.inj (Eq.trans hx.symm hy)
        exact ⟨hle, hmax⟩
    · exact ⟨stop, hkept stop hstop, nofun⟩
  · intro crew d hcrew hreport
    obtain ⟨rfl, rfl⟩ := hreported crew _ hcrew hreport
    exact hdone d rfl

/-- Two slots of one device with a rest between them: the second begins five milliseconds after the
first has ended, and the device is done when the second has ended. -/
theorem slots_paced_sample :
    ∃ c : Course Unit, (∃ rounds closed, c.Paced 0 "d" rounds closed) ∧
      (c.marks 0 "d").map (·.1) = [0, 0, 0, 5, 5, 5, 5] ∧
      c.now.world.crews.map (fun crew => crew.reports.map fun report => report.2.isSome) =
        [[true]] := by
  let moves : List Move := [.turn 0, .turn 1, .clock 5, .turn 1]
  exact ⟨Sample.course Sample.check_spaced moves (by decide +kernel),
    slots_paced (by decide +kernel) (by decide +kernel) rfl, by decide +kernel, by decide +kernel⟩

end Course

end DeviceSuite
