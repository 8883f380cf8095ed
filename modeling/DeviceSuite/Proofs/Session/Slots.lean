import DeviceSuite.Proofs.Run.Accounting
import DeviceSuite.Proofs.Session.Turns

/-!
# Every slot has a result

In every history of a session, a device whose tour has ended with a result has a result for every
slot of its run, in the order of the slots. The slots that were skipped are the last ones, and their
results say so; without a stop there are none. The counts of the devices and of the suite are those
of the results.
-/

namespace DeviceSuite

namespace Session

variable {σ : Type} {s : Session σ} {calls : Calls} {n : Nat} {request : Request}
  {scenarios : List Graph}

/-- A device with a result has one for each of its slots, in the order of the repeats and of the
scenarios in each, and those that were skipped come last and only after a stop. Its counts are those
of its slots, and those of the run are the sums of these. -/
theorem slots_accounted (hu : Underway s calls n request scenarios)
    (hlt : request.deviceIds.length *
      (request.repeatCount.toNat * request.scenarioIds.length) < UInt32.size) :
    ∃ crew, s.world.crew? n = some crew ∧
      (∀ place d, (place, some (.ok d)) ∈ crew.reports →
        request.deviceIds[place]? = some d.deviceId ∧
          d.Covers request scenarios (s.world.isStopped n)) ∧
      ∀ r, s.result? n = some r →
        r.deviceResults = okayed crew.outcomes ∧
        (∀ d ∈ r.deviceResults, d.Covers request scenarios (s.world.isStopped n)) ∧
        r.stats.Sums r.deviceResults := by
  obtain ⟨before, hcheck⟩ := hu.checked
  obtain ⟨-, runId, suiteId, suiteName, startedAt, hobserved⟩ := hu.observed
  obtain ⟨b, ⟨hof, hs, hk⟩, -⟩ := hobserved _ (accounting_joined _ n scenarios)
  have hids : 0 < request.deviceIds.length := List.length_pos_iff.2 (check_ok hcheck).1
  have hlen := check_length hcheck
  have hsize : b.crew.size = request.deviceIds.length := hs.size
  have hstop : s.world.isStopped n = b.state.stopRequested := hof.isStopped (l := .lead n)
  have hslots : request.repeatCount.toNat * request.scenarioIds.length < UInt32.size :=
    Nat.lt_of_le_of_lt (Nat.le_mul_of_pos_left _ hids) hlt
  have hcovers : ∀ place d, (place, some (.ok d)) ∈ b.crew.reports →
      d.Covers request scenarios (s.world.isStopped n) := fun place d hd =>
    hstop ▸ (hk.reports place d hd).2.covers hlen hslots
  refine ⟨b.crew, hof.2.1, fun place d hd => ⟨(hk.reports place d hd).1, hcovers place d hd⟩, ?_⟩
  intro r hr
  have hresult : b.crew.result = some r := (result?_of_books hof).symm.trans hr
  obtain ⟨-, hdevices, hstats⟩ := hk.result r hresult
  have hall : ∀ d ∈ r.deviceResults, d.Covers request scenarios (s.world.isStopped n) := by
    intro d hd
    obtain ⟨place, hmem⟩ := mem_okayed (hdevices ▸ hd)
    exact hcovers place d hmem
  refine ⟨hdevices, hall, hstats ▸ SuiteStats.aggregate_sums _ _
    (fun d hd => ⟨(hall d hd).counted, Nat.le_of_eq (hall d hd).length⟩) ?_⟩
  have hcount : r.deviceResults.length ≤ request.deviceIds.length :=
    hsize ▸ hdevices ▸ length_okayed_le b.crew
  exact Nat.lt_of_le_of_lt (Nat.mul_le_mul_right _ hcount) hlt

/-- The run of the sample accounts for its slots. -/
theorem slots_accounted_sample :
    let start := Sample.launched Sample.described (Sample.request ["d", "e"])
    let s := start.takeTurns [0, 1, 2, 0]
    (s.result? 0).isSome = true ∧ ∀ r, s.result? 0 = some r →
      (∀ d ∈ r.deviceResults,
        d.Covers (Sample.request ["d", "e"]) [Sample.scenario] (s.world.isStopped 0)) ∧
      r.stats.Sums r.deviceResults := by
  have able : (Sample.launched Sample.described
      (Sample.request ["d", "e"])).areAble [0, 1, 2, 0] = true := by decide +kernel
  have hu := Sample.underway (Sample.check_request _) able
  obtain ⟨_, -, -, h⟩ := slots_accounted hu (by decide)
  exact ⟨by decide +kernel, fun r hr => (h r hr).2⟩

end Session

end DeviceSuite
