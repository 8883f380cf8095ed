import DeviceSuite.Proofs.Run.Wording
import DeviceSuite.Proofs.Session.Progress

/-!
# Slots are counted in words

In every history of a session, the slots of a run are counted in words: those that its events tell,
those that its progress shows, those of the devices' results and the sums of them. Each shows its
number exactly as long as it fits into a word. The slots that a run promises are those that its
tours go through exactly as long as those of a device fit into a word of 32 bits, for what does not
fit is capped, and those of all devices into one of 64.
-/

namespace DeviceSuite

/-- The slots of a device are as many as they should be exactly if they fit into a word. -/
theorem Request.slotsPerDevice_eq_iff {request : Request} (hrepeat : request.repeatCount ≠ 0) :
    request.slotsPerDevice.toNat = request.slots ↔ request.slots < UInt32.size :=
  ⟨fun h => h ▸ request.slotsPerDevice.toNat_lt, Request.slotsPerDevice_toNat hrepeat⟩

/-- No more slots are promised of a device than there are. -/
theorem Request.slotsPerDevice_le (request : Request) :
    request.slotsPerDevice.toNat ≤ request.slots := by
  have hlen : (UInt32.ofNat request.scenarioIds.length).toNat ≤ request.scenarioIds.length :=
    UInt32.toNat_ofNat'.trans_le (Nat.mod_le _ _)
  have hproduct := Nat.mul_le_mul_left request.repeatCount.toNat hlen
  rw [slotsPerDevice, saturatingMul, UInt32.toNat_ofNat']
  exact ((Nat.mod_le _ _).trans (Nat.min_le_left _ _)).trans hproduct

/-- The slots that are promised of all devices are as many as they should be exactly if those of one
device fit into a word of 32 bits and those of all devices into one of 64. -/
theorem Request.totalUnits_eq_iff {request : Request} (hrepeat : request.repeatCount ≠ 0)
    (hdevices : request.deviceIds ≠ []) :
    (UInt64.ofNat request.allSlots).toNat = request.deviceIds.length * request.slots ↔
      request.slots < UInt32.size ∧ request.deviceIds.length * request.slots < UInt64.size := by
  have hle : request.allSlots ≤ request.deviceIds.length * request.slots :=
    Nat.mul_le_mul_left _ request.slotsPerDevice_le
  constructor
  · intro h
    have hlt : request.deviceIds.length * request.slots < UInt64.size :=
      h ▸ (UInt64.ofNat request.allSlots).toNat_lt
    rw [UInt64.toNat_ofNat_of_lt' (Nat.lt_of_le_of_lt hle hlt)] at h
    have hslots := Nat.eq_of_mul_eq_mul_left (List.length_pos_iff.2 hdevices) h
    exact ⟨(slotsPerDevice_eq_iff hrepeat).1 hslots, hlt⟩
  · rintro ⟨hslots, hlt⟩
    rw [UInt64.toNat_ofNat_of_lt' (Nat.lt_of_le_of_lt hle hlt), allSlots,
      (slotsPerDevice_eq_iff hrepeat).2 hslots]

/-- The slots that the tours of a device have counted are in the books of its run. -/
theorem Books.Of.slotsOf {σ : Type} {n : Nat} {w : World σ} {calls : Calls} {b : Books}
    (h : Books.Of n (w, calls) b) (ids : List String) (id : String) :
    b.calls.slotsOf n ids id = calls.slotsOf n ids id := by
  have hown : ∀ place, b.own (.tour n place id) =
      calls.filter fun e => e.label = .tour n place id := fun place => h.own rfl
  exact congrArg (counted ids · id) (funext fun place => congrArg Calls.slots (hown place))

namespace Books.InAccount

variable {run : RunState} {scenarios : List Graph} {b : Books}

/-- A device whose tour ended with a result has one for each slot, and counts them in words. -/
theorem reported (h : b.InAccount run scenarios)
    (hlen : scenarios.length = run.request.scenarioIds.length) {place : Nat} {d : DeviceResult}
    (hd : (place, some (.ok d)) ∈ b.crew.reports) :
    d.scenarioResults.length = run.request.slots ∧ d.CountsInWords := by
  have hsize : run.request.repeatCount.toNat * scenarios.length = run.request.slots :=
    congrArg (run.request.repeatCount.toNat * ·) hlen
  have haccounts := (h.reports place d hd).2
  exact ⟨haccounts.length.trans hsize, DeviceResult.countsInWords_of_recordAll haccounts.stats⟩

/-- So does the result of the run, which sums them in words. -/
theorem summed (h : b.InAccount run scenarios)
    (hlen : scenarios.length = run.request.scenarioIds.length) {r : SuiteResult}
    (hr : b.crew.result = some r) :
    r.deviceResults = okayed b.crew.outcomes ∧
      (∀ d ∈ r.deviceResults, d.scenarioResults.length = run.request.slots) ∧
      r.stats.SumsInWords r.deviceResults := by
  obtain ⟨-, hdevices, hstats⟩ := h.result r hr
  have hall : ∀ d ∈ r.deviceResults,
      d.scenarioResults.length = run.request.slots ∧ d.CountsInWords := by
    intro d hd
    obtain ⟨place, hmem⟩ := mem_okayed (hdevices ▸ hd)
    exact h.reported hlen hmem
  refine ⟨hdevices, fun d hd => (hall d hd).1, ?_⟩
  rw [hstats]
  exact SuiteStats.aggregate_sumsInWords _ _ fun d hd => (hall d hd).2

end Books.InAccount

namespace Session

variable {σ : Type} {s : Session σ} {calls : Calls} {n : Nat} {request : Request}
  {scenarios : List Graph}

/-- A run counts its slots in words. -/
structure CountsInWords (s : Session σ) (calls : Calls) (n : Nat) (request : Request)
    (state : RunState) (crew : Crew) : Prop where
  found : s.world.registry.run? n = some state
  manned : s.world.crew? n = some crew
  promised : request.slotsPerDevice.toNat = request.slots ↔ request.slots < UInt32.size
  total : state.totalUnits.toNat = request.deviceIds.length * request.slots ↔
    request.slots < UInt32.size ∧ request.deviceIds.length * request.slots < UInt64.size
  told : ∀ place id,
    Calls.Enumerates request.slots (calls.filter fun e => e.label = .tour n place id)
  counted : ∀ place id,
    Calls.slots (calls.filter fun e => e.label = .tour n place id) ≤ request.slots
  shown : ∀ id ∈ request.deviceIds,
    calls.slotsOf n request.deviceIds id ≤ request.deviceIds.length * request.slots ∧
      (WordShows (state.slotsDone id) (calls.slotsOf n request.deviceIds id) ∨
        crew.isComplete = true ∧ state.slotsDone id = request.slotsPerDevice.toNat)
  reported : ∀ place d, (place, some (.ok d)) ∈ crew.reports →
    request.deviceIds[place]? = some d.deviceId ∧
      Calls.slots (calls.filter fun e => e.label = .tour n place d.deviceId) = request.slots ∧
      d.scenarioResults.length = request.slots ∧ d.CountsInWords
  summed : ∀ r, s.result? n = some r →
    r.deviceResults = okayed crew.outcomes ∧
      r.deviceResults.length ≤ request.deviceIds.length ∧
      (∀ d ∈ r.deviceResults, d.scenarioResults.length = request.slots) ∧
      r.stats.SumsInWords r.deviceResults

/-- A run counts its slots in words. What it promises of each device and of all of them is their
number exactly if that fits, and whatever it counts and tells later shows what is left of the true
number beyond all full words. -/
theorem slots_counted (hu : Underway s calls n request scenarios) :
    ∃ state crew, s.CountsInWords calls n request state crew := by
  obtain ⟨before, hcheck⟩ := hu.checked
  obtain ⟨hdevices, -, hrepeat, -⟩ := check_ok hcheck
  obtain ⟨-, runId, suiteId, suiteName, startedAt, hobserved⟩ := hu.observed
  have hlen := check_length hcheck
  have hfresh := RunState.fresh_new runId suiteId suiteName request startedAt
  obtain ⟨b, ⟨hof, hs, haccount⟩, -⟩ := hobserved _ (accounting_joined _ n scenarios)
  obtain ⟨b', ⟨hof', -, hwords⟩, -⟩ := hobserved _ (wording_joined hfresh n hlen)
  -- Both accords are observed of the same run: its books show one state and one crew.
  have hstate : b'.state = b.state := Option.some.inj (hof'.1.symm.trans hof.1)
  have hcrew : b'.crew = b.crew := Option.some.inj (hof'.2.1.symm.trans hof.2.1)
  have hpromised := Request.slotsPerDevice_eq_iff hrepeat
  refine ⟨b.state, b.crew, hof.1, hof.2.1, hpromised, ?_, fun place id => ?_, fun place id => ?_,
    fun id hid => ⟨?_, ?_⟩, fun place d hd => ?_, fun r hr => ?_⟩
  · have htotal : b.state.totalUnits = .ofNat request.allSlots :=
      hs.totalUnits.trans (RunState.totalUnits_new ..)
    rw [htotal]
    exact Request.totalUnits_eq_iff hrepeat hdevices
  · exact hof'.own (l := .tour n place id) rfl ▸ hwords.told _
  · exact hof'.own (l := .tour n place id) rfl ▸ hwords.within place id
  · rw [← hof'.slotsOf]
    exact (counted_le fun place => hwords.within place id).trans
      (Nat.mul_le_mul_right _ List.count_le_length)
  · rw [← hof'.slotsOf, ← hstate, ← hcrew]
    exact hwords.shown id hid
  · have hplace := (haccount.reports place d hd).1
    refine ⟨hplace, ?_, haccount.reported hlen hd⟩
    rw [← hof'.own (l := .tour n place d.deviceId) rfl]
    exact hwords.ended place _ d hplace (hcrew ▸ hd)
  · have hresult : b.crew.result = some r := (result?_of_books hof).symm.trans hr
    obtain ⟨hdevices, hsummed⟩ := haccount.summed hlen hresult
    have hsize : b.crew.size = request.deviceIds.length := hs.size
    exact ⟨hdevices, hsize ▸ hdevices ▸ length_okayed_le b.crew, hsummed⟩

/-- The run of the sample has counted a slot of each of its devices. -/
theorem slots_counted_sample :
    let start := Sample.launched Sample.described (Sample.request ["d", "e"])
    let s := start.takeTurns [0, 1, 2, 0]
    let calls := start.callsOfTurns [0, 1, 2, 0]
    Calls.slots (calls.filter fun e => e.label = .tour 0 1 "e") = 1 ∧
      ∃ state crew, s.CountsInWords calls 0 (Sample.request ["d", "e"]) state crew := by
  have able : (Sample.launched Sample.described
      (Sample.request ["d", "e"])).areAble [0, 1, 2, 0] = true := by decide +kernel
  exact ⟨by decide +kernel, slots_counted (Sample.underway (Sample.check_request _) able)⟩

/-- A request of a device for so many repeats of two scenarios that their product is not a word. -/
def Sample.endless : Request :=
  { Sample.request ["d"] with scenarioIds := ["g", "g"], repeatCount := 4294967295 }

/-- The request is accepted, and its run promises half of the slots that its tour goes through. -/
theorem slots_capped :
    let s := Sample.session Sample.described
    s.check Sample.endless = .ok [Sample.scenario, Sample.scenario] ∧
      Sample.endless.slots = 8589934590 ∧
      Sample.endless.slotsPerDevice.toNat = 4294967295 ∧
      ((s.launch "s" "" Sample.endless [Sample.scenario, Sample.scenario]).1.world.registry.run?
        0).map RunState.totalUnits = some 4294967295 := by
  refine ⟨rfl, rfl, by decide +kernel, by decide +kernel⟩

end Session

end DeviceSuite
