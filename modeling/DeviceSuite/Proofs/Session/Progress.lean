import DeviceSuite.Proofs.Run.WritingOff
import DeviceSuite.Proofs.Session.Turns

/-!
# Progress

In every history of a session in which the devices of a run are requested once each, the slots of
the run are the sum of those of its devices, and neither of them ever gets less. The run counts its
slots with 64 bits, so this is read off its counter as long as all of its slots can be told by it;
otherwise the counter shows what is left of the sum. A device that works on a slot shows which
scenario and which repeat it is at, and has the slots before it behind it.
-/

namespace DeviceSuite

/-- The slots of a device are as many as they should be, when so many can be told. -/
theorem Request.slotsPerDevice_toNat {request : Request} (hrepeat : request.repeatCount ≠ 0)
    (hlt : request.repeatCount.toNat * request.scenarioIds.length < UInt32.size) :
    request.slotsPerDevice.toNat = request.repeatCount.toNat * request.scenarioIds.length := by
  have hpos : 0 < request.repeatCount.toNat :=
    Nat.pos_of_ne_zero fun h => hrepeat (UInt32.toNat_inj.1 h)
  have hlen : request.scenarioIds.length < UInt32.size :=
    Nat.lt_of_le_of_lt (Nat.le_mul_of_pos_left _ hpos) hlt
  have hmin : min (request.repeatCount.toNat * request.scenarioIds.length) (UInt32.size - 1) =
      request.repeatCount.toNat * request.scenarioIds.length :=
    Nat.min_eq_left (Nat.le_sub_one_of_lt hlt)
  rw [slotsPerDevice, saturatingMul, UInt32.toNat_ofNat_of_lt' hlen, hmin,
    UInt32.toNat_ofNat_of_lt' hlt]

/-- The count of a device that is requested once cannot overflow. -/
theorem Request.fits_of_nodup {request : Request} (hnodup : request.deviceIds.Nodup) (id : String) :
    request.deviceIds.count id * request.slotsPerDevice.toNat < UInt32.size := by
  have hcount := List.nodup_iff_count_le_one.1 hnodup id
  refine Nat.lt_of_le_of_lt ?_ request.slotsPerDevice.toNat_lt
  exact (Nat.mul_le_mul_right _ hcount).trans_eq (Nat.one_mul _)

/-- The slots of all devices of a request, as they are announced. -/
def Request.allSlots (request : Request) : Nat :=
  request.deviceIds.length * request.slotsPerDevice.toNat

/-- The slots that are announced are the product of the devices and the slots of each, as far as 64
bits can tell. -/
theorem RunState.totalUnits_new (runId suiteId suiteName : String) (request : Request)
    (startedAt : Instant) :
    (new runId suiteId suiteName request startedAt).totalUnits = .ofNat request.allSlots := by
  have hslots : request.slotsPerDevice.toUInt64 = .ofNat request.slotsPerDevice.toNat :=
    (UInt64.ofNat_uInt32ToNat _).symm
  rw [Request.allSlots, UInt64.ofNat_mul, ← hslots]
  rfl

/-- The slots that some devices have done, all together. -/
def RunState.slotsOfAll (s : RunState) (ids : List String) : Nat := (ids.map s.slotsDone).sum

/-- When no device falls back, neither does the run. -/
theorem RunState.slotsOfAll_mono {s s' : RunState} {ids : List String}
    (h : ∀ id ∈ ids, s.slotsDone id ≤ s'.slotsDone id) : s.slotsOfAll ids ≤ s'.slotsOfAll ids :=
  List.sum_le_sum h

namespace Books

variable {run : RunState} {b : Books}

/-- When every device is requested once, the slots of the run are those of its devices. -/
theorem Reckoned.units_eq (h : b.Reckoned run) (hnodup : run.request.deviceIds.Nodup) :
    b.state.completedUnits = .ofNat (b.state.slotsOfAll run.request.deviceIds) := by
  have hle := h.slots_le hnodup
  have hleft : ∑ id ∈ run.request.deviceIds.toFinset,
      (run.request.slotsPerDevice.toNat - b.state.slotsDone id) +
      ∑ id ∈ run.request.deviceIds.toFinset, b.state.slotsDone id =
      ∑ id ∈ run.request.deviceIds.toFinset, run.request.slotsPerDevice.toNat := by
    rw [← Finset.sum_add_distrib]
    exact Finset.sum_congr rfl fun id hid => Nat.sub_add_cancel (hle id (List.mem_toFinset.1 hid))
  have hright : ∑ id ∈ run.request.deviceIds.toFinset,
      max run.request.slotsPerDevice.toNat (counted run.request.deviceIds b.share id) =
      ∑ id ∈ run.request.deviceIds.toFinset, run.request.slotsPerDevice.toNat := by
    refine Finset.sum_congr rfl fun id hid => Nat.max_eq_left ?_
    obtain ⟨place, hplace⟩ := List.getElem?_of_mem (List.mem_toFinset.1 hid)
    rw [counted_of_nodup hnodup hplace]
    exact h.share place
  have hsum : ∑ id ∈ run.request.deviceIds.toFinset, b.state.slotsDone id =
      b.state.slotsOfAll run.request.deviceIds := List.sum_toFinset _ hnodup
  obtain ⟨units, hunits, hlevel⟩ := h.level
  rw [hunits]
  congr 1
  omega

/-- The devices have not done more slots than they should. -/
theorem Reckoned.sum_le (h : b.Reckoned run) (hnodup : run.request.deviceIds.Nodup) :
    b.state.slotsOfAll run.request.deviceIds ≤ run.request.allSlots := by
  rw [Request.allSlots, ← Nat.nsmul_eq_mul, ← List.length_map b.state.slotsDone]
  apply List.sum_le_card_nsmul _ _
  intro slots hslots
  obtain ⟨id, hid, rfl⟩ := List.mem_map.1 hslots
  exact h.slots_le hnodup id hid

/-- A counter that can tell all slots shows those that are done. -/
theorem Reckoned.units_toNat (h : b.Reckoned run) (hnodup : run.request.deviceIds.Nodup)
    (hfits : run.request.allSlots < UInt64.size) :
    b.state.completedUnits.toNat = b.state.slotsOfAll run.request.deviceIds := by
  rw [h.units_eq hnodup]
  exact UInt64.toNat_ofNat_of_lt' (Nat.lt_of_le_of_lt (h.sum_le hnodup) hfits)

end Books

namespace Session

variable {σ : Type} {s s' : Session σ} {calls : Calls} {n : Nat} {request : Request}
  {scenarios : List Graph}

/-- The slots of a run under way are reckoned, as long as no count of a device can overflow. -/
theorem Underway.reckoned (hu : Underway s calls n request scenarios)
    (hlt : request.repeatCount.toNat * request.scenarioIds.length < UInt32.size)
    (hcap : ∀ id, request.deviceIds.count id * request.slotsPerDevice.toNat < UInt32.size) :
    s.Numbered ∧ scenarios.length = request.scenarioIds.length ∧
      0 < request.slotsPerDevice.toNat ∧
      request.slotsPerDevice.toNat = request.repeatCount.toNat * request.scenarioIds.length ∧
      ∃ runId suiteId suiteName startedAt b,
        (reckoning (.new runId suiteId suiteName request startedAt) n scenarios hcap).Observed
          s calls b := by
  obtain ⟨before, hcheck⟩ := hu.checked
  obtain ⟨-, hscenarios, hrepeat, -⟩ := check_ok hcheck
  obtain ⟨hn, runId, suiteId, suiteName, startedAt, hobserved⟩ := hu.observed
  have hlen := check_length hcheck
  have hslots := Request.slotsPerDevice_toNat hrepeat hlt
  have hpos : 0 < request.slotsPerDevice.toNat := by
    rw [hslots]
    refine Nat.mul_pos (Nat.pos_of_ne_zero fun h => hrepeat (UInt32.toNat_inj.1 h)) ?_
    exact List.length_pos_iff.2 hscenarios
  obtain ⟨b, hb⟩ := hobserved (reckoning _ n scenarios hcap)
    (reckoning_joined (RunState.fresh_new ..) (hlen ▸ hslots.symm) hpos)
  exact ⟨hn, hlen, hpos, hslots, runId, suiteId, suiteName, startedAt, b, hb⟩

/-- The slots of a run are those of its devices, none of which has more than it should. The counter
of the run shows them as they are unless there are more than it can tell. -/
structure Tallies (request : Request) (state : RunState) : Prop where
  entries : ∀ id ∈ request.deviceIds, (state.device? id).isSome = true
  slots : ∀ id ∈ request.deviceIds, state.slotsDone id ≤ request.slotsPerDevice.toNat
  bound : state.slotsOfAll request.deviceIds ≤ request.allSlots
  counter : state.completedUnits = .ofNat (state.slotsOfAll request.deviceIds)
  units : request.allSlots < UInt64.size →
    state.completedUnits.toNat = state.slotsOfAll request.deviceIds
  total : request.allSlots < UInt64.size → state.completedUnits ≤ state.totalUnits

/-- A device shows the scenario at a position in a repeat, with all slots before it done. -/
structure AtSlot (request : Request) (scenarios : List Graph) (state : RunState)
    (id scenarioId : String) (iteration : UInt32) (index : Nat) : Prop where
  scenario : (scenarios[index]?).map Graph.id = some scenarioId
  first : 0 < iteration.toNat
  last : iteration ≤ request.repeatCount
  shows : ∃ p, state.device? id = some p ∧ p.status = .running ∧ p.iteration = iteration ∧
    p.scenarioIndex.toNat = index ∧
    p.completedSlots.toNat = (iteration.toNat - 1) * request.scenarioIds.length + index

/-- The progress of a run under way, after so many calls. -/
structure Progresses (s : Session σ) (calls : Calls) (n : Nat) (request : Request)
    (scenarios : List Graph) (state : RunState) : Prop where
  run : s.world.registry.run? n = some state
  tallies : Tallies request state
  rises : ∀ more s', History s more s' → ∃ state', s'.world.registry.run? n = some state' ∧
    (∀ id ∈ request.deviceIds, state.slotsDone id ≤ state'.slotsDone id) ∧
    state.slotsOfAll request.deviceIds ≤ state'.slotsOfAll request.deviceIds ∧
    (request.allSlots < UInt64.size → state.completedUnits ≤ state'.completedUnits)
  handy : ∀ l : Role, l.run = n → Calls.Handy (calls.filter fun e => e.label = l)
  working : ∀ place id scenarioId iteration k, request.deviceIds[place]? = some id →
    (∀ crew, s.world.crew? n = some crew → place ∉ crew.reports.map (·.1)) →
    Calls.hand (calls.filter fun e => e.label = .tour n place id) = .holds scenarioId iteration k →
    ∃ index, k = (iteration.toNat - 1) * request.scenarioIds.length + index ∧
      AtSlot request scenarios state id scenarioId iteration index

/-- The number of a slot tells its repeat and the position of its scenario. -/
theorem atSlot_of_showing {run : RunState} {b : Books} {id scenarioId : String}
    {iteration : UInt32} {k : Nat} (h : b.Showing run scenarios id scenarioId iteration k)
    (hnodup : run.request.deviceIds.Nodup)
    (hlen : scenarios.length = run.request.scenarioIds.length)
    (hslots : run.request.slotsPerDevice.toNat =
      run.request.repeatCount.toNat * run.request.scenarioIds.length) :
    ∃ index, k = (iteration.toNat - 1) * run.request.scenarioIds.length + index ∧
      AtSlot run.request scenarios b.state id scenarioId iteration index := by
  have hk : k < run.request.repeatCount.toNat * run.request.scenarioIds.length := hslots ▸ h.lt
  have hrepeat : k / run.request.scenarioIds.length < run.request.repeatCount.toNat :=
    Nat.div_lt_of_lt_mul (Nat.mul_comm _ _ ▸ hk)
  have hiteration : iteration.toNat = k / run.request.scenarioIds.length + 1 := by
    have hfits := run.request.repeatCount.toNat_lt
    rw [h.iteration, hlen]
    exact UInt32.toNat_ofNat_of_lt' (Nat.lt_of_le_of_lt hrepeat hfits)
  have hindex : (k / run.request.scenarioIds.length) * run.request.scenarioIds.length +
      k % run.request.scenarioIds.length = k := Nat.div_add_mod' k _
  have hfits : k < UInt32.size := Nat.lt_trans h.lt run.request.slotsPerDevice.toNat_lt
  have hprevious : iteration.toNat - 1 = k / run.request.scenarioIds.length := by
    rw [hiteration, Nat.add_sub_cancel]
  refine ⟨k % run.request.scenarioIds.length, by rw [hprevious, hindex], hlen ▸ h.scenario,
    hiteration ▸ Nat.succ_pos _, ?_, _, h.device hnodup, rfl, h.iteration.symm, ?_, ?_⟩
  · exact UInt32.le_iff_toNat_le.2 (hiteration ▸ hrepeat)
  · rw [hlen]
    exact UInt32.toNat_ofNat_of_lt' (Nat.lt_of_le_of_lt (Nat.mod_le _ _) hfits)
  · rw [hprevious, hindex]
    exact UInt32.toNat_ofNat_of_lt' hfits

/-- The progress of a run that is under way adds up in every state: the units done are the sum of
what the devices show, none of which is more than it should be, none falls back, and a device at
work shows the slot that it has in hand. -/
theorem progress_kept (hu : Underway s calls n request scenarios)
    (hnodup : request.deviceIds.Nodup)
    (hlt : request.repeatCount.toNat * request.scenarioIds.length < UInt32.size) :
    ∃ state, s.Progresses calls n request scenarios state := by
  have hcap := Request.fits_of_nodup hnodup
  obtain ⟨hn, hlen, -, hslots, runId, suiteId, suiteName, startedAt, b, hb⟩ := hu.reckoned hlt hcap
  obtain ⟨⟨hof, hs, hreckoned, hshown⟩, -⟩ := id hb
  refine ⟨b.state, hof.1, ⟨hreckoned.entries, hreckoned.slots_le hnodup, hreckoned.sum_le hnodup,
      hreckoned.units_eq hnodup, hreckoned.units_toNat hnodup, fun hfits => ?_⟩,
    fun more s' hhistory => ?_, fun l hl => hof.own hl ▸ hshown.handy l,
    fun place id scenarioId iteration k hid hplace hhand => ?_⟩
  · have htotal : b.state.totalUnits = .ofNat request.allSlots :=
      hs.totalUnits.trans (RunState.totalUnits_new ..)
    rw [UInt64.le_iff_toNat_le, hreckoned.units_toNat hnodup hfits, htotal,
      UInt64.toNat_ofNat_of_lt' hfits]
    exact hreckoned.sum_le hnodup
  · obtain ⟨-, b', ⟨⟨hof', -, hreckoned', -⟩, -⟩, hadvances⟩ := hb.history hn hhistory
    have hmore := (hadvances hnodup).slots
    refine ⟨b'.state, hof'.1, hmore, RunState.slotsOfAll_mono hmore, fun hfits => ?_⟩
    rw [UInt64.le_iff_toNat_le, hreckoned.units_toNat hnodup hfits,
      hreckoned'.units_toNat hnodup hfits]
    exact RunState.slotsOfAll_mono hmore
  · rw [← hof.own (l := .tour n place id) rfl] at hhand
    exact atSlot_of_showing (hshown.shows place id scenarioId iteration k hid
      (hplace b.crew hof.2.1) hhand) hnodup hlen hslots

/-- In the sample a device is filmed while the other has not begun. -/
theorem progress_kept_sample :
    let start := Sample.launched Sample.described (Sample.filmed ["d", "e"])
    let s := start.takeTurns [0, 1]
    let calls := start.callsOfTurns [0, 1]
    Calls.hand (calls.filter fun e => e.label = .tour 0 0 "d") = .holds "g" 1 0 ∧
      ∃ state, s.Progresses calls 0 (Sample.filmed ["d", "e"]) [Sample.scenario] state := by
  have able : (Sample.launched Sample.described
      (Sample.filmed ["d", "e"])).areAble [0, 1] = true := by decide +kernel
  exact ⟨by decide +kernel,
    progress_kept (Sample.underway (Sample.check_filmed _) able) (by decide) (by decide)⟩

end Session

end DeviceSuite
