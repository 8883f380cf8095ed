import DeviceSuite.Proofs.Run.Accounting
import DeviceSuite.Proofs.Session.Progress
import Mathlib.Algebra.BigOperators.Ring.Finset

/-!
# Completion

A run that is over is complete if every device was requested once: all slots are counted, also those
that devices never came to. A device that is requested twice has its slots expected twice but shows
only one progress, so a run with such a device is never complete, as long as its count does not
overflow.
-/

namespace DeviceSuite

/-- Every slot of a run is counted, and every device is at rest with all of its own. -/
structure Completed (request : Request) (state : RunState) : Prop where
  units : state.completedUnits = state.totalUnits
  devices : ∀ id ∈ request.deviceIds, ∃ p, state.device? id = some p ∧
    p.completedSlots = request.slotsPerDevice ∧
    (p.status = .completed ∨ p.status = .partiallyFailed)

/-- A device of a completed run has all of its slots done. -/
theorem Completed.slotsDone {request : Request} {state : RunState} (h : Completed request state)
    {id : String} (hid : id ∈ request.deviceIds) :
    state.slotsDone id = request.slotsPerDevice.toNat := by
  obtain ⟨p, hp, hslots, -⟩ := h.devices id hid
  rw [state.slotsDone_of_device? id hp, hslots]

namespace Books

variable {run : RunState} {b : Books}

/-- When all is settled, a device that was requested once is at rest with all of its slots. -/
theorem Reckoned.device_completed (h : b.Reckoned run) (hs : b.Sound run) (hsettled : b.Settled run)
    (hnodup : run.request.deviceIds.Nodup) {id : String} (hid : id ∈ run.request.deviceIds) :
    ∃ p, b.state.device? id = some p ∧ p.completedSlots = run.request.slotsPerDevice ∧
      (p.status = .completed ∨ p.status = .partiallyFailed) := by
  obtain ⟨place, hplace⟩ := List.getElem?_of_mem hid
  have hlt := (List.getElem?_eq_some_iff.1 hplace).1
  obtain ⟨⟨_, outcome⟩, hmem, rfl⟩ := List.mem_map.1 (hs.mem_reports hsettled.1 hlt)
  by_cases harrived : Arrived outcome
  · obtain ⟨p, hp, hrest⟩ := h.rest hnodup _ _ _ hmem harrived hplace
    have hdone : b.state.slotsDone id = run.request.slotsPerDevice.toNat := by
      rcases h.slots id hid with hdone | ⟨hdone, -⟩
      · rw [hdone, counted_of_nodup hnodup hplace, h.arrived _ _ hmem harrived]
      · exact hdone
    rw [b.state.slotsDone_of_device? id hp] at hdone
    exact ⟨p, hp, UInt32.toNat_inj.1 hdone, hrest⟩
  · obtain ⟨p, hp, hslots, hstatus⟩ := hsettled.2 _ _ _ hmem harrived hplace
    exact ⟨p, hp, hslots, .inr hstatus⟩

/-- A settled run is completed if no device is requested twice. -/
theorem Reckoned.completed (h : b.Reckoned run) (hs : b.Sound run) (hsettled : b.Settled run)
    (hnodup : run.request.deviceIds.Nodup)
    (htotal : run.totalUnits = .ofNat run.request.allSlots) :
    Completed run.request b.state := by
  have hdevices : ∀ id ∈ run.request.deviceIds, ∃ p, b.state.device? id = some p ∧
      p.completedSlots = run.request.slotsPerDevice ∧
      (p.status = .completed ∨ p.status = .partiallyFailed) :=
    fun _ hid => h.device_completed hs hsettled hnodup hid
  refine ⟨?_, hdevices⟩
  have hdone : run.request.deviceIds.map b.state.slotsDone =
      run.request.deviceIds.map fun _ => run.request.slotsPerDevice.toNat := by
    apply List.map_congr_left
    intro id hid
    obtain ⟨p, hp, hslots, -⟩ := hdevices id hid
    rw [b.state.slotsDone_of_device? id hp, hslots]
  rw [h.units_eq hnodup, RunState.slotsOfAll, hdone, hs.totalUnits, htotal, List.map_const',
    List.sum_replicate, Nat.nsmul_eq_mul, Request.allSlots]

/-- A device that is requested twice and shows all of its slots has not counted them twice. -/
theorem Reckoned.counted_lt_of_repeated (h : b.Reckoned run)
    (hpos : 0 < run.request.slotsPerDevice.toNat) {id : String}
    (hcount : 1 < run.request.deviceIds.count id)
    (hdone : b.state.slotsDone id = run.request.slotsPerDevice.toNat) :
    max run.request.slotsPerDevice.toNat (counted run.request.deviceIds b.share id) <
      run.request.deviceIds.count id * run.request.slotsPerDevice.toNat := by
  have hm : run.request.slotsPerDevice.toNat <
      run.request.deviceIds.count id * run.request.slotsPerDevice.toNat :=
    (Nat.one_mul _).symm.trans_lt (Nat.mul_lt_mul_of_pos_right hcount hpos)
  refine Nat.max_lt.2 ⟨hm, ?_⟩
  rcases h.slots id (List.count_pos_iff.1 (Nat.lt_trans Nat.one_pos hcount)) with
    hcounted | ⟨-, -, place, outcome, hmem, hnot, hid⟩
  · rw [← hcounted, hdone]
    exact hm
  · exact counted_lt h.share hid (h.lost place outcome hmem hnot)

/-- A run is completed only if no device is requested twice, as long as its units fit into a word.
-/
theorem Reckoned.nodup_of_completed (h : b.Reckoned run) (hs : b.Sound run)
    (hpos : 0 < run.request.slotsPerDevice.toNat)
    (htotal : run.totalUnits = .ofNat run.request.allSlots)
    (hfits : run.request.allSlots < UInt64.size)
    (hcompleted : Completed run.request b.state) : run.request.deviceIds.Nodup := by
  apply Decidable.byContradiction
  intro hrepeated
  obtain ⟨id, hcount⟩ : ∃ id, 1 < run.request.deviceIds.count id := by
    simpa [List.nodup_iff_count_le_one] using hrepeated
  have hmem : id ∈ run.request.deviceIds := List.count_pos_iff.1 (Nat.lt_trans Nat.one_pos hcount)
  have hless : ∑ x ∈ run.request.deviceIds.toFinset,
      max run.request.slotsPerDevice.toNat (counted run.request.deviceIds b.share x) <
      ∑ x ∈ run.request.deviceIds.toFinset,
        run.request.deviceIds.count x * run.request.slotsPerDevice.toNat := by
    refine Finset.sum_lt_sum (fun x hx => ?_) ⟨id, List.mem_toFinset.2 hmem, ?_⟩
    · have hx : 0 < run.request.deviceIds.count x := List.count_pos_iff.2 (List.mem_toFinset.1 hx)
      exact Nat.max_le.2 ⟨Nat.le_mul_of_pos_left _ hx, counted_le h.share⟩
    · exact h.counted_lt_of_repeated hpos hcount (hcompleted.slotsDone hmem)
  have hopen : ∑ x ∈ run.request.deviceIds.toFinset,
      (run.request.slotsPerDevice.toNat - b.state.slotsDone x) = 0 := by
    apply Finset.sum_eq_zero
    intro x hx
    rw [hcompleted.slotsDone (List.mem_toFinset.1 hx), Nat.sub_self]
  obtain ⟨units, hunits, hlevel⟩ := h.level
  rw [← Finset.sum_mul, List.sum_toFinset_count_eq_length, ← Request.allSlots] at hless
  have hlt : units < run.request.allSlots := by omega
  have heq := congrArg UInt64.toNat hcompleted.units
  rw [hs.totalUnits, htotal, hunits, UInt64.toNat_ofNat_of_lt' (Nat.lt_trans hlt hfits),
    UInt64.toNat_ofNat_of_lt' hfits] at heq
  exact Nat.lt_irrefl _ (heq ▸ hlt)

end Books

namespace Session

variable {σ : Type} {s : Session σ} {calls : Calls} {n : Nat} {request : Request}
  {scenarios : List Graph} {result : SuiteResult}

/-- A run with a result has counted every slot and brought every device to rest if no device is
requested twice. It has done so for no other request, as long as the slots of each device and of all
of them fit into words. -/
theorem completed_iff_nodup (hu : Underway s calls n request scenarios)
    (hlt : request.repeatCount.toNat * request.scenarioIds.length < UInt32.size)
    (hr : s.result? n = some result) :
    ∃ state, s.world.registry.run? n = some state ∧
      (request.deviceIds.Nodup → Completed request state) ∧
      ((∀ id, request.deviceIds.count id * request.slotsPerDevice.toNat < UInt32.size) →
        request.allSlots < UInt64.size →
        (Completed request state ↔ request.deviceIds.Nodup)) := by
  obtain ⟨-, runId, suiteId, suiteName, startedAt, hobserved⟩ := hu.observed
  obtain ⟨b, ⟨hof, -⟩, -⟩ := hobserved _ (accounting_joined _ n scenarios)
  have hcompleted (hcap : ∀ id,
      request.deviceIds.count id * request.slotsPerDevice.toNat < UInt32.size) :
      (request.deviceIds.Nodup → Completed request b.state) ∧
        (request.allSlots < UInt64.size →
          Completed request b.state → request.deviceIds.Nodup) := by
    obtain ⟨-, -, hpos, -, runId, suiteId, suiteName, startedAt, b', ⟨hof', hs, hreckoned, -⟩, -⟩ :=
      hu.reckoned hlt hcap
    have hstate : b'.state = b.state := Option.some.inj (hof'.1.symm.trans hof.1)
    have hresult : b'.crew.result = some result := (result?_of_books hof').symm.trans hr
    have hsettled := hreckoned.result (hresult ▸ rfl)
    have htotal := RunState.totalUnits_new runId suiteId suiteName request startedAt
    exact hstate ▸ ⟨fun hnodup => hreckoned.completed hs hsettled hnodup htotal,
      fun hfits => hreckoned.nodup_of_completed hs hpos htotal hfits⟩
  exact ⟨b.state, hof.1, fun hnodup => (hcompleted (Request.fits_of_nodup hnodup)).1 hnodup,
    fun hcap hfits => ⟨(hcompleted hcap).2 hfits, (hcompleted hcap).1⟩⟩

/-- The run of the sample is complete, though its devices cannot describe themselves. -/
theorem completed_iff_nodup_sample :
    let s := (Sample.launched Sample.offline (Sample.request ["d", "e"])).takeTurns [0, 1, 2, 0]
    (s.result? 0).isSome = true ∧ ∃ state, s.world.registry.run? 0 = some state ∧
      Completed (Sample.request ["d", "e"]) state := by
  have able : (Sample.launched Sample.offline
      (Sample.request ["d", "e"])).areAble [0, 1, 2, 0] = true := by decide +kernel
  have hover : (((Sample.launched Sample.offline
      (Sample.request ["d", "e"])).takeTurns [0, 1, 2, 0]).result? 0).isSome = true := by
    decide +kernel
  obtain ⟨result, hr⟩ := Option.isSome_iff_exists.1 hover
  obtain ⟨state, hstate, hcompleted, -⟩ :=
    completed_iff_nodup (Sample.underway (Sample.check_request _) able) (by decide) hr
  exact ⟨hover, state, hstate, hcompleted (by decide)⟩

/-- A device that is requested twice and cannot describe itself leaves half of the slots open. The
handle of the run, which nobody has used up, says so when the run is over. -/
theorem repeated_not_completed :
    let s := (Sample.launched Sample.offline (Sample.request ["d", "d"])).takeTurns [0, 1, 2, 0]
    s.Underway ((Sample.launched Sample.offline (Sample.request ["d", "d"])).callsOfTurns
        [0, 1, 2, 0]) 0 (Sample.request ["d", "d"]) [Sample.scenario] ∧
      (s.result? 0).isSome = true ∧
      (s.snapshot? 0).map (fun p => (p.completedUnits, p.totalUnits)) = some (1, 2) ∧
      ∀ state, s.world.registry.run? 0 = some state →
        state.completedUnits = 1 ∧ state.totalUnits = 2 ∧
          ¬ Completed (Sample.request ["d", "d"]) state := by
  have able : (Sample.launched Sample.offline
      (Sample.request ["d", "d"])).areAble [0, 1, 2, 0] = true := by decide +kernel
  have hunits : (((Sample.launched Sample.offline (Sample.request ["d", "d"])).takeTurns
      [0, 1, 2, 0]).world.registry.run? 0).map
        (fun state => (state.completedUnits, state.totalUnits)) = some (1, 2) := by decide +kernel
  refine ⟨Sample.underway (Sample.check_repeated _) able, by decide +kernel, by decide +kernel, ?_⟩
  intro state hstate
  rw [hstate] at hunits
  obtain ⟨hcompleted, htotal⟩ := Prod.mk.inj (Option.some.inj hunits)
  refine ⟨hcompleted, htotal, ?_⟩
  intro h
  have heq := h.units
  rw [hcompleted, htotal] at heq
  cases heq

end Session

end DeviceSuite
