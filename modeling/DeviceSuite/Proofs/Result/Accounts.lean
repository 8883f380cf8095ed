import DeviceSuite.Proofs.Result.Counts
import DeviceSuite.Run.Role
import DeviceSuite.Run.Tour

/-!
# The results of all slots

A device adds one result after the other, for the slots in their order. As long as a slot is
skipped only after a stop, and run only before one, the skipped slots are the last.
-/

namespace DeviceSuite

namespace DeviceResult

/-- The results of a device that has done so many slots. -/
structure Accounts (d : DeviceResult) (scenarios : List Graph) (k : Nat) (stopped : Bool) :
    Prop where
  length : d.scenarioResults.length = k
  slot : ∀ j r, d.scenarioResults[j]? = some r →
    ∃ g, scenarios[j % scenarios.length]? = some g ∧ r.scenarioId = g.id ∧
      r.scenarioName = g.name ∧ r.iteration = .ofNat (j / scenarios.length + 1)
  suffix : ∃ done, done ≤ k ∧ (done < k → stopped = true) ∧
    ∀ j r, d.scenarioResults[j]? = some r → (r.status = .skipped ↔ done ≤ j)
  skipped : ∀ r ∈ d.scenarioResults, r.status = .skipped →
    r.stepResults = [] ∧ r.error = some Tour.skipText
  stats : d.stats = DeviceStats.zero.recordAll d.scenarioResults

variable {d : DeviceResult} {scenarios : List Graph} {k : Nat} {stopped : Bool} {r : ScenarioResult}

/-- A result of a device without any slot accounts for the first slots, of which there are none. -/
theorem accounts_blank (id : String) (environment : Option Environment) (appInfo : Option AppInfo)
    (scenarios : List Graph) (stopped : Bool) :
    { DeviceResult.new id with environment := environment, appInfo := appInfo }.Accounts
      scenarios 0 stopped where
  length := rfl
  slot _ _ h := by simp [DeviceResult.new] at h
  suffix := ⟨0, Nat.le_refl 0, nofun, fun _ _ h => by simp [DeviceResult.new] at h⟩
  skipped := nofun
  stats := rfl

/-- Slots that are accounted for remain so when the flag is raised. -/
theorem Accounts.mono (h : d.Accounts scenarios k stopped) {stopped' : Bool}
    (hs : stopped = true → stopped' = true) : d.Accounts scenarios k stopped' := by
  obtain ⟨done, hle, hlt, hdone⟩ := h.suffix
  exact ⟨h.length, h.slot, ⟨done, hle, hs ∘ hlt, hdone⟩, h.skipped, h.stats⟩

/-- A result that is added stands behind those that were there. -/
theorem getElem?_push {j : Nat} {r' : ScenarioResult}
    (h : (d.push r).scenarioResults[j]? = some r') :
    d.scenarioResults[j]? = some r' ∧ j < d.scenarioResults.length ∨
      j = d.scenarioResults.length ∧ r' = r := by
  simp only [push, List.getElem?_append] at h
  split at h
  · next hj => exact .inl ⟨h, hj⟩
  · next hj =>
    obtain ⟨hj', hr⟩ := List.getElem?_eq_some_iff.1 h
    refine .inr ⟨?_, by simpa using hr.symm⟩
    simp only [List.length_cons, List.length_nil] at hj'
    omega

/-- One more slot is done. A slot is run only as long as no stop is requested, and skipped only
when one is. -/
theorem Accounts.push (h : d.Accounts scenarios k stopped) {g : Graph} {stopped' : Bool}
    (hg : scenarios[k % scenarios.length]? = some g) (hid : r.scenarioId = g.id)
    (hname : r.scenarioName = g.name) (hit : r.iteration = .ofNat (k / scenarios.length + 1))
    (hrun : r.status ≠ .skipped → stopped = false)
    (hskip : r.status = .skipped →
      stopped' = true ∧ r.stepResults = [] ∧ r.error = some Tour.skipText) :
    (d.push r).Accounts scenarios (k + 1) stopped' := by
  obtain ⟨done, hle, hlt, hdone⟩ := h.suffix
  constructor
  case length => simp [DeviceResult.push, h.length]
  case slot =>
    intro j r' hr'
    rcases getElem?_push hr' with ⟨hr', -⟩ | ⟨rfl, rfl⟩
    · exact h.slot j r' hr'
    · exact ⟨g, h.length ▸ hg, hid, hname, h.length ▸ hit⟩
  case suffix =>
    -- A skipped slot belongs to the suffix; a slot that is run leaves it empty.
    by_cases hr : r.status = .skipped
    · refine ⟨done, by omega, fun _ => (hskip hr).1, ?_⟩
      intro j r' hr'
      rcases getElem?_push hr' with ⟨hr', -⟩ | ⟨rfl, rfl⟩
      · exact hdone j r' hr'
      · exact iff_of_true hr (h.length ▸ hle)
    · have hk : ¬ done < k := by
        intro hdk
        rw [hrun hr] at hlt
        cases hlt hdk
      refine ⟨k + 1, Nat.le_refl _, fun hlt => by omega, ?_⟩
      intro j r' hr'
      rcases getElem?_push hr' with ⟨hr', hj⟩ | ⟨rfl, rfl⟩
      · rw [hdone j r' hr']
        have hj' := h.length ▸ hj
        omega
      · have hlen := h.length
        exact iff_of_false hr (by omega)
  case skipped =>
    intro r' hr'
    simp only [DeviceResult.push, List.mem_append, List.mem_singleton] at hr'
    rcases hr' with hr' | rfl
    · exact h.skipped r' hr'
    · exact fun hr => (hskip hr).2
  case stats => simp [DeviceResult.push, DeviceStats.recordAll, h.stats]

/-- The results of a device for all slots of a request, in their order: those that were skipped are
the last, say so, and are there only after a stop; and the counts are those of the results. -/
structure Covers (d : DeviceResult) (request : Request) (scenarios : List Graph) (stopped : Bool) :
    Prop where
  length : d.scenarioResults.length = request.repeatCount.toNat * request.scenarioIds.length
  slot : ∀ k r, d.scenarioResults[k]? = some r →
    ∃ g, scenarios[k % request.scenarioIds.length]? = some g ∧ r.scenarioId = g.id ∧
      r.scenarioName = g.name ∧ r.iteration.toNat = k / request.scenarioIds.length + 1
  suffix : ∃ done, (done < d.scenarioResults.length → stopped = true) ∧
    ∀ k r, d.scenarioResults[k]? = some r → (r.status = .skipped ↔ done ≤ k)
  skipped : ∀ r ∈ d.scenarioResults, r.status = .skipped →
    r.stepResults = [] ∧ r.error = some Tour.skipText
  counted : d.Counted

/-- A device that accounts for all of its slots covers them. -/
theorem Accounts.covers {d : DeviceResult} {request : Request} {scenarios : List Graph}
    {stopped : Bool} (hlen : scenarios.length = request.scenarioIds.length)
    (hlt : request.repeatCount.toNat * request.scenarioIds.length < UInt32.size)
    (h : d.Accounts scenarios (request.repeatCount.toNat * scenarios.length) stopped) :
    d.Covers request scenarios stopped := by
  rw [hlen] at h
  obtain ⟨done, -, hstop, hdone⟩ := h.suffix
  constructor
  case length => exact h.length
  case slot =>
    intro k r hr
    obtain ⟨g, hg, hid, hname, hit⟩ := h.slot k r hr
    have hk : k < request.repeatCount.toNat * request.scenarioIds.length :=
      h.length ▸ (List.getElem?_eq_some_iff.1 hr).1
    have hdiv : k / request.scenarioIds.length < request.repeatCount.toNat :=
      Nat.div_lt_of_lt_mul (Nat.mul_comm .. ▸ hk)
    have hword := request.repeatCount.toNat_lt_size
    rw [hlen] at hg hit
    refine ⟨g, hg, hid, hname, ?_⟩
    rw [hit, UInt32.toNat_ofNat_of_lt' (by omega)]
  case suffix => exact ⟨done, h.length.symm ▸ hstop, hdone⟩
  case skipped => exact h.skipped
  case counted => exact counted_of_recordAll h.stats (h.length.symm ▸ hlt)

end DeviceResult

/-- The devices among the outcomes of tours that have a result. -/
def okayed (outcomes : List (Option TourResult)) : List DeviceResult :=
  outcomes.filterMap fun outcome => outcome.bind Except.toOption

namespace SuiteResult

/-- The result of a run is made of the results of its devices. -/
structure Collects (r : SuiteResult) (request : Request) (outcomes : List (Option TourResult)) :
    Prop where
  devices : r.deviceResults = okayed outcomes
  stats : r.stats =
    .aggregate (.ofNat request.scenarioIds.length) (.ofNat request.deviceIds.length) r.deviceResults

end SuiteResult

/-- A result among the outcomes of the tours is that of a tour that has ended. -/
theorem mem_okayed {crew : Crew} {d : DeviceResult} (h : d ∈ okayed crew.outcomes) :
    ∃ place, (place, some (.ok d)) ∈ crew.reports := by
  obtain ⟨outcome, hmem, hd⟩ := List.mem_filterMap.1 h
  obtain ⟨place, -, hplace⟩ := List.mem_map.1 hmem
  have houtcome : outcome = some (.ok d) := by
    rcases outcome with _ | (e | d') <;> cases hd
    rfl
  refine ⟨place, ?_⟩
  obtain ⟨before, after, hreports, -⟩ :=
    List.lookup_eq_some_iff.1 (Option.join_eq_some_iff.1 (hplace.trans houtcome))
  simp [hreports]

/-- No more results are collected than there are tours. -/
theorem length_okayed_le (crew : Crew) : (okayed crew.outcomes).length ≤ crew.size := by
  apply (List.length_filterMap_le _ _).trans
  simp [Crew.outcomes]

/-- The devices whose tours ended with a result, in the order in which they were requested. -/
def okayedIds (ids : List String) (outcomes : List (Option TourResult)) : List String :=
  ((ids.zip outcomes).filter fun e => (e.2.bind Except.toOption).isSome).map (·.1)

/-- The devices with a result stand in the order of the request. -/
theorem okayedIds_sublist (ids : List String) (outcomes : List (Option TourResult)) :
    (okayedIds ids outcomes).Sublist ids := by
  induction ids generalizing outcomes with
  | nil => exact List.Sublist.refl _
  | cons id ids ih =>
    obtain _ | ⟨outcome, outcomes⟩ := outcomes
    · exact List.nil_sublist _
    · rcases outcome with _ | (e | d)
      · exact (ih outcomes).cons _
      · exact (ih outcomes).cons _
      · exact (ih outcomes).cons_cons _

/-- The results of the tours name the devices that have one, in their order. -/
theorem okayed_ids {ids : List String} {outcomes : List (Option TourResult)}
    (hlen : outcomes.length = ids.length)
    (hids : ∀ id d, (id, some (.ok d)) ∈ ids.zip outcomes → d.deviceId = id) :
    (okayed outcomes).map DeviceResult.deviceId = okayedIds ids outcomes := by
  induction ids generalizing outcomes with
  | nil =>
    obtain rfl := List.length_eq_zero_iff.1 hlen
    rfl
  | cons id ids ih =>
    obtain _ | ⟨outcome, outcomes⟩ := outcomes
    · cases hlen
    have ih := ih (Nat.succ.inj hlen) fun id' d hmem => hids id' d (List.mem_cons_of_mem _ hmem)
    rcases outcome with _ | (e | d)
    · exact ih
    · exact ih
    · exact congrArg₂ List.cons (hids id d List.mem_cons_self) ih
end DeviceSuite
