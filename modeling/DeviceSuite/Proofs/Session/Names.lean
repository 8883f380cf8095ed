import DeviceSuite.Proofs.Run.Tenure
import DeviceSuite.Proofs.Session.Ending

/-!
# The names of the runs

Every run of a session is under way from its launch on, and keeps the identifier that was drawn for
its number. It is listed as active under this identifier only, so where no identifier is drawn twice
the list tells which run is meant.
-/

namespace DeviceSuite

namespace Session

variable {σ : Type} {s s' : Session σ} {calls more : Calls} {n : Nat} {request : Request}
  {scenarios : List Graph}

/-- Every run of a session is under way. -/
theorem Opened.underway (ho : Opened s) (hlt : n < s.world.registry.runs.length) :
    ∃ calls request scenarios, s.Underway calls n request scenarios := by
  induction ho generalizing n with
  | setUp h =>
    rw [(setUp_blank h).2.2.1] at hlt
    exact absurd hlt (Nat.not_lt_zero n)
  | @next s s' more ho hnext ih =>
    have hold : n < s.world.registry.runs.length →
        ∃ calls request scenarios, s'.Underway calls n request scenarios := by
      intro hlt
      obtain ⟨calls, request, scenarios, hu⟩ := ih hlt
      exact ⟨_, request, scenarios, hu.next hnext⟩
    cases hnext with
    | turn able => exact hold ((ho.numbered.numbers_takeTurn able).1 ▸ hlt)
    | clock time => exact hold hlt
    | stop runId => exact hold ((Registry.stop_runs_length _ runId).subst hlt)
    | stopRun number => exact hold ((Registry.update_runs_length _ number _).subst hlt)
    | @launch request scenarios suiteId suiteName accepted =>
      rw [runs_length_launch] at hlt
      rcases Nat.lt_succ_iff_lt_or_eq.1 hlt with hlt | rfl
      · exact hold hlt
      · exact ⟨[], request, scenarios, .launch suiteId suiteName ho accepted⟩
    | release number => exact hold hlt
    | insertScenario g => exact hold hlt
    | removeScenario id => exact hold hlt
    | disconnect id => exact hold hlt

/-- The tasks of a run observe every accord that they would observe from the beginning, and the run
began with the identifier of its number. -/
theorem Underway.named (hu : Underway s calls n request scenarios) :
    ∃ run : RunState, run.runId = s.plan.runId n ∧ run.request = request ∧
      run.status = .created ∧ s.Watched calls n scenarios run := by
  obtain ⟨runId, suiteId, suiteName, startedAt, hid, hwatched⟩ := hu.remains
    (P := fun run s calls => run.runId = s.plan.runId n ∧ s.Watched calls n scenarios run)
    (fun {s} suiteId suiteName ho hn => by
      refine ⟨?_, hn ▸ ho.watched_launch suiteId suiteName⟩
      rw [plan_launch, ← hn]
      rfl)
    (fun h hnext => ⟨h.1.trans (by rw [hnext.plan_eq]), h.2.next hnext⟩)
  exact ⟨_, hid, rfl, rfl, hwatched⟩

/-- A run keeps the identifier of its number. -/
theorem Opened.runId_of_run? (ho : Opened s) {state : RunState}
    (h : s.world.registry.run? n = some state) : state.runId = s.plan.runId n := by
  obtain ⟨calls, request, scenarios, hu⟩ := ho.underway (List.getElem?_eq_some_iff.1 h).1
  obtain ⟨run, hid, -, hcreated, -, hobserved⟩ := hu.named
  obtain ⟨b, ⟨hof, hsound, -⟩, -⟩ := hobserved _ (tenure_joined (by rw [hcreated]; rfl) n scenarios)
  obtain rfl : state = b.state := Option.some.inj (h.symm.trans hof.1)
  exact (congrArg RunState.runId hsound.title : b.state.title.runId = _).trans hid

/-- A run is listed under its own identifier. -/
theorem Opened.listed (ho : Opened s) {entry : String × Nat}
    (h : entry ∈ s.world.registry.active) : entry.1 = s.plan.runId entry.2 := by
  obtain ⟨calls, request, scenarios, hu⟩ := ho.underway (ho.numbered.listed entry h)
  obtain ⟨run, hid, -, hcreated, -, hobserved⟩ := hu.named
  obtain ⟨b, ⟨hof, -, htenured⟩, -⟩ :=
    hobserved _ (tenure_joined (by rw [hcreated]; rfl) _ scenarios)
  exact (htenured.listed _ (hof.2.2.2 entry h rfl)).trans hid

/-- Where no identifier is drawn twice, only a run itself is found under its identifier. -/
theorem Opened.find?_runId (ho : Opened s) (hinj : Function.Injective s.plan.runId) {m : Nat}
    (h : s.world.registry.find? (s.plan.runId n) = some m) : m = n := by
  obtain ⟨before, after, hsplit, -⟩ := List.lookup_eq_some_iff.1 h
  have hmem : (s.plan.runId n, m) ∈ s.world.registry.active :=
    hsplit ▸ List.mem_append_right _ List.mem_cons_self
  exact (hinj (ho.listed hmem)).symm

end Session

end DeviceSuite
