import DeviceSuite.Proofs.Run.Books
import DeviceSuite.Proofs.Session.Checks

/-!
# Histories of sessions

All that can happen in a session, one thing after the other: a strand that is able goes on, the
clock moves, and whoever holds the session begins and stops runs, lets go of their handles or
changes the stores. Nothing is
said of the order in which strands take their turns, so a history is any interleaving of the tasks;
those that a session lets happen by itself are among them, as `advance_history` and the others show.
-/

namespace DeviceSuite

namespace Session

variable {σ : Type}

/-- Let the strand at a position take its turn. -/
def takeTurn (s : Session σ) (i : Nat) : Session σ := { s with pool := s.pool.turn s.host i }

/-- The calls that begin in the turn of the strand at a position. -/
def callsOfTurn (s : Session σ) (i : Nat) : Calls :=
  match s.pool.strands[i]? with
  | none => []
  | some (l, strand) => s.host.callsOf l strand s.world

/-- One thing happens in a session, and some calls begin with it. -/
inductive Next : Session σ → Calls → Session σ → Prop where
  | turn {s : Session σ} {i : Nat} (able : s.pool.isAble s.host i = true) :
    Next s (s.callsOfTurn i) (s.takeTurn i)
  | clock {s : Session σ} (time : Nat) : Next s [] (s.change fun w => { w with now := time })
  | stop {s : Session σ} (runId : String) : Next s [] (s.stop runId).1
  | stopRun {s : Session σ} (number : Nat) : Next s [] (s.stopRun number)
  | launch {s : Session σ} {request : Request} {scenarios : List Graph} (suiteId suiteName : String)
    (accepted : s.check request = .ok scenarios) :
    Next s [] (s.launch suiteId suiteName request scenarios).1
  | release {s : Session σ} (number : Nat) : Next s [] (s.release number)
  | insertScenario {s : Session σ} (g : Graph) : Next s [] (s.insertScenario g)
  | removeScenario {s : Session σ} (id : String) : Next s [] (s.removeScenario id).1
  | disconnect {s : Session σ} (id : String) : Next s [] (s.disconnect id).1

/-- A session has become another one, and these calls have begun on the way. -/
inductive History : Session σ → Calls → Session σ → Prop where
  | refl (s : Session σ) : History s [] s
  | step {s s' s'' : Session σ} {calls more : Calls} :
    History s calls s' → Next s' more s'' → History s (calls ++ more) s''

/-- A session that was set up once, and has come to where it is. -/
inductive Opened : Session σ → Prop where
  | setUp {plan : SessionPlan σ} {source : SettingsSource} {s : Session σ} :
    setUp plan source = .ok s → Opened s
  | next {s s' : Session σ} {more : Calls} : Opened s → Next s more s' → Opened s'

/-- The run with a number was begun in a session for a request, with the scenarios that were
fetched for it, and since then these calls have begun. -/
inductive Underway : Session σ → Calls → Nat → Request → List Graph → Prop where
  | launch {s : Session σ} {request : Request} {scenarios : List Graph} (suiteId suiteName : String) :
    Opened s → s.check request = .ok scenarios →
    Underway (s.launch suiteId suiteName request scenarios).1 []
      (s.launch suiteId suiteName request scenarios).2 request scenarios
  | next {s s' : Session σ} {calls more : Calls} {n : Nat} {request : Request}
    {scenarios : List Graph} :
    Underway s calls n request scenarios → Next s more s' →
    Underway s' (calls ++ more) n request scenarios

variable {s s' s'' : Session σ} {calls more : Calls}

/-- One thing that happens is a history. -/
theorem Next.history (h : Next s more s') : History s more s' := by
  simpa using (History.refl s).step h

/-- A history may go on with another one. -/
theorem History.trans (h : History s calls s') (h' : History s' more s'') :
    History s (calls ++ more) s'' := by
  induction h' with
  | refl => simpa using h
  | step _ hnext ih => simpa [List.append_assoc] using ih.step hnext

/-- A session that was opened still is after any history. -/
theorem Opened.history (ho : Opened s) (h : History s calls s') : Opened s' := by
  induction h with
  | refl => exact ho
  | step _ hnext ih => exact .next ih hnext

/-- A run that is under way still is after any history. -/
theorem Underway.history {n : Nat} {request : Request} {scenarios : List Graph}
    (hu : Underway s calls n request scenarios) (h : History s more s') :
    Underway s' (calls ++ more) n request scenarios := by
  induction h with
  | refl => simpa using hu
  | step _ hnext ih => simpa [List.append_assoc] using ih.next hnext

/-! ## Beginning runs -/

/-- What is true of a checked request. -/
theorem check_ok {request : Request} {scenarios : List Graph}
    (h : s.check request = .ok scenarios) :
    request.deviceIds ≠ [] ∧ request.scenarioIds ≠ [] ∧ request.repeatCount ≠ 0 ∧
      List.Forall₂ s.Loads request.scenarioIds scenarios := by
  have hgrants := check_eq_ok.1 h
  exact ⟨hgrants.devices, hgrants.scenarios, one_le_iff_ne_zero.1 hgrants.repeats, hgrants.loaded⟩

/-- A request is checked by fetching a scenario for each that it names. -/
theorem check_length {request : Request} {scenarios : List Graph}
    (h : s.check request = .ok scenarios) : scenarios.length = request.scenarioIds.length :=
  (check_ok h).2.2.2.length_eq.symm

/-- A run that is begun is launched with a request that was checked. -/
theorem start_launches {request : Request} {n : Nat} (h : s.start request = .ok (s', n)) :
    ∃ scenarios suiteId suiteName, s.check request = .ok scenarios ∧
      s.launch suiteId suiteName request scenarios = (s', n) := by
  rw [start_eq] at h
  obtain ⟨scenarios, hcheck, hlaunch⟩ := map_eq_ok.1 h
  exact ⟨scenarios, _, _, hcheck, hlaunch⟩

/-- A stored suite that is begun is launched with its request, which was checked. -/
theorem startSuite_launches {id : String} {n : Nat} (h : s.startSuite id = .ok (s', n)) :
    ∃ suite scenarios, s.check (.ofSuite suite "suite") = .ok scenarios ∧
      s.launch suite.id suite.name (.ofSuite suite "suite") scenarios = (s', n) := by
  obtain ⟨suite, hsuite⟩ := suite_of_startSuite h
  rw [startSuite_eq hsuite] at h
  obtain ⟨scenarios, hcheck, hlaunch⟩ := map_eq_ok.1 h
  exact ⟨suite, scenarios, hcheck, hlaunch⟩

/-! ## Giving time -/

/-- The turn that comes next makes a history. -/
theorem step?_history {limit : Option Nat} {goal : World σ → Bool} {s : Session σ}
    {p q : Pool RunCall.Reply RoleResult Role (World σ)}
    (hq : p.step? s.host limit goal = some q) :
    ∃ calls, History { s with pool := p } calls { s with pool := q } := by
  have hturn : ∀ (p : Pool RunCall.Reply RoleResult Role (World σ)) i, p.next? s.host = some i →
      Next { s with pool := p } (callsOfTurn { s with pool := p } i)
        { s with pool := p.turn s.host i } := fun p i hi =>
    .turn (s := { s with pool := p }) (Pool.next?_isAble hi)
  rw [Pool.step?] at hq
  split at hq
  · next i hi =>
    cases hq
    exact ⟨_, (hturn p i hi).history⟩
  · split at hq
    · cases hq
    · obtain ⟨due, -, hq⟩ := Option.bind_eq_some_iff.1 hq
      split at hq
      · cases hq
      · obtain ⟨i, hi, rfl⟩ := Option.map_eq_some_iff.1 hq
        have hclock := Next.clock (s := { s with pool := p }) due
        exact ⟨_, hclock.history.trans (hturn _ i hi).history⟩

/-- Strands that take turns until none is to go on make a history. -/
theorem run_history (limit : Option Nat) (goal : World σ → Bool) (s : Session σ) :
    ∃ calls, History s calls { s with pool := s.pool.run s.host limit goal } := by
  suffices hall : ∀ p, ∃ calls, History { s with pool := p } calls
      { s with pool := p.run s.host limit goal } from hall s.pool
  intro p
  induction p using (Pool.follows_wf s.host).induction with
  | _ p ih =>
    rw [Pool.run]
    split
    · exact ⟨[], .refl _⟩
    · next q hq =>
      obtain ⟨calls, hstep⟩ := step?_history hq
      obtain ⟨more, hrest⟩ := ih q (Pool.step?_follows hq)
      exact ⟨calls ++ more, hstep.trans hrest⟩

/-- To let time pass is a history. -/
theorem advance_history (s : Session σ) (ms : Nat) : ∃ calls, History s calls (s.advance ms) := by
  rw [advance]
  split
  · exact ⟨[], .refl s⟩
  · obtain ⟨calls, h⟩ := run_history (some (s.now + ms)) (fun _ => false) s
    exact ⟨_, h.step (.clock _)⟩

/-- To wait for a run is a history. -/
theorem wait_history (s : Session σ) (n : Nat) : ∃ calls, History s calls (s.wait n) := by
  obtain ⟨calls, h⟩ := run_history none (fun w => ((w.crew? n).bind Crew.result).isSome) s
  exact ⟨_, h.step (.release n)⟩

/-- To wait for a run for a limited time is a history. -/
theorem waitAtMost_history (s : Session σ) (n ms : Nat) :
    ∃ calls, History s calls (s.waitAtMost n ms).1 := by
  have hrelease := (Next.release (s := s) n).history
  simp only [waitAtMost]
  split
  · exact ⟨[], hrelease⟩
  · obtain ⟨calls, h⟩ := run_history (some ((s.release n).now + ms))
      (fun w => ((w.crew? n).bind Crew.result).isSome) (s.release n)
    split
    · exact ⟨_, hrelease.trans h⟩
    · exact ⟨_, (hrelease.trans h).step (.clock _)⟩

end Session

end DeviceSuite
