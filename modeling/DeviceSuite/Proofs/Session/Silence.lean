import DeviceSuite.Proofs.Run.Silence
import DeviceSuite.Proofs.Session.Turns

/-!
# A stop is final

In every history of a session, the tasks of a run that is to stop begin no command, no look at the
screen and no recording any more: what a task may still begin are the few calls of the parting. A
call that is under way when the stop is requested stays so until it is answered.
-/

namespace DeviceSuite

open Calls

namespace Session

variable {σ : Type} {s s' : Session σ} {calls more : Calls} {n : Nat} {request : Request}
  {scenarios : List Graph}

/-- A call under way is not broken off: nothing but its answer, when it is due, lets its task go
on. -/
def KeepsCalls (s : Session σ) : Prop :=
  ∀ (i : Nat) (l : Role) (due : Nat) (c : RunCall)
    (next : Option c.Reply → Task RunCall.Reply RoleResult),
    s.pool.strands[i]? = some (l, .calling due c next) →
    ∀ (more : Calls) (s' : Session σ), Next s more s' →
      s'.pool.strands[i]? = some (l, .calling due c next) ∨
      due ≤ s.now ∧ s'.pool.strands[i]? = some (l,
        (s.host.carry l (next (s.host.answer s.world l c).2) (s.host.answer s.world l c).1).2)

/-- A run heeds the stop flag: its tasks are quiet once it is raised, and it stays raised. -/
structure Heeds (s : Session σ) (calls : Calls) (n : Nat) : Prop where
  quiet : ∀ l : Role, l.run = n → Quiet (calls.filter fun e => e.label = l)
  heard : ∀ e ∈ calls, e.label.run = n → e.stopped = true → s.world.isStopped n = true
  final : s.world.isStopped n = true → ∀ more s', History s more s' →
    s'.world.isStopped n = true ∧ ∀ e ∈ more, e.label.run = n → e.stopped = true
  inFlight : s.KeepsCalls

/-- Strands change in their own turns only. -/
theorem getElem?_next {i : Nat} {e : Role × Strand RunCall.Reply RoleResult}
    (hi : s.pool.strands[i]? = some e) (h : Next s more s') :
    s'.pool.strands[i]? = some e ∨ s.host.isAble s.world e.1 e.2 = true ∧
      s'.pool.strands[i]? = some (e.1, (s.host.resume e.1 e.2 s.world).2) := by
  have hlt := (List.getElem?_eq_some_iff.1 hi).1
  cases h with
  | @turn j able =>
    obtain ⟨l, strand, hj, hable, -, hstrands, -⟩ := takeTurn_spec able
    rw [hstrands, List.getElem?_set]
    by_cases hij : j = i
    · subst hij
      obtain rfl : (l, strand) = e := Option.some.inj (hj.symm.trans hi)
      rw [if_pos rfl, if_pos hlt]
      exact .inr ⟨hable, rfl⟩
    · rw [if_neg hij]
      exact .inl hi
  | launch suiteId suiteName accepted =>
    left
    rw [strands_launch, List.getElem?_append_left hlt, hi]
  | _ => exact .inl hi

/-- A session keeps the calls of a run when it takes a turn. -/
theorem keepsCalls (s : Session σ) : s.KeepsCalls := by
  intro i l due c next hi more s' h
  rcases getElem?_next hi h with hstill | ⟨hable, hresume⟩
  · exact .inl hstill
  · exact .inr ⟨of_decide_eq_true (p := due ≤ s.now) hable, hresume⟩

/-- The flag of a run stays raised, and the tasks of the run see it. -/
theorem Underway.stays_stopped (hu : Underway s calls n request scenarios)
    (hstopped : s.world.isStopped n = true) (hhistory : History s more s') :
    s'.world.isStopped n = true ∧ ∀ e ∈ more, e.label.run = n → e.stopped = true := by
  obtain ⟨hn, runId, suiteId, suiteName, startedAt, hobserved⟩ := hu.observed
  obtain ⟨b, hb⟩ := hobserved _ (silence_joined _ n scenarios)
  obtain ⟨⟨hof, -⟩, -⟩ := id hb
  obtain ⟨-, b', ⟨⟨hof', -, -⟩, -⟩, hheeds⟩ := hb.history hn hhistory
  have hcalls : b.calls = calls.filter fun e => e.label.run = n := hof.2.2.1
  have hstop : s.world.isStopped n = b.state.stopRequested := hof.isStopped (l := .lead n)
  have hstop' : s'.world.isStopped n = b'.state.stopRequested := hof'.isStopped (l := .lead n)
  have hraised : b.state.stopRequested = true := hstop ▸ hstopped
  obtain ⟨later, hlater, hlate⟩ := hheeds.calls
  refine ⟨hstop'.trans (hheeds.stopped hraised), ?_⟩
  intro e he hrun
  apply hlate hraised e
  have hcalls' : b'.calls = (calls ++ more).filter fun e => e.label.run = n := hof'.2.2.1
  rw [List.filter_append, ← hcalls, hlater] at hcalls'
  rw [List.append_cancel_left hcalls']
  exact List.mem_filter.2 ⟨he, by simpa using hrun⟩

/-- The tasks of a run see its flag raised only when it is. -/
theorem Underway.heard (hu : Underway s calls n request scenarios) :
    ∀ e ∈ calls, e.label.run = n → e.stopped = true → s.world.isStopped n = true := by
  obtain ⟨-, runId, suiteId, suiteName, startedAt, hobserved⟩ := hu.observed
  obtain ⟨b, ⟨hof, -, hsilent⟩, -⟩ := hobserved _ (silence_joined _ n scenarios)
  have hcalls : b.calls = calls.filter fun e => e.label.run = n := hof.2.2.1
  have hstop : s.world.isStopped n = b.state.stopRequested := hof.isStopped (l := .lead n)
  intro e he hrun hstopped
  rw [hstop]
  exact hsilent.heard e (hcalls ▸ List.mem_filter.2 ⟨he, by simpa using hrun⟩) hstopped

/-- Once the flag of a run is raised, its tasks are quiet for good. -/
theorem stop_heeded (hu : Underway s calls n request scenarios) : s.Heeds calls n := by
  obtain ⟨-, runId, suiteId, suiteName, startedAt, hobserved⟩ := hu.observed
  obtain ⟨b, ⟨hof, -, hsilent⟩, -⟩ := hobserved _ (silence_joined _ n scenarios)
  exact ⟨fun l hl => hof.own hl ▸ hsilent.quiet l, hu.heard,
    fun hstopped _ _ => hu.stays_stopped hstopped, s.keepsCalls⟩

/-- The run of the sample is stopped while its first device performs an action, and its second has
not begun. -/
theorem stop_heeded_sample :
    let start := (Sample.laborious.launch "s" "" (Sample.request ["d", "e"]) [Sample.scenario]).1
    let acting := start.takeTurns [0, 1]
    let s := (acting.stopRun 0).change fun w => { w with now := 1 }
    let calls := s.callsOfTurns [1, 2, 0]
    acting.pool.strands[1]?.bind (fun e => e.2.due?) = some 1 ∧
      (s.takeTurns [1, 2, 0]).world.isStopped 0 = true ∧ (calls.filter (·.stopped)).length ≠ 0 ∧
      (s.takeTurns [1, 2, 0]).Heeds (start.callsOfTurns [0, 1] ++ ([] ++ [] ++ calls)) 0 := by
  intro start acting s calls
  have hcheck : Sample.laborious.check (Sample.request ["d", "e"]) = .ok [Sample.scenario] := rfl
  have able : start.areAble [0, 1] = true := by decide +kernel
  have able' : s.areAble [1, 2, 0] = true := by decide +kernel
  have hstop : History acting ([] ++ []) s := (Next.stopRun 0).history.trans (Next.clock 1).history
  have hu := (Underway.launch "s" "" Sample.opened_laborious hcheck).history (takeTurns_history able)
  exact ⟨by decide +kernel, by decide +kernel, by decide +kernel,
    stop_heeded (hu.history (hstop.trans (takeTurns_history able')))⟩

end Session

end DeviceSuite
