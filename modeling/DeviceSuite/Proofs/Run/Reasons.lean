import DeviceSuite.Proofs.Run.Logbook
import DeviceSuite.Proofs.Run.Touring

/-!
# Why slots fail

A slot fails with its last step, or because the execution was stopped before it or in its midst.
Where every scenario has a start node, no slot fails for want of one: a result that says so repeats
what its last step has said.
-/

namespace DeviceSuite

/-- Where the error of a result comes from, if it has one: from the failure of its last step, or
from a stop. -/
inductive ScenarioResult.Reasoned (r : ScenarioResult) : Prop where
  | none : r.error = none → Reasoned r
  | failed {last : StepResult} : r.stepResults.getLast? = some last → last.status = .failed →
    r.error = last.error → Reasoned r
  | stopped : r.error = some DeviceError.stoppedText → Reasoned r
  | skipped : r.error = some Tour.skipText → Reasoned r

/-- The last step of a result has failed, and said that there is no start node. -/
def ScenarioResult.Repeats (r : ScenarioResult) : Prop :=
  ∃ last, r.stepResults.getLast? = some last ∧ last.status = .failed ∧
    last.error = some SlotPlan.noStartText

namespace ScenarioResult.Reasoned

variable {r : ScenarioResult}

/-- A result with a reason that speaks of a missing start node repeats what its last step said. -/
theorem repeats (h : r.Reasoned) (herror : r.error = some SlotPlan.noStartText) : r.Repeats := by
  cases h with
  | none hnone => simp [hnone] at herror
  | failed hlast hfailed hsame => exact ⟨_, hlast, hfailed, hsame.symm.trans herror⟩
  | stopped hstopped =>
    have hne : DeviceError.stoppedText ≠ SlotPlan.noStartText := by decide
    exact absurd (Option.some.inj (hstopped.symm.trans herror)) hne
  | skipped hskipped =>
    have hne : Tour.skipText ≠ SlotPlan.noStartText := by decide
    exact absurd (Option.some.inj (hskipped.symm.trans herror)) hne

/-- The reason of a result has nothing to do with its video. -/
theorem withVideo (h : r.Reasoned) (path : Option String) :
    { r with videoPath := path }.Reasoned := by
  cases h with
  | none hnone => exact .none hnone
  | failed hlast hfailed hsame => exact .failed hlast hfailed hsame
  | stopped hstopped => exact .stopped hstopped
  | skipped hskipped => exact .skipped hskipped

end ScenarioResult.Reasoned

namespace SlotPlan

variable {g : Graph} {visits : List Visit} {halt : Option Node} {r : ScenarioResult}

/-- The result of a scenario that was walked has a reason. -/
theorem Logged.reasoned (h : Logged g visits halt r) (hstart : g.startNode? ≠ none) :
    r.Reasoned := by
  by_cases hfailed : r.status = .failed
  · obtain ⟨last, hlast, hstatus⟩ | hhalt | hnone := h.failed_iff.1 hfailed
    · exact .failed hlast hstatus (h.failure_error last hlast hstatus).2
    · obtain ⟨n, hn⟩ := Option.ne_none_iff_exists'.1 hhalt
      exact .stopped (h.halt_error n hn).2
    · exact absurd hnone hstart
  · exact .none (h.passed hfailed).2

/-- A scenario with a start node is run to a result with a reason. -/
theorem only_reasoned_run (p : SlotPlan) (hstart : g.startNode? ≠ none) (iteration : UInt32) :
    (p.run g iteration).Only (fun _ => True) ScenarioResult.Reasoned := by
  apply Task.Returns.only
  apply (Task.returns_yields (p.run g iteration)).mono
  intro told r hyields
  obtain ⟨visits, halt, -, hlogged⟩ := run_logged hyields
  exact hlogged.reasoned hstart

end SlotPlan

/-- All results that a tour tells or leaves have their reasons, where every scenario has a start
node. -/
theorem Tour.only_reasoned_conduct (t : Tour)
    (hstart : ∀ g ∈ t.scenarios, g.startNode? ≠ none) :
    t.conduct.Only (RunCall.Tells ScenarioResult.Reasoned)
      fun r => ∀ d, r = .ok d → d.Each ScenarioResult.Reasoned := by
  apply only_conduct_each
  · intro g hg k
    exact only_film_each ((t.plan g k).only_reasoned_run (hstart g hg) _) fun r path hr =>
      hr.withVideo path
  · exact fun g _ k now => .skipped rfl

end DeviceSuite
