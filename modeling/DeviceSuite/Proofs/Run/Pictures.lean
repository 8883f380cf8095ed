import DeviceSuite.Proofs.Run.Touring

/-!
# Pictures of failures

A slot has a picture only of the step that failed last, and no more than one: a walk goes on only
from a step that has not failed, and such a step is not photographed. Its video is not for the walk
to name.
-/

namespace DeviceSuite

namespace ScenarioResult

/-- A result without a video, with at most one picture, which is of its last step. -/
structure Pictured (r : ScenarioResult) : Prop where
  video : r.videoPath = none
  few : r.screenshots.length ≤ 1
  failed : r.screenshots ≠ [] → ∃ step, r.stepResults.getLast? = some step ∧ step.status = .failed

/-- A result without pictures and video needs no failed step. -/
theorem pictured_of_nil {r : ScenarioResult} (hvideo : r.videoPath = none)
    (hnil : r.screenshots = []) : r.Pictured :=
  ⟨hvideo, by simp [hnil], fun h => absurd hnil h⟩

end ScenarioResult

namespace SlotPlan

variable (p : SlotPlan) (n : Node) (options : StepOptions)

/-- A step keeps the pictures before it, and adds at most one of its own failure. -/
structure Keeps (result : ScenarioResult) (x : ScenarioResult × Flow) : Prop where
  video : x.1.videoPath = result.videoPath
  next : ∀ answer, x.2 = .next answer → x.1.screenshots = result.screenshots
  halt : ∀ error, x.2 = .halt error →
    (∃ picture : Option String, x.1.screenshots = result.screenshots ++ picture.toList) ∧
      ∃ step, x.1.stepResults.getLast? = some step ∧ step.status = .failed

/-- An action that has succeeded is not photographed. -/
theorem only_unpictured_conduct : (p.conduct n options).Only (fun _ => True) fun x =>
    x.1.success = true → x.2 = none := by
  apply Task.only_bind.2
  apply (Task.only_any _).mono
  intro outcome _
  dsimp only
  split
  · next hphotographed =>
    apply Task.only_bind.2
    apply (Task.only_any _).mono
    intro picture _ (hsuccess : outcome.1.success = true)
    simp [hsuccess] at hphotographed
  · exact fun _ => rfl

/-- To tell a record changes nothing but the records. -/
theorem only_kept_complete (result : ScenarioResult) (step : StepResult) :
    (p.complete result step).Only (fun _ => True) fun r =>
      r = { result with stepResults := result.stepResults ++ [step] } :=
  Task.only_bind.2 (RunTask.only_emit.2 ⟨trivial, fun _ => rfl⟩)

/-- To tell of a step that is to come leaves pictures and video as they are. -/
theorem only_kept_forewarn (started : Nat) (result : ScenarioResult) :
    (p.forewarn n started result).Only (fun _ => True) fun r =>
      r.videoPath = result.videoPath ∧ r.screenshots = result.screenshots := by
  rw [forewarn]
  split
  · exact Task.only_bind.2 (RunTask.only_emit.2 ⟨trivial, fun _ => ⟨rfl, rfl⟩⟩)
  · exact ⟨rfl, rfl⟩

/-- A step is concluded with a picture only if it failed. -/
theorem only_kept_conclude {result r : ScenarioResult} (hvideo : r.videoPath = result.videoPath)
    (hshots : r.screenshots = result.screenshots) (started : Nat) {outcome : Outcome}
    {picture : Option String} (hpicture : outcome.success = true → picture = none) (ended : Nat) :
    (p.conclude n started r outcome picture ended).Only (fun _ => True) (Keeps result) := by
  simp only [conclude]
  split
  · next hsuccess =>
    apply Task.only_bind.2
    apply (p.only_kept_complete _ _).mono
    rintro _ rfl
    obtain rfl := hpicture hsuccess
    exact ⟨hvideo, fun _ _ => (List.append_nil _).trans hshots, fun _ h => by cases h⟩
  · apply Task.only_bind.2
    apply (p.only_kept_complete _ _).mono
    rintro _ rfl
    refine ⟨hvideo, (fun _ h => by cases h), fun error _ => ⟨⟨picture, by rw [hshots]⟩, ?_⟩⟩
    exact ⟨_, List.getLast?_concat, rfl⟩

/-- An action keeps the pictures, but for one of its failure. -/
theorem only_kept_act (started : Nat) (result : ScenarioResult) :
    (p.act n options started result).Only (fun _ => True) (Keeps result) := by
  rw [act_eq]
  apply Task.only_bind.2
  apply (p.only_kept_forewarn n started result).mono
  rintro r ⟨hvideo, hshots⟩
  apply Task.only_bind.2
  apply (p.only_unpictured_conduct n options).mono
  intro x hpicture
  exact Task.only_bind.2 fun ended => p.only_kept_conclude n hvideo hshots started hpicture ended

/-- A condition keeps the pictures. -/
theorem only_kept_decide (started : Nat) (result : ScenarioResult) :
    (p.decide n options started result).Only (fun _ => True) (Keeps result) := by
  apply Task.only_bind.2
  apply (Task.only_any _).mono
  intro answer _
  refine Task.only_bind.2 fun ended => Task.only_bind.2 ((p.only_kept_complete _ _).mono ?_)
  rintro _ rfl
  exact Task.only_pure.2 ⟨rfl, fun _ _ => rfl, fun _ h => by cases h⟩

/-- A step keeps the pictures, but for one of its failure. -/
theorem only_kept_step (result : ScenarioResult) :
    (p.step n result).Only (fun _ => True) (Keeps result) := by
  rw [step]
  split
  · exact ⟨rfl, fun _ _ => rfl, fun _ h => by cases h⟩
  · apply Task.only_bind.2
    intro started
    refine Task.only_bind.2 (RunTask.only_emit.2 ⟨trivial, fun _ => ?_⟩)
    split
    · refine Task.only_bind.2 ((p.only_kept_complete _ _).mono ?_)
      rintro _ rfl
      exact Task.only_pure.2 ⟨rfl, fun _ _ => rfl, fun _ h => by cases h⟩
    · split
      · exact p.only_kept_decide n _ _ result
      · exact p.only_kept_act n _ _ result

/-- The walk of a slot that has no pictures leaves at most one, of its last step. -/
theorem only_pictured_walk (nav : Navigator) {result : ScenarioResult}
    (hvideo : result.videoPath = none) (hnil : result.screenshots = []) :
    (p.walk nav n result).Only (fun _ => True) ScenarioResult.Pictured := by
  induction nav, n, result using SlotPlan.walk.induct with
  | case1 nav n result ih =>
    rw [walk]
    simp only [Task.only_taskBind, Task.only_isStopped]
    intro stopped
    split
    · exact ScenarioResult.pictured_of_nil hvideo hnil
    · rw [Task.only_taskBind]
      apply (p.only_kept_step n result).mono
      rintro ⟨result', answer | error⟩ hkeeps
      · have hvideo' : result'.videoPath = none := hkeeps.video.trans hvideo
        have hnil' : result'.screenshots = [] := (hkeeps.next _ rfl).trans hnil
        dsimp only
        split
        · exact ScenarioResult.pictured_of_nil hvideo' hnil'
        · next nav' next hnext => exact ih _ _ _ _ hnext hvideo' hnil'
      · obtain ⟨⟨picture, hshots⟩, hlast⟩ := hkeeps.halt _ rfl
        have hshots : result'.screenshots = picture.toList := by rw [hshots, hnil]; rfl
        refine ⟨hkeeps.video.trans hvideo, ?_, fun _ => hlast⟩
        change result'.screenshots.length ≤ 1
        rw [hshots]
        cases picture <;> simp

/-- A slot that is run has at most one picture, of its last step. -/
theorem only_pictured_run (g : Graph) (iteration : UInt32) :
    (p.run g iteration).Only (fun _ => True) ScenarioResult.Pictured := by
  apply Task.only_bind.2
  intro started
  dsimp only
  split
  · exact Task.only_bind.2 fun _ => ScenarioResult.pictured_of_nil rfl rfl
  · next nav n _ =>
    exact Task.only_bind.2 ((p.only_pictured_walk n nav rfl rfl).mono fun r hr _ =>
      ⟨hr.video, hr.few, hr.failed⟩)

end SlotPlan

/-! ## Pictures of a whole tour -/

/-- A result with at most one picture, which is of a last step that failed. -/
structure ScenarioResult.Illustrated (r : ScenarioResult) : Prop where
  few : r.screenshots.length ≤ 1
  failed : r.screenshots ≠ [] → ∃ step, r.stepResults.getLast? = some step ∧ step.status = .failed

/-- A result of a device all of whose slots have at most one picture, of a last step that failed. -/
def DeviceResult.Illustrated (d : DeviceResult) : Prop :=
  ∀ r ∈ d.scenarioResults, r.Illustrated

namespace Tour

variable (t : Tour)

/-- A tour leaves at most one picture of each slot, of a last step that failed. -/
theorem only_illustrated_conduct :
    t.conduct.Only (fun _ => True) fun r => ∀ d, r = .ok d → d.Illustrated := by
  refine (only_conduct_each (P := ScenarioResult.Illustrated) (fun g _ k => ?_)
    fun g _ k now => ⟨Nat.zero_le _, fun hne => absurd rfl hne⟩).weaken fun _ _ => trivial
  apply only_film_each
  · exact ((t.plan g k).only_pictured_run g _).mono fun r hr => ⟨hr.few, hr.failed⟩
  · exact fun r path hr => ⟨hr.few, hr.failed⟩

end Tour

end DeviceSuite
