import DeviceSuite.Graph.Build
import DeviceSuite.Proofs.Codec.Input
import DeviceSuite.Proofs.Codec.Maps
import DeviceSuite.Proofs.Device.Waits
import DeviceSuite.Proofs.Run.Route
import DeviceSuite.Proofs.Run.Steps
import DeviceSuite.Proofs.Task.Tries

/-!
# Conditions and their negations

A condition and its negation look for the same target in the same way; only what they make of the
finding differs. So one holds where the other does not, as long as there is a finding. Where the
looks end in an error there is none, and neither holds. In no case is the step of a condition told
or recorded to have failed.
-/

namespace DeviceSuite

open DeviceSuite.Task

variable {σ : Type} {s : Service DeviceCall.Reply σ} {m : Moment σ}

/-- The looks for a target, repeated as the policy allows. -/
def Target.probe (t : Target) (policy : RetryPolicy) : DeviceTask (Except DeviceError Finding) :=
  Task.retry policy DeviceError.isRetryable fun _ => Task.ask (DeviceCall.locate t)

/-- A look is one call, and comes to its reply. -/
theorem Target.callsOnce_ask (t : Target) (m : Moment σ) :
    CallsOnce s m (.locate t) Exchange.look? (fun finding : Finding => finding)
      (Task.ask (DeviceCall.locate t)) := by
  rw [CallsOnce, goes_ask]
  refine ⟨_, rfl, rfl, ?_⟩
  change (s.exchange m (DeviceCall.locate t)).1 =
    (s.exchange m (DeviceCall.locate t)).1.map fun r => r.map fun finding => finding
  rcases (s.exchange m (DeviceCall.locate t)).1 with _ | _ | _ <;> rfl

/-- The looks for a target come to what the last of them comes to. -/
theorem Target.goes_probe (t : Target) (policy : RetryPolicy) :
    (t.probe policy).Goes s m fun calls r _ =>
      Tries (.locate t) Exchange.look? DeviceError.isRetryable policy.attempts calls r := by
  refine (goes_retry (fun m _ => t.callsOnce_ask m) policy).mono fun calls r _ h => ?_
  obtain ⟨reply, htries, rfl⟩ := h
  rcases reply with _ | _ | _ <;> exact htries

namespace Condition

/-- What a condition makes of the looks for its target. -/
def answer (c : Condition) : Except DeviceError Finding → Bool
  | .ok finding => finding.isPresent = c.present
  | .error _ => false

/-- A condition makes the looks for its target, and answers by what they come to. -/
theorem goes_holds (c : Condition) (policy : RetryPolicy) :
    (c.holds policy).Goes s m fun calls r m' =>
      calls = (c.target.probe policy).exchanges s m ∧
        (r, m') = ((((c.target.probe policy).runAlone s m).1.map c.answer),
          ((c.target.probe policy).runAlone s m).2) := by
  change ((c.target.probe policy) >>= _).Goes s m _
  rw [goes_bind, Goes]
  rcases ((c.target.probe policy).runAlone s m).1 with _ | e | finding
  · exact ⟨rfl, rfl⟩
  · exact ⟨List.append_nil _, rfl⟩
  · exact ⟨List.append_nil _, rfl⟩

end Condition

/-- What two conditions come to that look for one target, of which the second negates the first:
the looks of both, and what each of them is answered, if it is. -/
structure Target.Opposes (t : Target) (limit : Nat) (calls : List (Exchange DeviceCall.Reply))
    (reply : Option (Except DeviceError Finding)) (there gone : Option Bool) : Prop where
  tries : Tries (.locate t) Exchange.look? DeviceError.isRetryable limit calls reply
  found : ∀ finding, reply = some (.ok finding) →
    there = some finding.isPresent ∧ gone = some (!finding.isPresent)
  failed : ∀ e, reply = some (.error e) → there = some false ∧ gone = some false
  lost : reply = none → there = none ∧ gone = none

/-- A condition and its negation are decided by the same looks, and answer the opposite unless those
fail. -/
theorem Target.opposes (t : Target) (policy : RetryPolicy) (s : Service DeviceCall.Reply σ)
    (m : Moment σ) :
    t.Opposes policy.attempts ((t.probe policy).exchanges s m) ((t.probe policy).runAlone s m).1
      (((t.probe policy).runAlone s m).1.map (Condition.answer ⟨t, true⟩))
      (((t.probe policy).runAlone s m).1.map (Condition.answer ⟨t, false⟩)) where
  tries := t.goes_probe policy
  found finding h := by
    rw [h]
    cases finding <;> exact ⟨rfl, rfl⟩
  failed e h := by
    rw [h]
    exact ⟨rfl, rfl⟩
  lost h := by
    rw [h]
    exact ⟨rfl, rfl⟩

namespace Node

variable {n n' : Node} {c : Condition}

/-- A condition that is read has the tag that the node names. -/
theorem conditionType_of_ok (h : n.condition = .ok c) :
    n.params.get? "conditionType" = some (.text c.tag) := by
  have hread : Condition.codec.ofJson (.ofMap n.params) = .ok c := by
    rw [condition] at h
    cases hjson : Condition.codec.ofJson (.ofMap n.params) with
    | error e =>
      rw [hjson] at h
      cases h
    | ok c' =>
      rw [hjson] at h
      cases h
      rfl
  exact Condition.union.get?_tag_of_ofMap hread

/-- A node with a condition is decided by it. -/
theorem evaluate_of_ok (h : n.condition = .ok c) (settings : Settings) (options : StepOptions) :
    n.evaluate settings options = c.holds (settings.retryFor options) := by
  rw [evaluate, h]

/-- A node without a condition is decided against, and nothing is looked at. -/
theorem evaluate_of_error {e : ParamsError} (h : n.condition = .error e) (settings : Settings)
    (options : StepOptions) : n.evaluate settings options = pure false := by
  rw [evaluate, h]

end Node

/-- A call that does not tell of a step that has failed. -/
def RunCall.TellsNoFailure (c : RunCall) : Prop :=
  ∀ e ∈ c.event?, ∀ step ∈ e.step?, step.status ≠ .failed

namespace SlotPlan

variable (p : SlotPlan) {n : Node}

/-- To tell a record that did not fail tells no failure. -/
theorem only_complete_sound (result : ScenarioResult) {step : StepResult}
    (h : step.status ≠ .failed) : (p.complete result step).Only RunCall.TellsNoFailure
      fun r => r.stepResults = result.stepResults ++ [step] := by
  simp only [complete, only_bind, RunTask.only_emit, only_pure]
  refine ⟨?_, fun _ => trivial⟩
  rintro _ ⟨⟩ _ ⟨⟩
  exact h

/-- The step of a condition tells of no failure and records none, and the walk goes on. -/
theorem only_step_of_condition (hkind : n.kind = .condition) (result : ScenarioResult) :
    (p.step n result).Only RunCall.TellsNoFailure fun x =>
      (∃ answer, x.2 = .next answer) ∧ ∃ step, x.1.stepResults = result.stepResults ++ [step] ∧
        step.status ≠ .failed := by
  have hinner : ¬ ((n.kind = .start || n.kind = .finish) = true) := by rw [hkind]; decide
  have hsilent : ∀ c : RunCall, c.OfAction → c.TellsNoFailure := fun c h =>
    RunCall.forall_event? h.event?
  rw [step, if_neg hinner]
  simp only [only_bind, only_now, RunTask.only_emit]
  refine fun started => ⟨?_, fun _ => ?_⟩
  · rintro _ ⟨⟩ _ ⟨⟩
  · split
    · have hskipped : (record n (.ofMillis started) .skipped 0 none none).status ≠ .failed :=
        (by decide : StepStatus.skipped ≠ .failed)
      exact only_bind.2 ((p.only_complete_sound result hskipped).mono fun r hr =>
        ⟨⟨_, rfl⟩, _, hr, hskipped⟩)
    · refine only_bind.2 (((RunTask.only_onDevice _).weaken hsilent).mono fun answer _ => ?_)
      refine only_bind.2 fun ended => only_bind.2 ?_
      have hpassed : ∀ elapsed,
          (record n (.ofMillis started) .passed elapsed none none).status ≠ .failed :=
        fun _ => (by decide : StepStatus.passed ≠ .failed)
      exact (p.only_complete_sound result (hpassed _)).mono fun r hr =>
        ⟨⟨_, rfl⟩, _, hr, hpassed _⟩

end SlotPlan

/-- Two nodes whose conditions look for the same target, one for its presence and one for its
absence, make the same calls when they are evaluated, and end at the same moment. Where the last
call finds out something, the first is answered as it says and the second to the contrary; where
the calls end in an error, both are answered with no. A node whose condition cannot be read is
answered with no at once. And no step of a condition tells or records a failure. -/
theorem Condition.opposed (s : Service DeviceCall.Reply σ) (m : Moment σ) (settings : Settings)
    (options : StepOptions) :
    (∀ (t : Target) (n n' : Node), n.condition = .ok ⟨t, true⟩ → n'.condition = .ok ⟨t, false⟩ →
      (n.params.get? "conditionType" = some (.text (Condition.tag ⟨t, true⟩)) ∧
        n'.params.get? "conditionType" = some (.text (Condition.tag ⟨t, false⟩))) ∧
      ∃ calls reply there gone m',
        (n.evaluate settings options).exchanges s m = calls ∧
        (n'.evaluate settings options).exchanges s m = calls ∧
        (n.evaluate settings options).runAlone s m = (there, m') ∧
        (n'.evaluate settings options).runAlone s m = (gone, m') ∧
        t.Opposes (settings.retryFor options).attempts calls reply there gone) ∧
      (∀ (n : Node) e, n.condition = .error e →
        (n.evaluate settings options).exchanges s m = [] ∧
        (n.evaluate settings options).runAlone s m = (some false, m)) ∧
      ∀ (p : SlotPlan) (n : Node) result told r, n.kind = .condition →
        (p.step n result).Yields told r →
        (∀ c ∈ told.filterMap Answer.call?, c.TellsNoFailure) ∧
        ∀ x ∈ r, (∃ answer, x.2 = .next answer) ∧
          ∃ step, x.1.stepResults = result.stepResults ++ [step] ∧ step.status ≠ .failed := by
  refine ⟨fun t n n' h h' => ⟨⟨Node.conditionType_of_ok h, Node.conditionType_of_ok h'⟩, ?_⟩,
    fun n e h => ?_, fun p n result told r hkind h => ?_⟩
  · rw [Node.evaluate_of_ok h, Node.evaluate_of_ok h']
    obtain ⟨hcalls, hends⟩ := Condition.goes_holds (s := s) (m := m) ⟨t, true⟩
      (settings.retryFor options)
    obtain ⟨hcalls', hends'⟩ := Condition.goes_holds (s := s) (m := m) ⟨t, false⟩
      (settings.retryFor options)
    exact ⟨_, _, _, _, _, hcalls, hcalls', hends, hends', t.opposes _ s m⟩
  · rw [Node.evaluate_of_error h]
    exact ⟨rfl, rfl⟩
  · exact (p.only_step_of_condition hkind result).ends.of_yields h

namespace Sample

/-- A device that does not find anything at the first look, and shows it from then on. -/
def squint : Service DeviceCall.Reply Nat where
  accept _ looks _ := ⟨looks, 20, []⟩
  answer _ looks
    | .locate _ =>
      (looks + 1, some (if looks = 0 then .error (.transient "timeout") else .ok (.present none)))
    | _ => (looks, none)

/-- A node that asks for a text. -/
def asks (conditionType : String) : Node :=
  .ofParams "c" .condition (.object [("conditionType", .text conditionType), ("text", .text "x")])

/-- The result of a slot before its first step. -/
def unasked : ScenarioResult := .blank (Graph.blank "asking") 1 (.ofMillis 0)

end Sample

/-- A text that is shown at the second look is there, so it is not gone, and both conditions have
looked twice. A condition of no known type does not look at all, and its step tells of no failure. -/
theorem Condition.opposed_squint :
    let evaluate (conditionType : String) :=
      (Sample.asks conditionType).evaluate Settings.default .none
    let start := Moment.initial none 0
    ((evaluate "textExists").runAlone Sample.squint start).1 = some true ∧
      ((evaluate "textNotExists").runAlone Sample.squint start).1 = some false ∧
      ((evaluate "textExists").exchanges Sample.squint start).length = 2 ∧
      ((evaluate "textNotExists").exchanges Sample.squint start).length = 2 ∧
      (evaluate "never").exchanges Sample.squint start = [] ∧
      ∃ told r, (Sample.tappingPlan.step (Sample.asks "never") Sample.unasked).Yields told r ∧
        ∀ c ∈ told.filterMap Answer.call?, c.TellsNoFailure := by
  intro evaluate start
  obtain ⟨hpairs, hunread, hsteps⟩ :=
    Condition.opposed Sample.squint start Settings.default StepOptions.none
  have hthere : (Sample.asks "textExists").condition = .ok ⟨.text "x", true⟩ := by rfl
  have hgone : (Sample.asks "textNotExists").condition = .ok ⟨.text "x", false⟩ := by rfl
  obtain ⟨-, calls, reply, there, gone, m', hcalls, hcalls', hends, hends', hopposes⟩ :=
    hpairs _ _ _ hthere hgone
  have htrue : ((evaluate "textExists").runAlone Sample.squint start).1 = some true := by
    decide +kernel
  have htwice : ((evaluate "textExists").exchanges Sample.squint start).length = 2 := by
    decide +kernel
  have hfalse : gone = some false := by
    have hone : there = some true := (congrArg Prod.fst hends).symm.trans htrue
    rcases reply with _ | e | finding
    · cases hone.symm.trans (hopposes.lost rfl).1
    · cases hone.symm.trans (hopposes.failed e rfl).1
    · obtain ⟨hfinding, hnot⟩ := hopposes.found finding rfl
      rw [hnot, ← Option.some.inj (hone.symm.trans hfinding)]
      rfl
  have hread : ∃ e, (Sample.asks "never").condition = .error e := ⟨_, rfl⟩
  obtain ⟨e, he⟩ := hread
  obtain ⟨told, hyields⟩ := Task.runAlone_yields Sample.glimpse
    (Sample.tappingPlan.step (Sample.asks "never") Sample.unasked) (.initial none 0)
  exact ⟨htrue, (congrArg Prod.fst hends').trans hfalse, htwice,
    (congrArg List.length (hcalls'.trans hcalls.symm)).trans htwice, (hunread _ e he).1, told, _,
    hyields, (hsteps _ _ _ _ _ rfl hyields).1⟩

end DeviceSuite
