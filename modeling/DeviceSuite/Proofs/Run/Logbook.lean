import DeviceSuite.Graph.Build
import DeviceSuite.Proofs.Run.Route

/-!
# The records of a slot

A slot keeps the records of its visits, one visit after the other. The record of a step that waits
comes right before the record of how it ended, and no other record says that a step waits; disabled
steps are skipped; and a failure is the last record there is. A slot fails with its last record,
when it is stopped before a node that is no end, or for want of a start node.
-/

namespace DeviceSuite

/-- What is found in a list of lists is found in one of them. -/
theorem exists_of_flatMap_eq {α β : Type} {f : α → List β} {l : List α} {before after : List β}
    {b : β} (h : l.flatMap f = before ++ b :: after) :
    ∃ l₁ a l₂ front back, l = l₁ ++ a :: l₂ ∧ f a = front ++ b :: back ∧
      before = l₁.flatMap f ++ front ∧ after = back ++ l₂.flatMap f := by
  induction l generalizing before with
  | nil => simp at h
  | cons a l ih =>
    rw [List.flatMap_cons] at h
    obtain ⟨more, rfl, hmore⟩ | ⟨more, hhead, hmore⟩ := List.append_eq_append_iff.1 h
    · obtain ⟨l₁, a', l₂, front, back, rfl, ha', rfl, rfl⟩ := ih hmore
      exact ⟨a :: l₁, a', l₂, front, back, rfl, ha', by simp, rfl⟩
    · cases more with
      | nil =>
        have hrest : l.flatMap f = [] ++ b :: after := hmore.symm
        obtain ⟨l₁, a', l₂, front, back, rfl, ha', hbefore, rfl⟩ := ih hrest
        refine ⟨a :: l₁, a', l₂, front, back, rfl, ha', ?_, rfl⟩
        rw [List.flatMap_cons, hhead, List.append_nil, List.append_assoc, ← hbefore,
          List.append_nil]
      | cons b' back =>
        obtain ⟨rfl, rfl⟩ := List.cons.inj hmore
        exact ⟨[], a, l, before, back, rfl, hhead, rfl, rfl⟩

/-- A list of one has nothing before or behind it. -/
theorem eq_of_append_eq_singleton {α : Type} {front back : List α} {a c : α}
    (h : front ++ c :: back = [a]) : front = [] ∧ c = a ∧ back = [] := by
  match front with
  | [] => simpa using h
  | _ :: _ => simp at h

/-- Whatever stands in a list of two is its first or its second. -/
theorem eq_of_append_eq_pair {α : Type} {front back : List α} {a b c : α}
    (h : front ++ c :: back = [a, b]) :
    (front = [] ∧ c = a ∧ back = [b]) ∨ (front = [a] ∧ c = b ∧ back = []) := by
  match front with
  | [] => exact .inl (by simpa using h)
  | [_] => exact .inr (by simpa using h)
  | _ :: _ :: _ => simp at h

/-- A record of how a step that was carried out has ended. -/
def StepResult.IsTerminal (step : StepResult) : Prop :=
  step.status = .passed ∨ step.status = .failed

/-- An enabled action whose step waits for something. -/
def Node.Waits (n : Node) : Prop :=
  n.kind = .action ∧ n.options.disabled = false ∧ ActionKind.isWaitName n.stepType = true

/-! ## The records of one step -/

namespace Node

variable {n : Node} {steps waiting front back : List StepResult} {step : StepResult} {flow : Flow}

/-- The record before an action is that of its node. -/
theorem Forewarns.isOf (h : n.Forewarns waiting) : ∀ step ∈ waiting, step.IsOf n := by
  cases h with
  | silent => exact List.forall_mem_nil _
  | waiting _ hof => exact List.forall_mem_singleton.2 hof

/-- All records of a step carry the names of its node. -/
theorem Leaves.isOf (h : n.Leaves steps flow) : ∀ step ∈ steps, step.IsOf n := by
  cases h with
  | nothing => exact List.forall_mem_nil _
  | skipped _ _ hof => exact List.forall_mem_singleton.2 hof
  | decided _ _ hof => exact List.forall_mem_singleton.2 hof
  | passed _ _ hwaiting hof =>
    exact List.forall_mem_append.2 ⟨hwaiting.isOf, List.forall_mem_singleton.2 hof⟩
  | failed _ _ hwaiting hof =>
    exact List.forall_mem_append.2 ⟨hwaiting.isOf, List.forall_mem_singleton.2 hof⟩

/-- What an enabled action leaves: one record of how it has ended, after one that it waits if it
does. -/
theorem Forewarns.shape (h : n.Forewarns waiting) (hkind : n.kind = .action)
    (henabled : n.options.disabled = false) {last : StepResult} (hlast : last.IsTerminal) :
    (∃ step, waiting ++ [last] = [step] ∧ step.status ≠ .waiting ∧ ¬ n.Waits) ∨
      ∃ w last', waiting ++ [last] = [w, last'] ∧ w.status = .waiting ∧ last'.IsTerminal ∧
        n.Waits := by
  cases h with
  | silent hsilent =>
    refine .inl ⟨last, rfl, fun hwaiting => ?_, fun hwaits => ?_⟩
    · rcases hlast with hlast | hlast <;> simp [hwaiting] at hlast
    · exact absurd (hsilent.symm.trans hwaits.2.2) Bool.false_ne_true
  | waiting hwaits _ hstatus => exact .inr ⟨_, last, rfl, hstatus, hlast, hkind, henabled, hwaits⟩

/-- The records of a step: none, one that is final, or one that it waits and one of how it has
ended. -/
theorem Leaves.shape (h : n.Leaves steps flow) :
    steps = [] ∨
      (∃ step, steps = [step] ∧ step.status ≠ .waiting ∧ (step.IsTerminal → ¬ n.Waits)) ∨
      ∃ w last, steps = [w, last] ∧ w.status = .waiting ∧ last.IsTerminal ∧ n.Waits := by
  cases h with
  | nothing => exact .inl rfl
  | skipped _ _ _ hstatus =>
    refine .inr (.inl ⟨_, rfl, by simp [hstatus], fun hterminal => ?_⟩)
    rcases hterminal with hterminal | hterminal <;> simp [hstatus] at hterminal
  | decided hkind _ _ hstatus =>
    refine .inr (.inl ⟨_, rfl, by simp [hstatus], fun _ hwaits => ?_⟩)
    simp [hwaits.1] at hkind
  | passed hkind henabled hwaiting _ hstatus =>
    exact .inr ((hwaiting.shape hkind henabled (.inl hstatus)).imp_left fun ⟨_, h, h', h''⟩ =>
      ⟨_, h, h', fun _ => h''⟩)
  | failed hkind henabled hwaiting _ hstatus =>
    exact .inr ((hwaiting.shape hkind henabled (.inr hstatus)).imp_left fun ⟨_, h, h', h''⟩ =>
      ⟨_, h, h', fun _ => h''⟩)

/-- A record that a step waits is the first of the step, and the one of how it ended follows. -/
theorem Leaves.of_waiting (h : n.Leaves (front ++ step :: back) flow)
    (hwaiting : step.status = .waiting) :
    n.Waits ∧ ∃ last, back = [last] ∧ last.IsTerminal := by
  rcases h.shape with hnil | ⟨first, hsteps, hfirst, -⟩ | ⟨w, last, hsteps, hw, hlast, hwaits⟩
  · simp at hnil
  · obtain ⟨-, rfl, -⟩ := eq_of_append_eq_singleton hsteps
    exact absurd hwaiting hfirst
  · obtain ⟨-, -, rfl⟩ | ⟨-, rfl, -⟩ := eq_of_append_eq_pair hsteps
    · exact ⟨hwaits, last, rfl, hlast⟩
    · rcases hlast with hlast | hlast <;> simp [hwaiting] at hlast

/-- The record of how a step ended is the first of the step, unless the step waits and says so
before. -/
theorem Leaves.of_terminal (h : n.Leaves (front ++ step :: back) flow) (hterminal : step.IsTerminal)
    (hwaits : n.Waits) : ∃ w, front = [w] ∧ w.status = .waiting := by
  rcases h.shape with hnil | ⟨first, hsteps, -, hfirst⟩ | ⟨w, last, hsteps, hw, -, -⟩
  · simp at hnil
  · obtain ⟨-, rfl, -⟩ := eq_of_append_eq_singleton hsteps
    exact absurd hwaits (hfirst hterminal)
  · obtain ⟨-, rfl, -⟩ | ⟨hfront, -, -⟩ := eq_of_append_eq_pair hsteps
    · rcases hterminal with hterminal | hterminal <;> simp [hw] at hterminal
    · exact ⟨w, hfront, hw⟩

/-- The skipped record of a step is that of a disabled node. -/
theorem Leaves.skips (h : n.Leaves steps flow) :
    ((steps.map fun step => (n, step)).filter fun e => e.2.status = .skipped).map Prod.fst =
      if n.IsInner ∧ n.options.disabled = true then [n] else [] := by
  have hrepeated : ((steps.map fun step => (n, step)).filter fun e => e.2.status = .skipped).map
      Prod.fst = List.replicate (steps.countP fun step => step.status = .skipped) n := by
    rw [List.filter_map, List.map_map, List.countP_eq_length_filter]
    exact List.map_const'
  rw [hrepeated, h.countP_skipped]
  split <;> rfl

/-- A step after which the walk goes on has left no failure. -/
theorem Leaves.forall_ne_failed {answer : Option Bool} (h : n.Leaves steps (.next answer)) :
    ∀ step ∈ steps, step.status ≠ .failed := by
  cases h with
  | nothing => exact List.forall_mem_nil _
  | skipped _ _ _ hstatus => exact List.forall_mem_singleton.2 (by simp [hstatus])
  | decided _ _ _ hstatus => exact List.forall_mem_singleton.2 (by simp [hstatus])
  | passed _ _ hwaiting _ hstatus =>
    exact List.forall_mem_append.2 ⟨hwaiting.status_ne nofun,
      List.forall_mem_singleton.2 (by simp [hstatus])⟩

/-- A step that halts the walk has left one failure, as its last record. -/
theorem Leaves.exists_failed {error : String} (h : n.Leaves steps (.halt error)) :
    ∃ before last, steps = before ++ [last] ∧ (∀ step ∈ before, step.status ≠ .failed) ∧
      last.status = .failed ∧ last.error = some error := by
  cases h with
  | failed _ _ hwaiting _ hstatus herror =>
    exact ⟨_, _, rfl, hwaiting.status_ne nofun, hstatus, herror⟩

end Node

/-! ## The visits of a walk -/

namespace Visit

/-- The records that are made in a visit. -/
def records (v : Visit) : List StepResult := (eventsOf v.told).filterMap Event.step?

/-- The records of a visit, each with the node of the visit. -/
def entries (v : Visit) : List (Node × StepResult) := v.records.map fun step => (v.node, step)

end Visit

namespace SlotPlan

/-- A walk from a node that has been entered, with the result of its slot so far: its visits, one
after the other, the node before which it was stopped, if it was, and the result that it ends
with. -/
inductive Visits (p : SlotPlan) : Navigator → Node → ScenarioResult → List Visit → Option Node →
    ScenarioResult → Prop where
  | stopped {nav : Navigator} {n : Node} {result : ScenarioResult} : n.kind ≠ .finish →
    Visits p nav n result [] (some n) (result.withFailure DeviceError.stoppedText)
  | halted {nav : Navigator} {n : Node} {result result' : ScenarioResult} {stopped : Bool}
    {told : List (Answer RunCall.Reply)} {error : String} : (stopped = true → n.kind = .finish) →
    (p.step n result).Yields told (some (result', .halt error)) →
    Visits p nav n result [⟨n, stopped, told⟩] none (result'.withFailure error)
  | ended {nav : Navigator} {n : Node} {result result' : ScenarioResult} {stopped : Bool}
    {told : List (Answer RunCall.Reply)} {answer : Option Bool} :
    (stopped = true → n.kind = .finish) →
    (p.step n result).Yields told (some (result', .next answer)) → nav.advance? n answer = none →
    Visits p nav n result [⟨n, stopped, told⟩] none result'
  | next {nav nav' : Navigator} {n next : Node} {result result' r : ScenarioResult}
    {stopped : Bool} {told : List (Answer RunCall.Reply)} {answer : Option Bool}
    {visits : List Visit} {halt : Option Node} : (stopped = true → n.kind = .finish) →
    (p.step n result).Yields told (some (result', .next answer)) →
    nav.advance? n answer = some (nav', next) → Visits p nav' next result' visits halt r →
    Visits p nav n result (⟨n, stopped, told⟩ :: visits) halt r

/-- What a walk is told in its visits, and after them when it is stopped. -/
def walkTranscript (visits : List Visit) (halt : Option Node) : List (Answer RunCall.Reply) :=
  visits.flatMap Visit.transcript ++ halt.toList.map fun _ => .flag true

/-- The visits of a run of a scenario, and the node before which it was stopped, if it was. A
scenario without a start node has no visits. -/
inductive Traced (p : SlotPlan) (g : Graph) (iteration : UInt32) : List (Answer RunCall.Reply) →
    List Visit → Option Node → Prop where
  | startless {began ended : Nat} : g.startNode? = none →
    Traced p g iteration [.time began, .time ended] [] none
  | walked {began ended : Nat} {nav : Navigator} {n : Node} {visits : List Visit}
    {halt : Option Node} {r : ScenarioResult} :
    (Navigator.new g p.settings.maxNodeVisits).start? = some (nav, n) →
    p.Visits nav n (.blank g iteration (.ofMillis began)) visits halt r →
    Traced p g iteration (.time began :: (walkTranscript visits halt ++ [.time ended])) visits halt

/-- How a slot ends whose records are these and which was stopped before that node, if it was. -/
inductive Verdict (r : ScenarioResult) : List StepResult → Option Node → Prop where
  | passed {steps : List StepResult} : (∀ step ∈ steps, step.status ≠ .failed) →
    r.status = .passed → r.error = none → Verdict r steps none
  | failed {before : List StepResult} {last : StepResult} {error : String} :
    (∀ step ∈ before, step.status ≠ .failed) → last.status = .failed → last.error = some error →
    r.status = .failed → r.error = some error → Verdict r (before ++ [last]) none
  | stopped {steps : List StepResult} {n : Node} : (∀ step ∈ steps, step.status ≠ .failed) →
    n.kind ≠ .finish → r.status = .failed → r.error = some DeviceError.stoppedText →
    Verdict r steps (some n)

variable {p : SlotPlan} {nav : Navigator} {n : Node} {result r r' : ScenarioResult}
  {visits : List Visit} {halt : Option Node} {steps more : List StepResult}

/-- The visits of a walk are told by its transcript. -/
theorem returns_walk_visits (p : SlotPlan) (nav : Navigator) (n : Node) (result : ScenarioResult) :
    (p.walk nav n result).Returns fun told r =>
      ∃ visits halt, p.Visits nav n result visits halt r ∧ told = walkTranscript visits halt := by
  induction nav, n, result using SlotPlan.walk.induct with
  | case1 nav n result ih =>
    rw [walk]
    apply Task.Returns.isStopped_bind
    intro stopped
    split
    · next hstop =>
      obtain ⟨hkind, rfl⟩ : n.kind ≠ .finish ∧ stopped = true := by simpa using hstop
      exact Task.returns_done.2 ⟨[], some n, .stopped hkind, rfl⟩
    · next hgo =>
      have hfree : stopped = true → n.kind = .finish := fun h => by simpa [h] using hgo
      apply (Task.returns_yields (p.step n result)).bind
      rintro told ⟨result', answer | error⟩ hstep
      · dsimp only
        split
        · next hnext =>
          exact Task.returns_done.2 ⟨_, none, .ended hfree hstep hnext,
            by simp [walkTranscript, Visit.transcript]⟩
        · next nav' next hnext =>
          apply (ih _ _ _ _ hnext).mono
          rintro later r ⟨visits, halt, hvisits, rfl⟩
          exact ⟨_, halt, .next hfree hstep hnext hvisits,
            by simp [walkTranscript, Visit.transcript]⟩
      · exact Task.returns_done.2 ⟨_, none, .halted hfree hstep,
          by simp [walkTranscript, Visit.transcript]⟩

namespace Visits

/-- What is left in each visit is what the step of its node leaves. -/
theorem leaves (h : p.Visits nav n result visits halt r) :
    ∀ v ∈ visits, ∃ flow, v.node.Leaves v.records flow := by
  induction h with
  | stopped => exact List.forall_mem_nil _
  | halted _ hstep =>
    exact List.forall_mem_singleton.2 ⟨_, ((returns_step _ _ _).of_yields hstep).leaves⟩
  | ended _ hstep =>
    exact List.forall_mem_singleton.2 ⟨_, ((returns_step _ _ _).of_yields hstep).leaves⟩
  | next _ hstep _ _ ih =>
    exact List.forall_mem_cons.2 ⟨⟨_, ((returns_step _ _ _).of_yields hstep).leaves⟩, ih⟩

/-- A walk adds the records of its visits to those that the slot has. -/
theorem records (h : p.Visits nav n result visits halt r) :
    r.stepResults = result.stepResults ++ visits.flatMap Visit.records := by
  induction h with
  | stopped => simp [ScenarioResult.withFailure]
  | halted _ hstep =>
    have hrecords := ((returns_step _ _ _).of_yields hstep).records
    simpa [ScenarioResult.withFailure, Visit.records] using hrecords
  | ended _ hstep =>
    have hrecords := ((returns_step _ _ _).of_yields hstep).records
    simpa [Visit.records] using hrecords
  | next _ hstep _ _ ih =>
    rw [ih, ((returns_step _ _ _).of_yields hstep).records, List.append_assoc, List.flatMap_cons]
    rfl

end Visits

/-- Records without a failure before the others do not change how the slot ends. -/
theorem Verdict.prepend (h : Verdict r more halt) (hsteps : ∀ step ∈ steps, step.status ≠ .failed) :
    Verdict r (steps ++ more) halt := by
  cases h with
  | passed hmore hstatus herror =>
    exact .passed (List.forall_mem_append.2 ⟨hsteps, hmore⟩) hstatus herror
  | failed hbefore hlast hreason hstatus herror =>
    rw [← List.append_assoc]
    exact .failed (List.forall_mem_append.2 ⟨hsteps, hbefore⟩) hlast hreason hstatus herror
  | stopped hmore hkind hstatus herror =>
    exact .stopped (List.forall_mem_append.2 ⟨hsteps, hmore⟩) hkind hstatus herror

/-- A walk fails with its last record, or when it is stopped. -/
theorem Visits.verdict (h : p.Visits nav n result visits halt r) (hstatus : result.status = .passed)
    (herror : result.error = none) : Verdict r (visits.flatMap Visit.records) halt := by
  induction h with
  | stopped hkind => exact .stopped (List.forall_mem_nil _) hkind rfl rfl
  | halted _ hstep =>
    obtain ⟨before, last, hsteps, hbefore, hlast, hreason⟩ :=
      ((returns_step _ _ _).of_yields hstep).leaves.exists_failed
    rw [List.flatMap_singleton, Visit.records, hsteps]
    exact .failed hbefore hlast hreason rfl rfl
  | ended _ hstep =>
    have hstepped := (returns_step _ _ _).of_yields hstep
    rw [List.flatMap_singleton]
    exact .passed hstepped.leaves.forall_ne_failed (hstepped.status.trans hstatus)
      (hstepped.error.trans herror)
  | next _ hstep _ _ ih =>
    have hstepped := (returns_step _ _ _).of_yields hstep
    exact (ih (hstepped.status.trans hstatus) (hstepped.error.trans herror)).prepend
      hstepped.leaves.forall_ne_failed

/-! ## The records of all visits -/

/-- The records of a slot that made these visits and was stopped before that node, if it was, are in
order, and say how the slot ends. -/
structure Logged (g : Graph) (visits : List Visit) (halt : Option Node) (r : ScenarioResult) :
    Prop where
  records : (visits.flatMap Visit.entries).map Prod.snd = r.stepResults
  named : ∀ e ∈ visits.flatMap Visit.entries, e.2.IsOf e.1
  /-- Right after a record that a step waits comes the record of how it ended. -/
  followed : ∀ before n w after, visits.flatMap Visit.entries = before ++ (n, w) :: after →
    w.status = .waiting → ∃ last rest, after = (n, last) :: rest ∧ last.IsTerminal ∧
      last.nodeId = w.nodeId ∧ last.nodeName = w.nodeName ∧ last.actionType = w.actionType
  /-- A record of how a step ended comes right after a record that a step waits, if and only if it
  is that of an enabled action that waits. -/
  preceded : ∀ before n last after, visits.flatMap Visit.entries = before ++ (n, last) :: after →
    last.IsTerminal → ((∃ front m w, before = front ++ [(m, w)] ∧ w.status = .waiting) ↔ n.Waits)
  /-- The skipped records are those of the disabled inner nodes visited. -/
  skipped : ((visits.flatMap Visit.entries).filter fun e => e.2.status = .skipped).map Prod.fst =
    (visits.map Visit.node).filter fun n => n.IsInner ∧ n.options.disabled = true
  conditions : ∀ n step, (n, step) ∈ visits.flatMap Visit.entries → n.kind = .condition →
    step.status ≠ .failed
  failure_last : ∀ before step after, r.stepResults = before ++ step :: after →
    step.status = .failed → after = []
  failed_iff : r.status = .failed ↔
    (∃ last, r.stepResults.getLast? = some last ∧ last.status = .failed) ∨ halt ≠ none ∨
      g.startNode? = none
  failure_error : ∀ last, r.stepResults.getLast? = some last → last.status = .failed →
    last.error ≠ none ∧ r.error = last.error
  halt_error : ∀ n, halt = some n → n.kind ≠ .finish ∧ r.error = some DeviceError.stoppedText
  startless_error : g.startNode? = none → r.error = some noStartText
  passed : r.status ≠ .failed → r.status = .passed ∧ r.error = none

/-- A record of a slot belongs to a visit, in which it is made with some records before and after
it. -/
theorem exists_visit_of_entries {before after : List (Node × StepResult)} {step : StepResult}
    (h : visits.flatMap Visit.entries = before ++ (n, step) :: after) :
    ∃ v ∈ visits, ∃ front back earlier later, v.node = n ∧ v.records = front ++ step :: back ∧
      before = earlier ++ front.map (fun step => (n, step)) ∧
      after = back.map (fun step => (n, step)) ++ later := by
  obtain ⟨l₁, v, l₂, front, back, rfl, hv, rfl, rfl⟩ := exists_of_flatMap_eq h
  obtain ⟨front', rest, hrecords, rfl, hrest⟩ := List.map_eq_append_iff.1 hv
  obtain ⟨step', back', rfl, hstep, rfl⟩ := List.map_eq_cons_iff.1 hrest
  obtain ⟨rfl, rfl⟩ := Prod.mk.inj hstep
  exact ⟨v, by simp, front', back', _, _, rfl, hrecords, rfl, rfl⟩

section

variable (h : ∀ v ∈ visits, ∃ flow, v.node.Leaves v.records flow)
include h

/-- Each record is one of the node of its visit. -/
theorem entries_named : ∀ e ∈ visits.flatMap Visit.entries, e.2.IsOf e.1 := by
  intro e he
  obtain ⟨v, hv, hmem⟩ := List.mem_flatMap.1 he
  obtain ⟨step, hstep, rfl⟩ := List.mem_map.1 hmem
  obtain ⟨flow, hleaves⟩ := h v hv
  exact hleaves.isOf step hstep

/-- A record that a step waits is followed by the record of how that ended. -/
theorem entries_followed {before after : List (Node × StepResult)} {w : StepResult}
    (hsplit : visits.flatMap Visit.entries = before ++ (n, w) :: after) (hw : w.status = .waiting) :
    n.Waits ∧ ∃ last rest, after = (n, last) :: rest ∧ last.IsTerminal := by
  obtain ⟨v, hv, front, back, earlier, later, rfl, hrecords, -, rfl⟩ :=
    exists_visit_of_entries hsplit
  obtain ⟨flow, hleaves⟩ := h v hv
  rw [hrecords] at hleaves
  obtain ⟨hwaits, last, rfl, hlast⟩ := hleaves.of_waiting hw
  exact ⟨hwaits, last, later, rfl, hlast⟩

/-- The record of how a step ended is preceded by one that it waits if the node does. -/
theorem entries_preceded {before after : List (Node × StepResult)} {last : StepResult}
    (hsplit : visits.flatMap Visit.entries = before ++ (n, last) :: after)
    (hlast : last.IsTerminal) :
    (∃ front m w, before = front ++ [(m, w)] ∧ w.status = .waiting) ↔ n.Waits := by
  constructor
  · rintro ⟨front, m, w, rfl, hw⟩
    rw [List.append_assoc] at hsplit
    obtain ⟨hwaits, last', rest, hnext, -⟩ := entries_followed h hsplit hw
    obtain ⟨hsame, -⟩ := List.cons.inj hnext
    obtain ⟨rfl, -⟩ := Prod.mk.inj hsame
    exact hwaits
  · intro hwaits
    obtain ⟨v, hv, front, back, earlier, later, rfl, hrecords, rfl, -⟩ :=
      exists_visit_of_entries hsplit
    obtain ⟨flow, hleaves⟩ := h v hv
    rw [hrecords] at hleaves
    obtain ⟨w, rfl, hw⟩ := hleaves.of_terminal hlast hwaits
    exact ⟨earlier, v.node, w, rfl, hw⟩

/-- The skipped records are those of the disabled inner nodes visited. -/
theorem entries_skipped :
    ((visits.flatMap Visit.entries).filter fun e => e.2.status = .skipped).map Prod.fst =
      (visits.map Visit.node).filter fun n => n.IsInner ∧ n.options.disabled = true := by
  induction visits with
  | nil => rfl
  | cons v rest ih =>
    obtain ⟨⟨flow, hleaves⟩, hrest⟩ := List.forall_mem_cons.1 h
    rw [List.flatMap_cons, List.filter_append, List.map_append, ih hrest, Visit.entries,
      hleaves.skips, List.map_cons, List.filter_cons]
    split
    · next hdisabled => simp [hdisabled]
    · next hdisabled => simp [hdisabled]

/-- No record of a condition is that of a failure. -/
theorem entries_conditions {step : StepResult} (hmem : (n, step) ∈ visits.flatMap Visit.entries)
    (hkind : n.kind = .condition) : step.status ≠ .failed := by
  obtain ⟨v, hv, hentry⟩ := List.mem_flatMap.1 hmem
  obtain ⟨step', hstep, heq⟩ := List.mem_map.1 hentry
  obtain ⟨rfl, rfl⟩ := Prod.mk.inj heq
  obtain ⟨flow, hleaves⟩ := h v hv
  obtain ⟨answer, rfl, -⟩ := hleaves.of_condition hkind
  exact hleaves.forall_ne_failed _ hstep

end

/-- The records of visits are what their steps tell to be complete or waiting. -/
theorem map_entries :
    (visits.flatMap Visit.entries).map Prod.snd = visits.flatMap Visit.records := by
  simp [List.map_flatMap, Visit.entries, Function.comp_def]

namespace Verdict

/-- A failure among the records is the last of them. -/
theorem failure_last (h : Verdict r steps halt) {before after : List StepResult} {step : StepResult}
    (hsplit : steps = before ++ step :: after) (hstep : step.status = .failed) : after = [] := by
  have hmem : step ∈ before ++ step :: after := List.mem_append_right _ List.mem_cons_self
  cases h with
  | passed hsteps => exact absurd hstep (hsteps step (hsplit ▸ hmem))
  | stopped hsteps => exact absurd hstep (hsteps step (hsplit ▸ hmem))
  | @failed earlier last _ hbefore =>
    rcases List.eq_nil_or_concat after with rfl | ⟨rest, x, rfl⟩
    · rfl
    · have hconcat : earlier ++ [last] = (before ++ step :: rest) ++ [x] := by
        rw [hsplit, List.concat_eq_append]
        simp
      obtain ⟨rfl, -⟩ := List.append_inj' hconcat rfl
      exact absurd hstep (hbefore step (List.mem_append_right _ List.mem_cons_self))

/-- A verdict is a failure if the last step failed or the walk was stopped. -/
theorem failed_iff (h : Verdict r steps halt) : r.status = .failed ↔
    (∃ last, steps.getLast? = some last ∧ last.status = .failed) ∨ halt ≠ none := by
  cases h with
  | passed hsteps hstatus =>
    refine ⟨fun hfailed => by simp [hstatus] at hfailed, ?_⟩
    rintro (⟨last, hlast, hfailed⟩ | hhalt)
    · exact absurd hfailed (hsteps last (List.mem_of_getLast? hlast))
    · exact absurd rfl hhalt
  | failed _ hlast _ hstatus =>
    exact ⟨fun _ => .inl ⟨_, List.getLast?_concat, hlast⟩, fun _ => hstatus⟩
  | stopped _ _ hstatus => exact ⟨fun _ => .inr nofun, fun _ => hstatus⟩

/-- A verdict has the error of a last step that failed. -/
theorem failure_error (h : Verdict r steps halt) {last : StepResult}
    (hlast : steps.getLast? = some last) (hfailed : last.status = .failed) :
    last.error ≠ none ∧ r.error = last.error := by
  cases h with
  | passed hsteps => exact absurd hfailed (hsteps last (List.mem_of_getLast? hlast))
  | stopped hsteps => exact absurd hfailed (hsteps last (List.mem_of_getLast? hlast))
  | failed _ _ hreason _ herror =>
    obtain rfl := Option.some.inj (List.getLast?_concat.symm.trans hlast)
    exact ⟨by simp [hreason], herror.trans hreason.symm⟩

/-- A verdict on a walk that was stopped says so. -/
theorem halt_error (h : Verdict r steps (some n)) :
    n.kind ≠ .finish ∧ r.error = some DeviceError.stoppedText := by
  cases h with
  | stopped _ hkind _ herror => exact ⟨hkind, herror⟩

/-- A verdict that is no failure has no error. -/
theorem of_not_failed (h : Verdict r steps halt) (hfailed : r.status ≠ .failed) :
    r.status = .passed ∧ r.error = none := by
  cases h with
  | passed _ hstatus herror => exact ⟨hstatus, herror⟩
  | failed _ _ _ hstatus => exact absurd hstatus hfailed
  | stopped _ _ hstatus => exact absurd hstatus hfailed

/-- A verdict is about the status and the error alone. -/
theorem congr (h : Verdict r steps halt) (hstatus : r'.status = r.status)
    (herror : r'.error = r.error) : Verdict r' steps halt := by
  cases h with
  | passed hsteps h h' => exact .passed hsteps (hstatus.trans h) (herror.trans h')
  | failed hbefore hlast hreason h h' =>
    exact .failed hbefore hlast hreason (hstatus.trans h) (herror.trans h')
  | stopped hsteps hkind h h' => exact .stopped hsteps hkind (hstatus.trans h) (herror.trans h')

end Verdict

/-- A slot that has made visits keeps the log of them. -/
theorem logged_of_verdict {g : Graph} (hstart : g.startNode? ≠ none)
    (hleaves : ∀ v ∈ visits, ∃ flow, v.node.Leaves v.records flow)
    (hrecords : r.stepResults = visits.flatMap Visit.records) (h : Verdict r r.stepResults halt) :
    Logged g visits halt r where
  records := map_entries.trans hrecords.symm
  named := entries_named hleaves
  followed before n w after hsplit hw := by
    have hnamed := entries_named hleaves
    rw [hsplit] at hnamed
    obtain ⟨-, last, rest, rfl, hlast⟩ := entries_followed hleaves hsplit hw
    have hofw : w.IsOf n := hnamed (n, w) (by simp)
    have hof : last.IsOf n := hnamed (n, last) (by simp)
    exact ⟨last, rest, rfl, hlast, hof.nodeId.trans hofw.nodeId.symm,
      hof.nodeName.trans hofw.nodeName.symm, hof.actionType.trans hofw.actionType.symm⟩
  preceded _ _ _ _ hsplit hlast := entries_preceded hleaves hsplit hlast
  skipped := entries_skipped hleaves
  conditions _ _ hmem hkind := entries_conditions hleaves hmem hkind
  failure_last _ _ _ hsplit hstep := h.failure_last hsplit hstep
  failed_iff := by rw [h.failed_iff, or_iff_left hstart]
  failure_error _ hlast hfailed := h.failure_error hlast hfailed
  halt_error _ hhalt := (hhalt ▸ h).halt_error
  startless_error hnone := absurd hnone hstart
  passed := h.of_not_failed

/-- A slot without a start node has an empty log, and fails. -/
theorem logged_startless {g : Graph} (hstart : g.startNode? = none) (hrecords : r.stepResults = [])
    (hstatus : r.status = .failed) (herror : r.error = some noStartText) :
    Logged g [] none r where
  records := hrecords.symm
  named := List.forall_mem_nil _
  followed _ _ _ _ hsplit := by simp at hsplit
  preceded _ _ _ _ hsplit := by simp at hsplit
  skipped := rfl
  conditions _ _ hmem := absurd hmem List.not_mem_nil
  failure_last _ _ _ hsplit := by simp [hrecords] at hsplit
  failed_iff := iff_of_true hstatus (.inr (.inr hstart))
  failure_error _ hlast := by simp [hrecords] at hlast
  halt_error := nofun
  startless_error _ := herror
  passed hfailed := absurd hstatus hfailed

/-- A slot whose scenario was run to its end keeps the log of its visits. -/
theorem run_logged {g : Graph} {iteration : UInt32} {told : List (Answer RunCall.Reply)}
    (h : (p.run g iteration).Yields told (some r)) :
    ∃ visits halt, p.Traced g iteration told visits halt ∧ Logged g visits halt r := by
  suffices hall : (p.run g iteration).Returns fun told r =>
      ∃ visits halt, p.Traced g iteration told visits halt ∧ Logged g visits halt r from
    hall.of_yields h
  rw [run]
  apply Task.Returns.now_bind
  intro began
  cases hstart : (Navigator.new g p.settings.maxNodeVisits).start? with
  | none =>
    have hnone : g.startNode? = none := Option.map_eq_none_iff.1 hstart
    apply Task.Returns.now_bind
    intro ended
    exact Task.returns_pure.2 ⟨[], none, .startless hnone, logged_startless hnone rfl rfl rfl⟩
  | some entered =>
    obtain ⟨nav, n⟩ := entered
    have hsome : g.startNode? ≠ none := fun hnone => by
      simp [Navigator.start?, Navigator.new, hnone] at hstart
    apply (returns_walk_visits p nav n _).bind
    rintro walk r ⟨visits, halt, hvisits, rfl⟩
    apply Task.Returns.now_bind
    intro ended
    have hrecords : r.stepResults = visits.flatMap Visit.records := hvisits.records
    have hverdict : Verdict r r.stepResults halt := hrecords ▸ hvisits.verdict rfl rfl
    exact Task.returns_pure.2 ⟨visits, halt, .walked hstart hvisits,
      logged_of_verdict hsome hvisits.leaves hrecords (hverdict.congr rfl rfl)⟩

end SlotPlan

/-- A scenario with a disabled tap, a wait for a text, a condition that asks for it again, and an
unknown wait. -/
def Sample.rounds : Graph where
  id := "g"
  name := ""
  nodes :=
    [⟨"s", .start, none, .empty⟩,
      ⟨"off", .action, none, .ofList [("actionType", .text "tap"), ("disabled", .bool true)]⟩,
      ⟨"w", .action, none, .ofList [("actionType", .text "waitUntilTextExists"),
        ("text", .text "x")]⟩,
      ⟨"c", .condition, none, .ofList [("conditionType", .text "textExists"), ("text", .text "x")]⟩,
      ⟨"u", .action, none, .ofList [("actionType", .text "waitUntilDawn")]⟩,
      ⟨"e", .finish, none, .empty⟩]
  connections :=
    [⟨"s", "off", none⟩, ⟨"off", "w", none⟩, ⟨"w", "c", none⟩, ⟨"c", "e", some "yes"⟩,
      ⟨"c", "u", some "no"⟩, ⟨"u", "e", none⟩]

/-- The sample skips, waits, decides, waits again and fails. -/
theorem SlotPlan.run_logged_sample :
    ∃ told r, (Sample.tappingPlan.run Sample.rounds 1).Yields told (some r) ∧
      r.stepResults.map StepResult.status =
        [.skipped, .waiting, .passed, .passed, .waiting, .failed] ∧
      ∃ visits halt, Sample.tappingPlan.Traced Sample.rounds 1 told visits halt ∧
        Logged Sample.rounds visits halt r := by
  obtain ⟨told, hyields⟩ := Task.runAlone_yields Sample.glimpse
    (Sample.tappingPlan.run Sample.rounds 1) (.initial none 0)
  have hends : ((Sample.tappingPlan.run Sample.rounds 1).runAlone Sample.glimpse
      (.initial none 0)).1.map (fun r => r.stepResults.map StepResult.status) =
      some [.skipped, .waiting, .passed, .passed, .waiting, .failed] := by decide +kernel
  obtain ⟨r, hr, hstatuses⟩ := Option.map_eq_some_iff.1 hends
  rw [hr] at hyields
  exact ⟨told, r, hyields, hstatuses, run_logged hyields⟩

end DeviceSuite
