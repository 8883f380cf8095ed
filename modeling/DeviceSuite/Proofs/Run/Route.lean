import DeviceSuite.Proofs.Run.Steps
import Mathlib.Data.List.Forall2

/-!
# The route of a slot

The nodes that the walk of a slot visits are those of its route, the walk through its graph in which
each enabled condition is followed by the answer that its evaluation gave in that visit. The walk is
cut short after a step that fails, and before a node other than an end where the stop flag was read
as raised. What the slot records is the route so far, without its start and end nodes.
-/

namespace DeviceSuite

namespace Navigator

/-- The nodes of a walk that has entered a node, where the visits are answered like this, one after
the other; a visit without an answer is not answered. -/
def route (nav : Navigator) (n : Node) (answers : List (Option Bool)) : List Node :=
  n :: match _h : nav.advance? n answers.head?.join with
    | none => []
    | some (nav, next) => nav.route next answers.tail
termination_by nav.budget
decreasing_by exact advance?_budget_lt _h

variable {nav nav' : Navigator} {n next : Node} {answers : List (Option Bool)}

/-- A route that does not lead on ends where it is. -/
theorem route_of_none (h : nav.advance? n answers.head?.join = none) :
    nav.route n answers = [n] := by
  rw [route]
  split
  · rfl
  · next hsome =>
    rw [h] at hsome
    cases hsome

/-- A route that leads on goes on from there with the other answers. -/
theorem route_of_some (h : nav.advance? n answers.head?.join = some (nav', next)) :
    nav.route n answers = n :: nav'.route next answers.tail := by
  rw [route]
  split
  · next hnone =>
    rw [h] at hnone
    cases hnone
  · next hsome =>
    rw [h] at hsome
    cases hsome
    rfl

/-- A route begins where it is. -/
theorem route_eq_cons (nav : Navigator) (n : Node) (answers : List (Option Bool)) :
    ∃ rest, nav.route n answers = n :: rest := by
  rw [route]
  exact ⟨_, rfl⟩

end Navigator

/-- The records of steps that have ended; those that only say that a step waits are left out. -/
def settled (steps : List StepResult) : List StepResult :=
  steps.filter fun step => step.status ≠ .waiting

/-- The settled records of two lists are those of each. -/
theorem settled_append (steps more : List StepResult) :
    settled (steps ++ more) = settled steps ++ settled more :=
  List.filter_append ..

namespace Node

variable {n : Node} {steps waiting : List StepResult} {last : StepResult} {flow : Flow}

/-- A record that does not wait is settled. -/
theorem settled_singleton (h : last.status ≠ .waiting) : settled [last] = [last] := by
  simp [settled, h]

/-- What is said before a node acts is no record of a step that has ended. -/
theorem Forewarns.settled (h : n.Forewarns waiting) (hlast : last.status ≠ .waiting) :
    settled (waiting ++ [last]) = [last] := by
  cases h with
  | silent => exact settled_singleton hlast
  | waiting _ _ hstatus => simp [DeviceSuite.settled, hstatus, hlast]

/-- The step of an inner node has one record when it has ended, and that of any other node none. It
is the record of a failure if the step halts the walk, and only then. -/
theorem Leaves.settled (h : n.Leaves steps flow) :
    (¬ n.IsInner ∧ settled steps = [] ∧ flow = .next none) ∨
      n.IsInner ∧ ∃ last, settled steps = [last] ∧ last.IsOf n ∧
        ((∃ answer, flow = .next answer ∧ last.status ≠ .failed) ∨
          ∃ error, flow = .halt error ∧ last.status = .failed ∧ last.error = some error) := by
  cases h with
  | nothing hinner => exact .inl ⟨hinner, rfl, rfl⟩
  | skipped hinner _ hof hstatus =>
    exact .inr ⟨hinner, _, settled_singleton (by simp [hstatus]), hof,
      .inl ⟨_, rfl, by simp [hstatus]⟩⟩
  | decided hkind _ hof hstatus =>
    exact .inr ⟨isInner_of_condition hkind, _, settled_singleton (by simp [hstatus]), hof,
      .inl ⟨_, rfl, by simp [hstatus]⟩⟩
  | passed hkind _ hwaiting hof hstatus =>
    exact .inr ⟨isInner_of_action hkind, _, hwaiting.settled (by simp [hstatus]), hof,
      .inl ⟨_, rfl, by simp [hstatus]⟩⟩
  | failed hkind _ hwaiting hof hstatus herror =>
    exact .inr ⟨isInner_of_action hkind, _, hwaiting.settled (by simp [hstatus]), hof,
      .inr ⟨_, rfl, hstatus, herror⟩⟩

/-- The step of an inner node has one record when it has ended. -/
theorem Leaves.ids (h : n.Leaves steps flow) :
    (DeviceSuite.settled steps).map StepResult.nodeId = if n.IsInner then [n.id] else [] := by
  rcases h.settled with ⟨hinner, hnone, -⟩ | ⟨hinner, last, hlast, hof, -⟩
  · rw [if_neg hinner, hnone]
    rfl
  · rw [if_pos hinner, hlast, List.map_singleton, hof.nodeId]

/-- A step after which the walk goes on has not failed. -/
theorem Leaves.unfailed {answer : Option Bool} (h : n.Leaves steps (.next answer)) :
    ∀ step ∈ DeviceSuite.settled steps, step.status ≠ .failed := by
  rcases h.settled with ⟨-, hnone, -⟩ | ⟨-, last, hlast, -, ⟨-, -, hstatus⟩ | ⟨error, hflow, -⟩⟩
  · rw [hnone]
    exact List.forall_mem_nil _
  · rw [hlast]
    exact List.forall_mem_singleton.2 hstatus
  · cases hflow

/-- A step that halts the walk has failed, for the reason that it gives. -/
theorem Leaves.failing {error : String} (h : n.Leaves steps (.halt error)) :
    n.IsInner ∧ ∃ last, DeviceSuite.settled steps = [last] ∧ last.nodeId = n.id ∧
      last.status = .failed ∧ last.error = some error := by
  rcases h.settled with
    ⟨-, -, hflow⟩ | ⟨hinner, last, hlast, hof, ⟨_, hflow, -⟩ | ⟨_, hflow, hfailed, herror⟩⟩
  · cases hflow
  · cases hflow
  · cases hflow
    exact ⟨hinner, last, hlast, hof.nodeId, hfailed, herror⟩

end Node

/-- A visit of a node in a walk: what the stop flag read when the node was reached, and what the
step of the node was told. -/
structure Visit where
  node : Node
  stopped : Bool
  told : List (Answer RunCall.Reply)

/-- What a walk is told in a visit. -/
def Visit.transcript (v : Visit) : List (Answer RunCall.Reply) := .flag v.stopped :: v.told

namespace SlotPlan

/-- How a walk ends that has visited nodes of its route and made records of their steps, by what it
is told after that: it has come to the end of its route, its last step has failed, or it is stopped
before a node that is no end. -/
inductive Closes (r : ScenarioResult) (route visited : List Node) (steps : List StepResult) :
    List (Answer RunCall.Reply) → Prop where
  | whole : visited = route → (∀ step ∈ steps, step.status ≠ .failed) → r.status = .passed →
    r.error = none → Closes r route visited steps []
  | failed {nodes : List Node} {n : Node} {before : List StepResult} {last : StepResult} :
    visited = nodes ++ [n] → n.IsInner → steps = before ++ [last] → last.nodeId = n.id →
    last.status = .failed → (∀ step ∈ before, step.status ≠ .failed) → r.status = .failed →
    r.error = last.error → Closes r route visited steps []
  | stopped {n : Node} {rest : List Node} :
    route = visited ++ n :: rest → n.kind ≠ .finish → (∀ step ∈ steps, step.status ≠ .failed) →
    r.status = .failed → r.error = some DeviceError.stoppedText →
    Closes r route visited steps [.flag true]

/-- How a walk closes is told by the status and the error alone. -/
theorem Closes.congr {r r' : ScenarioResult} {route visited : List Node} {steps : List StepResult}
    {reading : List (Answer RunCall.Reply)} (h : Closes r route visited steps reading)
    (hstatus : r'.status = r.status) (herror : r'.error = r.error) :
    Closes r' route visited steps reading := by
  cases h with
  | whole hvisited hsteps h h' => exact .whole hvisited hsteps (hstatus.trans h) (herror.trans h')
  | failed hvisited hinner hsteps hid hlast hbefore h h' =>
    exact .failed hvisited hinner hsteps hid hlast hbefore (hstatus.trans h) (herror.trans h')
  | stopped hroute hkind hsteps h h' =>
    exact .stopped hroute hkind hsteps (hstatus.trans h) (herror.trans h')

/-- The walk of a slot, from a node that has been entered: the visits it makes with their answers,
the records it adds, and what it is told in all. Whatever answers the rest of the route had, the
nodes it visits are the first ones of the route. -/
structure Walked (p : SlotPlan) (nav : Navigator) (n : Node) (visits : List Visit)
    (answers : List (Option Bool)) (steps : List StepResult) (r : ScenarioResult)
    (told : List (Answer RunCall.Reply)) : Prop where
  answered : List.Forall₂ (fun v answer => p.Decides v.node v.told answer) visits answers
  free : ∀ v ∈ visits, v.stopped = true → v.node.kind = .finish
  ids : (settled steps).map StepResult.nodeId =
    ((visits.map Visit.node).filter fun n => n.IsInner).map Node.id
  visited : ∀ more, visits.map Visit.node <+: nav.route n (answers ++ more)
  closes : ∃ reading, told = visits.flatMap Visit.transcript ++ reading ∧
    ∀ more, Closes r (nav.route n (answers ++ more)) (visits.map Visit.node) (settled steps) reading

variable {p : SlotPlan} {nav nav' : Navigator} {n next : Node} {r result result' : ScenarioResult}
  {route visited : List Node} {steps more : List StepResult}
  {told reading : List (Answer RunCall.Reply)}

/-- A walk that goes on after a step that has not failed ends as its rest does. -/
theorem Closes.cons (h : Closes r route visited more reading)
    (hsteps : ∀ step ∈ steps, step.status ≠ .failed) :
    Closes r (n :: route) (n :: visited) (steps ++ more) reading := by
  have hall : ∀ {rest : List StepResult}, (∀ step ∈ rest, step.status ≠ .failed) →
      ∀ step ∈ steps ++ rest, step.status ≠ .failed := fun hrest step hstep =>
    (List.mem_append.1 hstep).elim (hsteps step) (hrest step)
  cases h with
  | whole hvisited hmore hstatus herror =>
    exact .whole (congrArg _ hvisited) (hall hmore) hstatus herror
  | @failed nodes m before last hvisited hinner hmore hid hlast hbefore hstatus herror =>
    have hrecords : steps ++ more = (steps ++ before) ++ [last] := by
      rw [hmore, List.append_assoc]
    have hnodes : n :: visited = (n :: nodes) ++ [m] := congrArg _ hvisited
    exact .failed hnodes hinner hrecords hid hlast (hall hbefore) hstatus herror
  | stopped hroute hkind hmore hstatus herror =>
    exact .stopped (congrArg _ hroute) hkind (hall hmore) hstatus herror

/-- A walk may end with its first visit. -/
theorem walked_once {stopped : Bool} {x : ScenarioResult × Flow} (hstep : p.Stepped n result told x)
    (hfree : stopped = true → n.kind = .finish)
    (hcloses : ∀ more, Closes r (nav.route n (x.2.answer :: more)) [n]
      (settled ((eventsOf told).filterMap Event.step?)) []) :
    p.Walked nav n [⟨n, stopped, told⟩] [x.2.answer] ((eventsOf told).filterMap Event.step?) r
      (.flag stopped :: (told ++ [])) where
  answered := .cons hstep.decides .nil
  free := by simpa using hfree
  ids := by
    rw [hstep.leaves.ids]
    by_cases hinner : n.IsInner <;> simp [hinner]
  visited more := by
    obtain ⟨rest, hroute⟩ := nav.route_eq_cons n ([x.2.answer] ++ more)
    exact ⟨rest, hroute.symm⟩
  closes := ⟨[], by simp [Visit.transcript], hcloses⟩

/-- A walk goes on after a visit whose step has not failed. -/
theorem Walked.cons {stopped : Bool} {answer : Option Bool} {later : List (Answer RunCall.Reply)}
    {visits : List Visit} {answers : List (Option Bool)}
    (h : p.Walked nav' next visits answers more r later)
    (hnext : nav.advance? n answer = some (nav', next))
    (hstep : p.Stepped n result told (result', .next answer))
    (hfree : stopped = true → n.kind = .finish) :
    p.Walked nav n (⟨n, stopped, told⟩ :: visits) (answer :: answers)
      ((eventsOf told).filterMap Event.step? ++ more) r (.flag stopped :: (told ++ later)) where
  answered := .cons hstep.decides h.answered
  free := List.forall_mem_cons.2 ⟨hfree, h.free⟩
  ids := by
    rw [settled_append, List.map_append, hstep.leaves.ids, h.ids]
    by_cases hinner : n.IsInner <;> simp [hinner]
  visited rest := by
    rw [List.cons_append, Navigator.route_of_some hnext]
    exact List.cons_prefix_cons.2 ⟨rfl, h.visited rest⟩
  closes := by
    obtain ⟨reading, hlater, hcloses⟩ := h.closes
    refine ⟨reading, by simp [hlater, Visit.transcript], ?_⟩
    intro rest
    rw [List.cons_append, Navigator.route_of_some hnext, settled_append]
    exact (hcloses rest).cons hstep.leaves.unfailed

/-- The walk of a slot follows its route. -/
theorem returns_walk (hstatus : result.status = .passed) (herror : result.error = none) :
    (p.walk nav n result).Returns fun told r =>
      ∃ visits answers steps, r.stepResults = result.stepResults ++ steps ∧
        p.Walked nav n visits answers steps r told := by
  induction nav, n, result using SlotPlan.walk.induct with
  | case1 nav n result ih =>
    rw [walk]
    apply Task.Returns.isStopped_bind
    intro stopped
    split
    · next hstop =>
      obtain ⟨hkind, rfl⟩ : n.kind ≠ .finish ∧ stopped = true := by simpa using hstop
      refine Task.returns_done.2 ⟨[], [], [], (List.append_nil _).symm, .nil, by simp, rfl,
        fun _ => List.nil_prefix, [.flag true], rfl, ?_⟩
      intro more
      obtain ⟨rest, hroute⟩ := nav.route_eq_cons n more
      exact .stopped hroute hkind (List.forall_mem_nil _) rfl rfl
    · next hgo =>
      have hfree : stopped = true → n.kind = .finish := fun h => by simpa [h] using hgo
      apply (returns_step p n result).bind
      rintro told ⟨result', answer | error⟩ hstep
      · -- The step has not failed, and the walk goes on unless the route is at its end.
        have hstatus' : result'.status = .passed := hstep.status.trans hstatus
        have herror' : result'.error = none := hstep.error.trans herror
        dsimp only
        split
        · next hnext =>
          refine Task.returns_done.2 ⟨_, _, _, hstep.records, walked_once hstep hfree ?_⟩
          intro more
          exact .whole (Navigator.route_of_none hnext).symm hstep.leaves.unfailed hstatus' herror'
        · next nav' next hnext =>
          apply (ih _ _ _ _ hnext hstatus' herror').mono
          rintro later r ⟨visits, answers, steps, hrecords, hwalked⟩
          refine ⟨_, _, _, ?_, hwalked.cons hnext hstep hfree⟩
          rw [hrecords, hstep.records, List.append_assoc]
      · obtain ⟨hinner, last, hlast, hid, hfailed, hreason⟩ := hstep.leaves.failing
        refine Task.returns_done.2 ⟨_, _, _, hstep.records, walked_once hstep hfree ?_⟩
        intro more
        exact .failed (List.nil_append [n]).symm hinner (hlast.trans (List.nil_append [last]).symm)
          hid hfailed (List.forall_mem_nil _) rfl hreason.symm

/-- A slot whose scenario has a start node leaves records of the steps along its route, until it is
cut short: of all of them, when it is not. -/
theorem run_follows_route {g : Graph} {iteration : UInt32}
    (hstart : (Navigator.new g p.settings.maxNodeVisits).start? = some (nav, n))
    (h : (p.run g iteration).Yields told (some r)) :
    ∃ began ended visits answers walk, told = .time began :: (walk ++ [.time ended]) ∧
      p.Walked nav n visits answers r.stepResults r walk := by
  suffices hall : (p.run g iteration).Returns fun told r =>
      ∃ began ended visits answers walk, told = .time began :: (walk ++ [.time ended]) ∧
        p.Walked nav n visits answers r.stepResults r walk from hall.of_yields h
  rw [run]
  apply Task.Returns.now_bind
  intro began
  rw [hstart]
  apply (returns_walk rfl rfl).bind
  rintro walk r ⟨visits, answers, steps, hrecords, hwalked⟩
  obtain rfl : r.stepResults = steps := hrecords
  apply Task.Returns.now_bind
  intro ended
  exact Task.returns_pure.2 ⟨began, ended, visits, answers, walk, rfl,
    { hwalked with
      closes := hwalked.closes.imp fun _ h => ⟨h.1, fun more => (h.2 more).congr rfl rfl⟩ }⟩

end SlotPlan

namespace Sample

/-- A service of a device that shows a text at the first look, and never again. -/
def glimpse : Service RunCall.Reply Nat where
  accept _ looks _ := ⟨looks, 0, []⟩
  answer _ looks
    | .device (.perform _) => (looks, some (.ok .ok))
    | .device (.locate _) => (looks + 1, some (.ok (if looks = 0 then .present none else .absent)))
    | .emit _ => (looks, some ())
    | _ => (looks, none)

/-- A scenario that taps as long as a text is shown. -/
def tapping : Graph where
  id := "g"
  name := ""
  nodes :=
    [⟨"s", .start, none, .empty⟩,
      ⟨"c", .condition, none, .ofList [("conditionType", .text "textExists"), ("text", .text "x"),
        ("maxVisits", .int 2)]⟩,
      ⟨"t", .action, none, .ofList [("actionType", .text "tap"), ("x", .int 1), ("y", .int 2)]⟩,
      ⟨"e", .finish, none, .empty⟩]
  connections := [⟨"s", "c", none⟩, ⟨"c", "t", some "yes"⟩, ⟨"t", "c", none⟩, ⟨"c", "e", some "no"⟩]

/-- A plan for the scenario. -/
def tappingPlan : SlotPlan := ⟨.default, false, .forDevice "r" "r" "d"⟩

end Sample

/-- The sample looks, taps, looks again and ends. -/
theorem SlotPlan.run_follows_route_sample :
    ∃ nav n told r, (Navigator.new Sample.tapping 1).start? = some (nav, n) ∧
      (Sample.tappingPlan.run Sample.tapping 1).Yields told (some r) ∧
      (settled r.stepResults).map StepResult.nodeId = ["c", "t", "c"] ∧
      ∃ began ended visits answers walk, told = .time began :: (walk ++ [.time ended]) ∧
        Sample.tappingPlan.Walked nav n visits answers r.stepResults r walk := by
  obtain ⟨told, hyields⟩ := Task.runAlone_yields Sample.glimpse
    (Sample.tappingPlan.run Sample.tapping 1) (.initial none 0)
  have hends : ((Sample.tappingPlan.run Sample.tapping 1).runAlone Sample.glimpse
      (.initial none 0)).1.map (fun r => (settled r.stepResults).map StepResult.nodeId) =
      some ["c", "t", "c"] := by decide +kernel
  obtain ⟨r, hr, hids⟩ := Option.map_eq_some_iff.1 hends
  rw [hr] at hyields
  exact ⟨_, _, told, r, rfl, hyields, hids, run_follows_route rfl hyields⟩

end DeviceSuite
