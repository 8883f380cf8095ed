import DeviceSuite.Proofs.Graph.Limits
import DeviceSuite.Run.Walk
import Mathlib.Data.List.Find

/-!
# The order in which a graph is stored

A walk finds its start by the kind and every other node by the identifier, and it chooses among the
connections that leave one node by their order. So where the identifiers tell the nodes apart and
one node at most is a start, a graph may list its nodes in any order, and its connections in any
that keeps those of each node in theirs. The walks enter the same nodes, and the scenario is run as
the very same task: it asks for the same things and has the same result, whatever answers it, and
whenever it is stopped.
-/

namespace DeviceSuite

namespace Graph

/-- Two graphs that differ in the order of their nodes at most, and in that of connections which
leave different nodes. -/
structure SameButOrder (g g' : Graph) : Prop where
  id : g'.id = g.id
  name : g'.name = g.name
  nodes : g'.nodes.Perm g.nodes
  connections : ∀ n ∈ g.nodes, g'.connections.filter (fun c => c.source == n.id) =
    g.connections.filter fun c => c.source == n.id

/-- A graph whose nodes are told apart by their identifiers, and one of them at most by being a
start node. -/
structure Unambiguous (g : Graph) : Prop where
  ids : (g.nodes.map Node.id).Nodup
  starts : (g.nodes.filter fun n => n.kind == .start).length ≤ 1

variable {g g' : Graph}

/-- The node of an identifier does not depend on the order of the nodes. -/
theorem SameButOrder.node? (h : g.SameButOrder g') (hg : g.Unambiguous) (id : String) :
    g'.node? id = g.node? id := by
  refine (List.find?_eq_find?_of_perm h.nodes.symm ?_).symm
  rintro n ⟨hn, hid⟩ m ⟨hm, hid'⟩
  exact List.inj_on_of_nodup_map hg.ids hn hm ((eq_of_beq hid).trans (eq_of_beq hid').symm)

/-- The start node does not depend on the order of the nodes. -/
theorem SameButOrder.startNode? (h : g.SameButOrder g') (hg : g.Unambiguous) :
    g'.startNode? = g.startNode? := by
  refine (List.find?_eq_find?_of_perm h.nodes.symm ?_).symm
  rintro n hn m hm
  have hn : n ∈ g.nodes.filter fun n => n.kind == .start := List.mem_filter.2 hn
  have hm : m ∈ g.nodes.filter fun n => n.kind == .start := List.mem_filter.2 hm
  rcases hstarts : g.nodes.filter fun n => n.kind == .start with _ | ⟨start, _ | ⟨other, rest⟩⟩
  · rw [hstarts] at hn
    cases hn
  · rw [hstarts, List.mem_singleton] at hn hm
    rw [hn, hm]
  · have hlength := hg.starts
    rw [hstarts] at hlength
    exact absurd hlength (by simp)

end Graph

namespace Navigator

variable {nav : Navigator} {g g' : Graph} {n : Node}

/-- The walk so far, to be gone on with through another graph. -/
def through (nav : Navigator) (g : Graph) : Navigator := { nav with graph := g }

/-- A walk through another graph has been at the same identifiers. -/
@[simp] theorem through_visits (nav : Navigator) (g : Graph) (id : String) :
    (nav.through g).visits id = nav.visits id := rfl

/-- The limit of a node is its own in any graph. -/
@[simp] theorem through_visitLimit (nav : Navigator) (g : Graph) (n : Node) :
    (nav.through g).visitLimit n = nav.visitLimit n := rfl

/-- A walk enters a node in any graph alike. -/
@[simp] theorem through_enter (nav : Navigator) (g : Graph) (n : Node) :
    (nav.through g).enter n = (nav.enter n).through g := rfl

/-- The same node comes next: the connection out of a node depends on the order of those that leave
this node alone. -/
theorem next?_through (h : nav.graph.SameButOrder g') (hg : nav.graph.Unambiguous)
    (hn : n ∈ nav.graph.nodes) (outcome : Option Bool) :
    (nav.through g').next? n outcome = nav.next? n outcome := by
  have houtgoing : (nav.through g').outgoing n = nav.outgoing n := h.connections n hn
  have hconnection : (nav.through g').connection? n outcome = nav.connection? n outcome := by
    simp only [connection?, houtgoing]
  rw [next?, next?, hconnection]
  exact congrArg _ (funext fun c => h.node? hg c.target)

/-- A step of the walk enters the same node in both graphs, or none. -/
theorem advance?_through (h : nav.graph.SameButOrder g') (hg : nav.graph.Unambiguous)
    (hn : n ∈ nav.graph.nodes) (outcome : Option Bool) :
    (nav.through g').advance? n outcome =
      (nav.advance? n outcome).map fun (nav, next) => (nav.through g', next) := by
  rw [advance?, advance?, next?_through h hg hn]
  cases nav.next? n outcome with
  | none => rfl
  | some next =>
    by_cases hlt : nav.visits next.id < nav.visitLimit next <;> simp [hlt]

/-- A walk begins at the same node. -/
theorem start?_through (nav : Navigator) (h : nav.graph.SameButOrder g')
    (hg : nav.graph.Unambiguous) :
    (nav.through g').start? = nav.start?.map fun (nav, n) => (nav.through g', n) := by
  rw [start?, start?, Option.map_map]
  exact congrArg _ (h.startNode? hg)

/-- A walk goes on to its end through the same nodes. -/
theorem itinerary_through {answer : String → Nat → Option Bool} (h : nav.graph.SameButOrder g')
    (hg : nav.graph.Unambiguous) (hn : n ∈ nav.graph.nodes) :
    itinerary answer (nav.through g') n = itinerary answer nav n := by
  induction nav, n using itinerary.induct answer with
  | case1 nav n ih =>
    have hthrough := advance?_through h hg hn (answer n.id (nav.visits n.id - 1))
    cases hadvance : nav.advance? n (answer n.id (nav.visits n.id - 1)) with
    | none =>
      rw [hadvance] at hthrough
      rw [itinerary_of_none hadvance, itinerary_of_none hthrough]
    | some entered =>
      obtain ⟨nav', next⟩ := entered
      rw [hadvance] at hthrough
      obtain ⟨rfl, -, hnext, -⟩ := advance?_eq_some hadvance
      rw [itinerary_of_some hadvance, itinerary_of_some hthrough, ih _ _ hadvance h hg hnext]

end Navigator

namespace SlotPlan

open Navigator

variable {g g' : Graph} {n : Node}

/-- To walk on is the same task in both graphs. -/
theorem walk_through (p : SlotPlan) (nav : Navigator) (h : nav.graph.SameButOrder g')
    (hg : nav.graph.Unambiguous) (hn : n ∈ nav.graph.nodes) (result : ScenarioResult) :
    p.walk (nav.through g') n result = p.walk nav n result := by
  induction nav, n, result using SlotPlan.walk.induct with
  | case1 nav n result ih =>
    rw [walk, walk]
    congr 1
    funext stopped
    congr 2
    funext x
    rcases x with ⟨result', answer | error⟩
    · have hthrough := advance?_through h hg hn answer
      dsimp only
      split
      · next hnone =>
        split
        · rfl
        · next hadvance =>
          rw [hnone, hadvance] at hthrough
          cases hthrough
      · next nav₁ next₁ hsome =>
        split
        · next hadvance =>
          rw [hsome, hadvance] at hthrough
          cases hthrough
        · next nav₂ next₂ hadvance =>
          rw [hsome, hadvance] at hthrough
          cases hthrough
          obtain ⟨rfl, -, hnext, -⟩ := advance?_eq_some hadvance
          exact ih _ _ _ _ hadvance h hg hnext
    · rfl

/-- Two graphs that differ in the order of their nodes at most, and in that of connections which
leave different nodes, are one scenario: the walk enters the same nodes however the conditions are
answered, and a slot is the same task. So it makes the same calls at the same instants and has the
same result, whatever the device does and whenever a stop is raised. -/
theorem run_ignores_order (h : g.SameButOrder g') (hg : g.Unambiguous) :
    (∀ answer maxNodeVisits,
        wholeWalk answer g' maxNodeVisits = wholeWalk answer g maxNodeVisits) ∧
      ∀ (p : SlotPlan) iteration, p.run g' iteration = p.run g iteration := by
  have hstart (maxNodeVisits : UInt32) : (new g' maxNodeVisits).start? =
      (new g maxNodeVisits).start?.map fun (nav, n) => (nav.through g', n) :=
    start?_through (new g maxNodeVisits) h hg
  constructor
  · intro answer maxNodeVisits
    rw [wholeWalk, wholeWalk, hstart]
    cases hentered : (new g maxNodeVisits).start? with
    | none => rfl
    | some entered =>
      obtain ⟨nav, n⟩ := entered
      obtain ⟨rfl, hn⟩ := start?_eq_some hentered
      exact itinerary_through h hg (List.mem_of_find?_eq_some hn)
  · intro p iteration
    have hblank (now : Instant) :
        ScenarioResult.blank g' iteration now = ScenarioResult.blank g iteration now := by
      rw [ScenarioResult.blank, ScenarioResult.blank, h.id, h.name]
    rw [run, run]
    simp only [hblank, hstart]
    cases hentered : (new g p.settings.maxNodeVisits).start? with
    | none => rfl
    | some entered =>
      obtain ⟨nav, n⟩ := entered
      obtain ⟨rfl, hn⟩ := start?_eq_some hentered
      simp only [Option.map_some]
      refine congrArg _ (funext fun started => congrArg (Task.bind · _) ?_)
      exact p.walk_through ((new g p.settings.maxNodeVisits).enter n) h hg
        (List.mem_of_find?_eq_some hn) _

/-- A graph that looks first and then taps or goes straight to its end, in the order in which it was
drawn. -/
def fork : Graph :=
  (((((((Graph.blank "fork").addCondition "look" .null).addAction "tap" .null).addEnd
    "end").connect "start" "look").connect "look" "tap" "yes").connect "look" "end" "no").connect
    "tap" "look"

/-- The same graph with its nodes in reverse and its connections shuffled. -/
def forkReversed : Graph where
  id := fork.id
  name := fork.name
  nodes := fork.nodes.reverse
  connections := [⟨"tap", "look", none⟩, ⟨"look", "tap", some "yes"⟩, ⟨"start", "look", none⟩,
    ⟨"look", "end", some "no"⟩]

/-- Both go round once when the first look says yes and the second no, and run as one task. -/
theorem run_ignores_order_fork :
    fork.SameButOrder forkReversed ∧ fork.Unambiguous ∧
      wholeWalk (fun _ visit => some (visit == 0)) forkReversed 3 =
        ["start", "look", "tap", "look", "end"] ∧
      wholeWalk (fun _ visit => some (visit == 0)) forkReversed 3 =
        wholeWalk (fun _ visit => some (visit == 0)) fork 3 ∧
      ∀ (p : SlotPlan) iteration, p.run forkReversed iteration = p.run fork iteration := by
  have hsame : fork.SameButOrder forkReversed :=
    ⟨rfl, rfl, List.reverse_perm _, by decide +kernel⟩
  have hone : fork.Unambiguous := ⟨by decide +kernel, by decide +kernel⟩
  have hsame_run := run_ignores_order hsame hone
  refine ⟨hsame, hone, itinerary_of_path 6 ?_, hsame_run.1 _ _, hsame_run.2⟩
  decide +kernel

end SlotPlan

end DeviceSuite
