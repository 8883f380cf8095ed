import DeviceSuite.Graph.Build
import DeviceSuite.Proofs.Graph.Edges
import Mathlib.Algebra.Order.BigOperators.Group.Finset
import Mathlib.Algebra.BigOperators.Group.Finset.Basic
import Mathlib.Data.List.Basic

/-!
# The visits of a walk

A walk enters its start node and then one successor after the other, and at every visit the answer
of a condition may be any. However it is answered, it comes to an end: no identifier is entered more
often than the limit of the first node that has it, so the limits of all identifiers together bound
its length. The start node is entered without a look at its limit, but it is the first to be
entered, and every limit is at least one.
-/

namespace DeviceSuite

namespace Navigator

/-- How often the nodes with an identifier may be entered: the first of them sets the limit. -/
def limitOf (g : Graph) (maxNodeVisits : UInt32) (id : String) : Nat :=
  ((g.node? id).map (new g maxNodeVisits).visitLimit).getD 0

/-- A walk through a graph, and the nodes that it has entered so far, the last one first. Its visits
are answered one after the other, each with any outcome or none. -/
inductive Walk (g : Graph) (maxNodeVisits : UInt32) (outcomes : Nat → Option Bool) :
    Navigator → List Node → Prop where
  | start {nav : Navigator} {n : Node} :
    (new g maxNodeVisits).start? = some (nav, n) → Walk g maxNodeVisits outcomes nav [n]
  | advance {nav nav' : Navigator} {n next : Node} {before : List Node} :
    Walk g maxNodeVisits outcomes nav (n :: before) →
    nav.advance? n (outcomes before.length) = some (nav', next) →
    Walk g maxNodeVisits outcomes nav' (next :: n :: before)

/-- A walk that remembers where it has been and stops before the first node whose identifier it has
met, and the nodes that it has entered so far, the last one first. It begins at the first start node,
and goes where the connections of the graph lead. -/
inductive FirstVisits (g : Graph) (outcomes : Nat → Option Bool) : List Node → Prop where
  | start {n : Node} : g.FirstNode (·.kind = .start) n → FirstVisits g outcomes [n]
  | advance {n next : Node} {before : List Node} {c : Connection} :
    FirstVisits g outcomes (n :: before) → g.Leads n (outcomes before.length) c →
    g.FirstNode (·.id = c.target) next →
    next.id ∉ (n :: before).map Node.id → FirstVisits g outcomes (next :: n :: before)

/-- Why a walk does not go on from a node: because it is an end, because no connection out of it may
be followed, because the one that is followed leads nowhere, or because the node to which it leads
has no visit left. -/
inductive Ends (nav : Navigator) (n : Node) (outcome : Option Bool) : Prop where
  | finish : n.kind = .finish → Ends nav n outcome
  | unconnected : (∀ c, ¬ nav.graph.Usable n outcome c) → Ends nav n outcome
  | dangling {c : Connection} : nav.graph.Leads n outcome c →
    (∀ m ∈ nav.graph.nodes, m.id ≠ c.target) → Ends nav n outcome
  | usedUp {c : Connection} {next : Node} : nav.graph.Leads n outcome c →
    nav.graph.FirstNode (·.id = c.target) next →
    nav.visits next.id = nav.visitLimit next → Ends nav n outcome

/-- A call of a navigator. -/
inductive Call where
  | start
  | advance (n : Node) (outcome : Option Bool)

/-- The navigator after a call, and the node that it has entered, if it has entered one. -/
def call (nav : Navigator) (c : Call) : Navigator × Option Node :=
  let entered := match c with
    | .start => nav.start?
    | .advance n outcome => nav.advance? n outcome
  match entered with
  | some (nav', n) => (nav', some n)
  | none => (nav, none)

/-- The navigator after calls, and the nodes that it has entered. -/
def calls (nav : Navigator) : List Call → Navigator × List Node
  | [] => (nav, [])
  | c :: rest =>
    let (nav, entered) := nav.call c
    let (nav, nodes) := nav.calls rest
    (nav, entered.toList ++ nodes)

variable {g : Graph} {maxNodeVisits : UInt32} {outcomes : Nat → Option Bool} {nav nav' : Navigator}
  {n next : Node} {outcome : Option Bool} {nodes : List Node}

/-- A node may be visited once at least. -/
theorem one_le_visitLimit (nav : Navigator) (n : Node) : 1 ≤ nav.visitLimit n := Nat.le_max_left _ _

/-- A navigator that enters a node counts one visit of its identifier, and no other. -/
theorem visits_enter (nav : Navigator) (n : Node) (id : String) :
    (nav.enter n).visits id = nav.visits id + [n.id].count id := by
  rw [visits, visits, enter, List.count_cons, List.count_singleton]

/-- A walk begins at the first start node. -/
theorem start?_eq_some (h : nav.start? = some (nav', n)) :
    nav' = nav.enter n ∧ nav.graph.startNode? = some n := by
  obtain ⟨m, hm, heq⟩ := Option.map_eq_some_iff.1 h
  cases heq
  exact ⟨rfl, hm⟩

/-- A node of a graph has an identifier that the graph finds. -/
theorem isSome_node? (h : n ∈ g.nodes) : (g.node? n.id).isSome = true :=
  List.find?_isSome.2 ⟨n, h, beq_self_eq_true _⟩

/-- The limit of an identifier is that of the node that it finds. -/
theorem limitOf_of_node? (h : g.node? n.id = some n) :
    limitOf g maxNodeVisits n.id = (new g maxNodeVisits).visitLimit n := by
  rw [limitOf, h, Option.map_some, Option.getD_some]

/-- The identifier of a node of the graph may be entered once at least. -/
theorem one_le_limitOf (h : n ∈ g.nodes) : 1 ≤ limitOf g maxNodeVisits n.id := by
  obtain ⟨m, hm⟩ := Option.isSome_iff_exists.1 (isSome_node? h)
  rw [limitOf, hm, Option.map_some, Option.getD_some]
  exact one_le_visitLimit _ m

/-- A call counts the node that it has entered, and nothing when it has entered none. -/
theorem visits_call (nav : Navigator) (c : Call) (id : String) :
    (nav.call c).1.visits id = nav.visits id + ((nav.call c).2.toList.map Node.id).count id := by
  cases c with
  | start =>
    cases hstart : nav.start? with
    | none => simp [call, hstart]
    | some entered =>
      obtain ⟨nav', n⟩ := entered
      obtain ⟨rfl, -⟩ := start?_eq_some hstart
      simpa [call, hstart] using nav.visits_enter n id
  | advance n outcome =>
    cases hadvance : nav.advance? n outcome with
    | none => simp [call, hadvance]
    | some entered =>
      obtain ⟨nav', next⟩ := entered
      obtain ⟨rfl, -⟩ := advance?_eq_some hadvance
      simpa [call, hadvance] using nav.visits_enter next id

/-- What a navigator has counted after any calls is how often it has entered a node with the
identifier. -/
theorem visits_calls (nav : Navigator) (cs : List Call) (id : String) :
    (nav.calls cs).1.visits id = nav.visits id + ((nav.calls cs).2.map Node.id).count id := by
  induction cs generalizing nav with
  | nil => rfl
  | cons c rest ih =>
    simp only [calls, ih, visits_call, List.map_append, List.count_append, Nat.add_assoc]

/-- What the navigator of a walk knows: the walk is through its graph, and no identifier has been
entered more often than it may be. -/
structure Within (g : Graph) (maxNodeVisits : UInt32) (nav : Navigator) (nodes : List Node) :
    Prop where
  nav_eq : nav = { new g maxNodeVisits with trail := nodes.map Node.id }
  mem : ∀ n ∈ nodes, n ∈ g.nodes
  count_le : ∀ id, (nodes.map Node.id).count id ≤ limitOf g maxNodeVisits id

/-- A walk stays within its limits. -/
theorem Walk.within (h : Walk g maxNodeVisits outcomes nav nodes) :
    Within g maxNodeVisits nav nodes := by
  induction h with
  | @start nav n hstart =>
    obtain ⟨rfl, hn⟩ := start?_eq_some hstart
    have hmem : n ∈ g.nodes := List.mem_of_find?_eq_some hn
    refine ⟨rfl, fun m hm => List.mem_singleton.1 hm ▸ hmem, fun id => ?_⟩
    rw [List.map_singleton, List.count_singleton]
    split
    · next heq => exact eq_of_beq heq ▸ one_le_limitOf hmem
    · exact Nat.zero_le _
  | @advance nav nav' n next before _ hadvance ih =>
    obtain ⟨rfl, hmem, hcount⟩ := ih
    obtain ⟨rfl, hnode, hnext, hlt⟩ := advance?_eq_some hadvance
    refine ⟨rfl, List.forall_mem_cons.2 ⟨hnext, hmem⟩, fun id => ?_⟩
    rw [List.map_cons, List.count_cons]
    split
    · next heq =>
      obtain rfl : next.id = id := eq_of_beq heq
      have hlimit : limitOf g maxNodeVisits next.id = (new g maxNodeVisits).visitLimit next :=
        limitOf_of_node? hnode
      rw [hlimit]
      exact hlt
    · exact hcount id

namespace Within

/-- The limits of all identifiers together bound the length of a walk. -/
theorem length_le (h : Within g maxNodeVisits nav nodes) :
    nodes.length ≤ ∑ id ∈ (g.nodes.map Node.id).toFinset, limitOf g maxNodeVisits id := by
  have hsub : (nodes.map Node.id).toFinset ⊆ (g.nodes.map Node.id).toFinset := by
    intro id hid
    obtain ⟨n, hn, rfl⟩ := List.mem_map.1 (List.mem_toFinset.1 hid)
    exact List.mem_toFinset.2 (List.mem_map_of_mem (h.mem n hn))
  calc nodes.length
      = (nodes.map Node.id).length := (List.length_map _).symm
    _ = ∑ id ∈ (nodes.map Node.id).toFinset, (nodes.map Node.id).count id :=
        (List.sum_toFinset_count_eq_length _).symm
    _ ≤ ∑ id ∈ (nodes.map Node.id).toFinset, limitOf g maxNodeVisits id :=
        Finset.sum_le_sum fun id _ => h.count_le id
    _ ≤ ∑ id ∈ (g.nodes.map Node.id).toFinset, limitOf g maxNodeVisits id :=
        Finset.sum_le_sum_of_subset hsub

/-- A walk ends at an end, where no connection leads on or one leads nowhere, and where the visits
of the successor are used up to the last one. -/
theorem advance?_eq_none_iff (h : Within g maxNodeVisits nav nodes) :
    nav.advance? n outcome = none ↔ nav.Ends n outcome := by
  constructor
  · intro hnone
    rw [advance?] at hnone
    split at hnone
    · next hnext =>
      rcases Option.bind_eq_none_iff.1 hnext with hconnection
      cases hc : nav.connection? n outcome with
      | none => exact .unconnected (connection?_eq_none_iff.1 hc)
      | some c =>
        exact .dangling (connection?_eq_some_iff.1 hc) (Graph.node?_eq_none_iff.1 (hconnection c hc))
    · next next hnext =>
      split at hnone
      · cases hnone
      · next hfull =>
        obtain ⟨c, hleads, hfirst⟩ := next?_eq_some_iff.1 hnext
        refine .usedUp hleads hfirst (Nat.le_antisymm ?_ (Nat.le_of_not_lt hfull))
        obtain ⟨rfl, -, hcount⟩ := h
        obtain ⟨c, -, hc⟩ := Option.bind_eq_some_iff.1 hnext
        have hnode : g.node? next.id = some next := (node?_of_node? hc).2.2
        exact limitOf_of_node? hnode ▸ hcount next.id
  · intro hends
    have hnext : nav.next? n outcome = none → nav.advance? n outcome = none := fun hnext => by
      rw [advance?, hnext]
    cases hends with
    | finish hkind => exact hnext (by rw [next?, connection?_finish hkind, Option.bind_none])
    | unconnected hc =>
      exact hnext (by rw [next?, connection?_eq_none_iff.2 hc, Option.bind_none])
    | dangling hc hnode =>
      exact hnext ((next?_of_connection? (connection?_eq_some_iff.2 hc)).trans
        (Graph.node?_eq_none_iff.2 hnode))
    | usedUp hc hfirst hfull => simp [advance?, next?_eq_some_iff.2 ⟨_, hc, hfirst⟩, hfull]

end Within

namespace Walk

/-- A walk goes through the nodes it has entered one by one: whatever it has entered first is a walk
itself. -/
theorem earlier {later earlier : List Node}
    (h : Walk g maxNodeVisits outcomes nav (later ++ earlier)) (hearlier : earlier ≠ []) :
    ∃ nav', Walk g maxNodeVisits outcomes nav' earlier := by
  induction later generalizing nav with
  | nil => exact ⟨nav, h⟩
  | cons n rest ih =>
    generalize hnodes : n :: rest ++ earlier = nodes at h
    cases h with
    | start hstart =>
      have hlength := congrArg List.length hnodes
      have hpos := List.length_pos_of_ne_nil hearlier
      simp only [List.cons_append, List.length_cons, List.length_append, List.length_nil] at hlength
      omega
    | advance hwalk _ =>
      obtain ⟨-, hrest⟩ := List.cons.inj hnodes
      exact ih (hrest ▸ hwalk)

/-- Every walk can be walked to its end. -/
theorem exists_end {before : List Node} (h : Walk g maxNodeVisits outcomes nav (n :: before)) :
    ∃ nav' last passed, Walk g maxNodeVisits outcomes nav' (last :: passed) ∧
      nav'.advance? last (outcomes passed.length) = none := by
  -- Each step leaves fewer visits.
  induction hbudget : nav.budget using Nat.strongRecOn generalizing nav n before with
  | ind budget ih =>
    cases hadvance : nav.advance? n (outcomes before.length) with
    | none => exact ⟨nav, n, before, h, hadvance⟩
    | some entered =>
      obtain ⟨nav', next⟩ := entered
      exact ih nav'.budget (hbudget ▸ advance?_budget_lt hadvance) (h.advance hadvance) rfl

/-- A walk of one node has entered the start node. -/
theorem eq_start (h : Walk g maxNodeVisits outcomes nav [n]) :
    (new g maxNodeVisits).start? = some (nav, n) := by
  cases h with
  | start hstart => exact hstart

/-- The last two nodes of a walk are a step of it. -/
theorem eq_advance {before : List Node}
    (h : Walk g maxNodeVisits outcomes nav (next :: n :: before)) :
    ∃ nav', Walk g maxNodeVisits outcomes nav' (n :: before) ∧
      nav'.advance? n (outcomes before.length) = some (nav, next) := by
  cases h with
  | advance hwalk hadvance => exact ⟨_, hwalk, hadvance⟩

/-- What a navigator knows of a walk is what the walk has entered. -/
theorem nav_unique (h : Walk g maxNodeVisits outcomes nav nodes)
    (h' : Walk g maxNodeVisits outcomes nav' nodes) : nav = nav' :=
  h.within.nav_eq.trans h'.within.nav_eq.symm

/-- A walk that has come to its end has all other walks with the same outcomes behind it. -/
theorem suffix_of_end {last : Node} {passed : List Node}
    (hend : Walk g maxNodeVisits outcomes nav (last :: passed))
    (hlast : nav.advance? last (outcomes passed.length) = none)
    (h : Walk g maxNodeVisits outcomes nav' nodes) : nodes <:+ last :: passed := by
  induction h with
  | @start nav₁ n hstart =>
    have hsplit := List.dropLast_append_getLast (List.cons_ne_nil last passed)
    obtain ⟨nav₂, hfirst⟩ := earlier (hsplit.symm ▸ hend) (List.cons_ne_nil _ _)
    have heq := hfirst.eq_start.symm.trans hstart
    obtain ⟨-, hn⟩ := Prod.mk.inj (Option.some.inj heq)
    exact ⟨_, hn ▸ hsplit⟩
  | @advance nav₁ nav₂ n next before hwalk hadvance ih =>
    obtain ⟨later, hlater⟩ := ih
    rcases List.eq_nil_or_concat later with rfl | ⟨rest, m, rfl⟩
    · -- Here the walk would go on from its end.
      obtain ⟨rfl, rfl⟩ := List.cons.inj hlater
      cases hwalk.nav_unique hend
      cases hlast.symm.trans hadvance
    · have hsplit : rest ++ m :: n :: before = last :: passed := by
        rw [← hlater, List.concat_append]
      obtain ⟨nav₃, hm⟩ := earlier (hsplit.symm ▸ hend) (List.cons_ne_nil m (n :: before))
      obtain ⟨nav₄, hn, hstep⟩ := hm.eq_advance
      cases hn.nav_unique hwalk
      obtain ⟨-, rfl⟩ := Prod.mk.inj (Option.some.inj (hstep.symm.trans hadvance))
      exact ⟨rest, hsplit⟩

end Walk

/-- A step of a walk enters the node behind the connection that it follows, if that has a visit
left. -/
theorem advance?_eq_some_iff : nav.advance? n outcome = some (nav', next) ↔
    nav.next? n outcome = some next ∧ nav.visits next.id < nav.visitLimit next ∧
      nav' = nav.enter next := by
  constructor
  · intro h
    obtain ⟨hnav, -, -, hlt⟩ := advance?_eq_some h
    rw [advance?] at h
    split at h
    · cases h
    · next m hm =>
      split at h
      · cases h
        exact ⟨hm, hlt, hnav⟩
      · cases h
  · rintro ⟨hnext, hlt, rfl⟩
    simp only [advance?, hnext, hlt, ↓reduceIte]

/-- With one visit for each node, a step of a walk enters the successor if its identifier is new. -/
theorem advance?_of_single (hsingle : ∀ m ∈ nav.graph.nodes, nav.visitLimit m = 1) :
    nav.advance? n outcome = some (nav', next) ↔
      nav.next? n outcome = some next ∧ next.id ∉ nav.trail ∧ nav' = nav.enter next := by
  rw [advance?_eq_some_iff]
  refine and_congr_right fun hnext => and_congr_left' ?_
  obtain ⟨c, -, hc⟩ := Option.bind_eq_some_iff.1 hnext
  rw [hsingle next (node?_of_node? hc).2.1, visits, Nat.lt_one_iff, List.count_eq_zero]

/-- With one visit for each node, the walks are those that stop before the first identifier they
have met. -/
theorem walk_iff_firstVisits (hmax : maxNodeVisits ≤ 1)
    (hnone : ∀ n ∈ g.nodes, n.options.maxVisits = none) :
    (∃ nav, Walk g maxNodeVisits outcomes nav nodes) ↔ FirstVisits g outcomes nodes := by
  have hsame : new g maxNodeVisits = new g 1 := by
    have hle : maxNodeVisits.toNat ≤ 1 := hmax
    rw [new, new, UInt32.toNat_one, Nat.max_self, Nat.max_eq_left hle]
  have hsingle : ∀ m ∈ g.nodes, (new g 1).visitLimit m = 1 := fun m hm => by
    rw [visitLimit, hnone m hm]
    rfl
  constructor
  · rintro ⟨nav, h⟩
    induction h with
    | start hstart => exact .start (Graph.startNode?_eq_some_iff.1 (start?_eq_some hstart).2)
    | @advance nav nav' n next before hwalk hadvance ih =>
      obtain ⟨rfl, -, -⟩ := hwalk.within
      rw [hsame] at hadvance
      obtain ⟨hnext, hnew, -⟩ := (advance?_of_single hsingle).1 hadvance
      obtain ⟨c, hleads, hfirst⟩ := next?_eq_some_iff.1 hnext
      exact .advance ih hleads hfirst hnew
  · intro h
    induction h with
    | start hstart =>
      have hstart := Graph.startNode?_eq_some_iff.2 hstart
      exact ⟨_, .start (by rw [start?, new, hstart, Option.map_some])⟩
    | @advance n next before c _ hleads hfirst hnew ih =>
      obtain ⟨nav, hwalk⟩ := ih
      refine ⟨nav.enter next, hwalk.advance ?_⟩
      obtain ⟨rfl, -, -⟩ := hwalk.within
      rw [hsame]
      exact (advance?_of_single hsingle).2 ⟨next?_eq_some_iff.2 ⟨c, hleads, hfirst⟩, hnew, rfl⟩

/-- The walks through a graph, whatever its connections and however the visits are answered. Each
enters an identifier no more often than the limit of its first node, so the limits bound its length,
and it stops only where it `Ends`. All of them lead up to one that has come to its end. A call that
enters no node counts none. With one visit for each node, the walks are those that stop before the
first identifier they have met. -/
theorem walks_bounded (g : Graph) (maxNodeVisits : UInt32) (outcomes : Nat → Option Bool) :
    (∀ nav nodes, Walk g maxNodeVisits outcomes nav nodes →
      (∀ id, (nodes.map Node.id).count id ≤ limitOf g maxNodeVisits id) ∧
      nodes.length ≤ ∑ id ∈ (g.nodes.map Node.id).toFinset, limitOf g maxNodeVisits id ∧
      ∀ n outcome, nav.advance? n outcome = none ↔ nav.Ends n outcome) ∧
    (∀ n, g.FirstNode (·.kind = .start) n → ∃ nav last passed,
      Walk g maxNodeVisits outcomes nav (last :: passed) ∧
      nav.advance? last (outcomes passed.length) = none ∧
      ∀ nav' nodes, Walk g maxNodeVisits outcomes nav' nodes → nodes <:+ last :: passed) ∧
    (∀ (nav : Navigator) cs id,
      (nav.calls cs).1.visits id = nav.visits id + ((nav.calls cs).2.map Node.id).count id) ∧
    (maxNodeVisits ≤ 1 → (∀ n ∈ g.nodes, n.options.maxVisits = none) →
      ∀ nodes,
        (∃ nav, Walk g maxNodeVisits outcomes nav nodes) ↔ FirstVisits g outcomes nodes) := by
  refine ⟨fun nav nodes h => ?_, fun n hn => ?_, visits_calls, fun hmax hnone nodes => ?_⟩
  · have hwithin := h.within
    exact ⟨hwithin.count_le, hwithin.length_le, fun _ _ => hwithin.advance?_eq_none_iff⟩
  · have hstart : (new g maxNodeVisits).start? = some ((new g maxNodeVisits).enter n, n) := by
      rw [start?, new, Graph.startNode?_eq_some_iff.2 hn, Option.map_some]
    obtain ⟨nav, last, passed, hwalk, hend⟩ := (Walk.start hstart).exists_end
    exact ⟨nav, last, passed, hwalk, hend, fun _ _ h => hwalk.suffix_of_end hend h⟩
  · exact walk_iff_firstVisits hmax hnone

/-- A graph that leads from its start to a condition. One answer leads to an action and back to the
condition, the other to the end. -/
def circle : Graph :=
  (((((((Graph.blank "circle").addCondition "ask" .null).addAction "tap" .null).addEnd "end").connect
    "start" "ask").connect "ask" "end" (some "no")).connect "ask" "tap" (some "yes")).connect
    "tap" "ask"

/-- Without visits of its own, the condition of the circle is entered once: a walk goes on to the
action, and there it ends. -/
theorem walks_bounded_circle :
    let outcomes : Nat → Option Bool := fun k => if k = 1 then some true else none
    let start := Node.ofParams "start" .start .null
    let ask := Node.ofParams "ask" .condition .null
    let tap := Node.ofParams "tap" .action .null
    circle.FirstNode (·.kind = .start) start ∧
      (∃ nav, Walk circle 1 outcomes nav [tap, ask, start] ∧ nav.Ends tap none) ∧
      FirstVisits circle outcomes [tap, ask, start] ∧
      (∀ nav last passed, Walk circle 1 outcomes nav (last :: passed) →
        passed.length < ∑ id ∈ {"start", "ask", "tap", "end"}, limitOf circle 1 id) ∧
      ∃ last passed, [tap, ask, start] <:+ last :: passed ∧
        ∀ nav nodes, Walk circle 1 outcomes nav nodes → nodes <:+ last :: passed := by
  intro outcomes start ask tap
  have hstart : circle.FirstNode (·.kind = .start) start := ⟨[], _, rfl, rfl, by simp⟩
  have hnone : ∀ n ∈ circle.nodes, n.options.maxVisits = none := by decide
  obtain ⟨hbound, hend, -, hfirst⟩ := walks_bounded circle 1 outcomes
  have hwalk : Walk circle 1 outcomes ((((new circle 1).enter start).enter ask).enter tap)
      [tap, ask, start] := .advance (.advance (.start rfl) rfl) rfl
  refine ⟨hstart, ⟨_, hwalk, ((hbound _ _ hwalk).2.2 tap none).1 rfl⟩,
    (hfirst (by decide) hnone _).1 ⟨_, hwalk⟩, fun nav last passed h => (hbound nav _ h).2.1, ?_⟩
  obtain ⟨_, last, passed, -, -, hall⟩ := hend start hstart
  exact ⟨last, passed, hall _ _ hwalk, hall⟩

end Navigator

end DeviceSuite
