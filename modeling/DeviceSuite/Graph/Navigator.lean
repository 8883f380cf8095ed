import DeviceSuite.Graph.Basic

/-!
# Walking a graph

A navigator remembers the nodes a walk has entered and lets each be entered only so often. Every
step of a walk uses up one of these visits, so a walk ends: `advance?_budget_lt`.
-/

namespace DeviceSuite

/-- A walk through a graph: the identifiers of the nodes entered so far, the last one first, and
the number of visits of a node that sets none itself. -/
structure Navigator where
  graph : Graph
  visitsPerNode : Nat
  trail : List String

namespace Navigator

/-- The walk before its first node. Every node may be visited at least once. -/
def new (graph : Graph) (maxNodeVisits : UInt32) : Navigator :=
  ⟨graph, max 1 maxNodeVisits.toNat, []⟩

/-- How often a node may be entered. -/
def visitLimit (nav : Navigator) (n : Node) : Nat :=
  max 1 ((n.options.maxVisits.map UInt32.toNat).getD nav.visitsPerNode)

/-- How often the nodes with an identifier have been entered. -/
def visits (nav : Navigator) (id : String) : Nat := nav.trail.count id

/-- Enter a node. -/
def enter (nav : Navigator) (n : Node) : Navigator := { nav with trail := n.id :: nav.trail }

/-- Enter the start node, which no limit forbids. -/
def start? (nav : Navigator) : Option (Navigator × Node) :=
  nav.graph.startNode?.map fun n => (nav.enter n, n)

/-- The connections that leave a node. -/
def outgoing (nav : Navigator) (n : Node) : List Connection :=
  nav.graph.connections.filter fun c => c.source == n.id

/-- The connection that a walk follows out of a node. A condition with an outcome follows the
first connection labelled for it, or else the first without a label; any other node but an end
follows its first connection. -/
def connection? (nav : Navigator) (n : Node) (outcome : Option Bool) : Option Connection :=
  match n.kind, outcome with
  | .finish, _ => none
  | .condition, some b =>
    ((nav.outgoing n).find? fun c => c.branch == some (Connection.branchLabel b)).or
      ((nav.outgoing n).find? fun c => c.branch.isNone)
  | _, _ => (nav.outgoing n).head?

/-- The node behind that connection. -/
def next? (nav : Navigator) (n : Node) (outcome : Option Bool) : Option Node :=
  (nav.connection? n outcome).bind fun c => nav.graph.node? c.target

/-- Enter the node that follows. The walk ends where none follows and where its visits are used
up. -/
def advance? (nav : Navigator) (n : Node) (outcome : Option Bool) : Option (Navigator × Node) :=
  match nav.next? n outcome with
  | none => none
  | some next =>
    if nav.visits next.id < nav.visitLimit next then some (nav.enter next, next) else none

/-- Walk on from a node that has been entered, so many steps at most: the identifiers of the
nodes, and whether the walk ended. A condition is answered by its identifier and the number of
earlier visits. -/
def path (answer : String → Nat → Option Bool) (nav : Navigator) (n : Node) :
    Nat → List String × Bool
  | 0 => ([n.id], false)
  | steps + 1 =>
    match nav.advance? n (answer n.id (nav.visits n.id - 1)) with
    | none => ([n.id], true)
    | some (nav, next) =>
      let (rest, ended) := path answer nav next steps
      (n.id :: rest, ended)

/-- The visits that the nodes with an identifier have left; the first of them sets the limit. -/
def remaining (nav : Navigator) (id : String) : Nat :=
  match nav.graph.node? id with
  | none => 0
  | some n => nav.visitLimit n - nav.visits id

/-- A sum over a list. -/
def total {α : Type} (f : α → Nat) : List α → Nat
  | [] => 0
  | a :: rest => f a + total f rest

/-- A bound on the length of the rest of a walk. -/
def budget (nav : Navigator) : Nat := total (fun n => nav.remaining n.id) nav.graph.nodes

/-- A sum does not grow when no term does. -/
theorem total_le {α : Type} {f g : α → Nat} {l : List α} (hle : ∀ a ∈ l, f a ≤ g a) :
    total f l ≤ total g l := by
  induction l with
  | nil => exact Nat.le_refl _
  | cons b rest ih =>
    exact Nat.add_le_add (hle b List.mem_cons_self) (ih fun a ha => hle a (List.mem_cons_of_mem _ ha))

/-- A sum decreases when no term grows and one gets smaller. -/
theorem total_lt {α : Type} {f g : α → Nat} {l : List α} (hle : ∀ a ∈ l, f a ≤ g a)
    {a : α} (ha : a ∈ l) (hlt : f a < g a) : total f l < total g l := by
  induction l with
  | nil => cases ha
  | cons b rest ih =>
    have hb := hle b List.mem_cons_self
    have hrest : ∀ a ∈ rest, f a ≤ g a := fun a ha => hle a (List.mem_cons_of_mem _ ha)
    rcases List.mem_cons.1 ha with rfl | ha
    · exact Nat.add_lt_add_of_lt_of_le hlt (total_le hrest)
    · exact Nat.add_lt_add_of_le_of_lt hb (ih hrest ha)

/-- Looking up a node by the identifier of a node that was found finds it again. -/
theorem node?_of_node? {g : Graph} {id : String} {n : Node} (h : g.node? id = some n) :
    n.id = id ∧ n ∈ g.nodes ∧ g.node? n.id = some n := by
  have hid : n.id = id := by simpa using List.find?_some h
  exact ⟨hid, List.mem_of_find?_eq_some h, hid ▸ h⟩

/-- What a step of a walk enters is a node of the graph with a visit left. -/
theorem advance?_eq_some {nav nav' : Navigator} {n next : Node} {outcome : Option Bool}
    (h : nav.advance? n outcome = some (nav', next)) :
    nav' = nav.enter next ∧ nav.graph.node? next.id = some next ∧ next ∈ nav.graph.nodes ∧
      nav.visits next.id < nav.visitLimit next := by
  rw [advance?] at h
  split at h
  · cases h
  · next m hm =>
    split at h
    · next hlt =>
      cases h
      obtain ⟨c, -, hc⟩ := Option.bind_eq_some_iff.1 hm
      obtain ⟨-, hmem, hnode⟩ := node?_of_node? hc
      exact ⟨rfl, hnode, hmem, hlt⟩
    · cases h

/-- Each step of a walk uses up a visit. -/
theorem advance?_budget_lt {nav nav' : Navigator} {n next : Node} {outcome : Option Bool}
    (h : nav.advance? n outcome = some (nav', next)) : nav'.budget < nav.budget := by
  obtain ⟨rfl, hnode, hmem, hlt⟩ := advance?_eq_some h
  refine total_lt (fun m _ => ?_) hmem ?_
  · simp only [remaining, enter, visitLimit, visits]
    split
    · exact Nat.le_refl _
    · exact Nat.sub_le_sub_left List.count_le_count_cons _
  · have hcount : (nav.enter next).visits next.id = nav.visits next.id + 1 := by
      simp [enter, visits]
    have hsame : (nav.enter next).graph.node? next.id = some next := hnode
    simp only [remaining, hnode, hsame, hcount]
    simp only [visitLimit] at hlt ⊢
    simp only [enter]
    omega

end Navigator

end DeviceSuite
