import DeviceSuite.Proofs.Graph.Visits
import DeviceSuite.Proofs.TextMap
import Mathlib.Data.List.Forall2

/-!
# Walks under other limits

Two graphs that differ only in how often their nodes may be visited are walked in step for as long
as both walks go on: the connection out of a node is chosen without a look at the visits, and a
visit is answered by the identifier of its node and its number among the visits of that. Where no
limit is lower in the second graph, only the first walk can end before the other.
-/

namespace DeviceSuite

/-- Two nodes that differ in their limits at most. -/
structure Node.SameButLimit (n n' : Node) : Prop where
  id : n'.id = n.id
  kind : n'.kind = n.kind
  label : n'.label = n.label
  params : ∀ key, key ≠ "maxVisits" → n'.params.get? key = n.params.get? key

/-- Two graphs that differ in the limits of their nodes at most. -/
structure Graph.SameButLimits (g g' : Graph) : Prop where
  id : g'.id = g.id
  name : g'.name = g.name
  nodes : List.Forall₂ Node.SameButLimit g.nodes g'.nodes
  connections : g'.connections = g.connections

/-- What is found in a list has its partner, which is found in the list of the partners. -/
theorem exists_find?_zip {α β : Type} {R : α → β → Prop} {as : List α} {bs : List β}
    {p : α → Bool} {q : β → Bool} {a : α} (h : List.Forall₂ R as bs)
    (hpq : ∀ a b, R a b → p a = q b) (hfind : as.find? p = some a) :
    ∃ b, bs.find? q = some b ∧ (a, b) ∈ as.zip bs := by
  induction h with
  | nil => cases hfind
  | @cons a₀ b₀ as bs hhead _ ih =>
    rw [List.find?_cons] at hfind ⊢
    rw [← hpq a₀ b₀ hhead]
    split at hfind
    · cases hfind
      exact ⟨b₀, rfl, List.mem_cons_self⟩
    · obtain ⟨b, hb, hmem⟩ := ih hfind
      exact ⟨b, hb, List.mem_cons_of_mem _ hmem⟩

namespace Navigator

variable {nav nav' : Navigator} {n n' next : Node} {outcome : Option Bool}
  {answer : String → Nat → Option Bool} {g g' : Graph}

/-- The identifiers of the nodes of a whole walk, from a node that has been entered to the end. A
visit is answered by the identifier of its node and its number among the visits of that, from zero
on. -/
def itinerary (answer : String → Nat → Option Bool) (nav : Navigator) (n : Node) : List String :=
  n.id :: match _h : nav.advance? n (answer n.id (nav.visits n.id - 1)) with
    | none => []
    | some (nav, next) => itinerary answer nav next
termination_by nav.budget
decreasing_by exact advance?_budget_lt _h

/-- The identifiers of the nodes of the whole walk through a graph. -/
def wholeWalk (answer : String → Nat → Option Bool) (g : Graph) (maxNodeVisits : UInt32) :
    List String :=
  match (new g maxNodeVisits).start? with
  | none => []
  | some (nav, n) => itinerary answer nav n

/-- A walk that does not go on from a node ends with it. -/
theorem itinerary_of_none (h : nav.advance? n (answer n.id (nav.visits n.id - 1)) = none) :
    itinerary answer nav n = [n.id] := by
  rw [itinerary]
  split
  · rfl
  · next hsome =>
    rw [h] at hsome
    cases hsome

/-- A walk that goes on to a node goes on with its walk from there. -/
theorem itinerary_of_some
    (h : nav.advance? n (answer n.id (nav.visits n.id - 1)) = some (nav', next)) :
    itinerary answer nav n = n.id :: itinerary answer nav' next := by
  rw [itinerary]
  split
  · next hnone =>
    rw [h] at hnone
    cases hnone
  · next hsome =>
    rw [h] at hsome
    cases hsome
    rfl

/-- A walk of so many steps at most is the beginning of the whole walk, and has ended if that is no
longer. -/
theorem path_eq (answer : String → Nat → Option Bool) (nav : Navigator) (n : Node) (steps : Nat) :
    nav.path answer n steps =
      ((itinerary answer nav n).take (steps + 1),
        decide ((itinerary answer nav n).length ≤ steps)) := by
  induction steps generalizing nav n with
  | zero =>
    rw [itinerary]
    rfl
  | succ steps ih =>
    rw [path]
    cases hadvance : nav.advance? n (answer n.id (nav.visits n.id - 1)) with
    | none => simp [itinerary_of_none hadvance]
    | some entered => simp [itinerary_of_some hadvance, ih]

/-- A walk that has ended is the whole walk. -/
theorem itinerary_of_path (steps : Nat) {ids : List String}
    (h : nav.path answer n steps = (ids, true)) : itinerary answer nav n = ids := by
  obtain ⟨htake, hlength⟩ := Prod.mk.inj ((path_eq answer nav n steps).symm.trans h)
  rw [← htake, List.take_of_length_le (Nat.le_succ_of_le (of_decide_eq_true hlength))]

/-- Two walks have entered nodes of the same identifiers, in graphs that differ in the limits of
their nodes at most, and none of these is lower in the second. -/
structure Abreast (nav nav' : Navigator) : Prop where
  graphs : nav.graph.SameButLimits nav'.graph
  limits : ∀ x ∈ nav.graph.nodes.zip nav'.graph.nodes, nav.visitLimit x.1 ≤ nav'.visitLimit x.2
  trail : nav'.trail = nav.trail

namespace Abreast

/-- Walks that are abreast have been at each identifier equally often. -/
theorem visits (h : Abreast nav nav') (id : String) : nav'.visits id = nav.visits id := by
  rw [Navigator.visits, Navigator.visits, h.trail]

/-- The walks stay abreast when they enter partners. -/
theorem enter (h : Abreast nav nav') (hn : n.SameButLimit n') :
    Abreast (nav.enter n) (nav'.enter n') where
  graphs := h.graphs
  limits := h.limits
  trail := by rw [Navigator.enter, Navigator.enter, h.trail, hn.id]

/-- The same connection leads on in both graphs: no limit has a say in that. -/
theorem connection? (h : Abreast nav nav') (hn : n.SameButLimit n') (outcome : Option Bool) :
    nav'.connection? n' outcome = nav.connection? n outcome := by
  have houtgoing : nav'.outgoing n' = nav.outgoing n := by
    rw [outgoing, outgoing, h.graphs.connections, hn.id]
  simp only [Navigator.connection?, hn.kind, houtgoing]

/-- Where the first walk goes on, the second does, and they stay abreast. -/
theorem advance? (h : Abreast nav nav') (hn : n.SameButLimit n')
    {nav₁ : Navigator} (hadvance : nav.advance? n outcome = some (nav₁, next)) :
    ∃ nav₁' next', nav'.advance? n' outcome = some (nav₁', next') ∧ Abreast nav₁ nav₁' ∧
      next.SameButLimit next' := by
  obtain ⟨hnext, hlt, rfl⟩ := advance?_eq_some_iff.1 hadvance
  obtain ⟨c, hc, hnode⟩ := Option.bind_eq_some_iff.1 hnext
  obtain ⟨next', hnode', hmem⟩ := exists_find?_zip (q := fun n => n.id == c.target) h.graphs.nodes
    (fun m m' hm => by rw [hm.id]) hnode
  have hpartner : next.SameButLimit next' := (List.forall₂_iff_zip.1 h.graphs.nodes).2 hmem
  refine ⟨nav'.enter next', next', advance?_eq_some_iff.2 ⟨?_, ?_, rfl⟩, h.enter hpartner, hpartner⟩
  · exact Option.bind_eq_some_iff.2 ⟨c, (h.connection? hn outcome).trans hc, hnode'⟩
  · calc nav'.visits next'.id
        = nav.visits next.id := by rw [h.visits, hpartner.id]
      _ < nav.visitLimit next := hlt
      _ ≤ nav'.visitLimit next' := h.limits _ hmem

/-- The first walk is the beginning of the second. -/
theorem itinerary_extends (h : Abreast nav nav') (hn : n.SameButLimit n') :
    itinerary answer nav n <+: itinerary answer nav' n' := by
  induction nav, n using itinerary.induct answer generalizing nav' n' with
  | case1 nav n ih =>
    cases hadvance : nav.advance? n (answer n.id (nav.visits n.id - 1)) with
    | none =>
      rw [itinerary_of_none hadvance, itinerary, hn.id]
      exact List.cons_prefix_cons.2 ⟨rfl, List.nil_prefix⟩
    | some entered =>
      obtain ⟨nav₁, next⟩ := entered
      obtain ⟨nav₁', next', hadvance', hnext, hpartner⟩ := h.advance? hn hadvance
      have hgo : nav'.advance? n' (answer n'.id (nav'.visits n'.id - 1)) = some (nav₁', next') := by
        rw [h.visits, hn.id, hadvance']
      rw [itinerary_of_some hadvance, itinerary_of_some hgo, hn.id]
      exact List.cons_prefix_cons.2 ⟨rfl, ih _ _ hadvance hnext hpartner⟩

end Abreast

/-- Of two graphs that differ only in how often their nodes may be visited, the one where every node
may be visited as often at least as in the other is walked as that is, and perhaps on from there.
However the visits are answered, this holds of the walks to their ends and of any number of steps of
them. -/
theorem walks_extend (maxNodeVisits maxNodeVisits' : UInt32) (hgraphs : g.SameButLimits g')
    (hlimits : ∀ x ∈ g.nodes.zip g'.nodes,
      (new g maxNodeVisits).visitLimit x.1 ≤ (new g' maxNodeVisits').visitLimit x.2)
    (answer : String → Nat → Option Bool) :
    wholeWalk answer g maxNodeVisits <+: wholeWalk answer g' maxNodeVisits' ∧
      ∀ (nav : Navigator) n steps, nav.path answer n steps =
        ((itinerary answer nav n).take (steps + 1),
          decide ((itinerary answer nav n).length ≤ steps)) := by
  refine ⟨?_, path_eq answer⟩
  cases hstart : (new g maxNodeVisits).start? with
  | none =>
    rw [wholeWalk, hstart]
    exact List.nil_prefix
  | some entered =>
    obtain ⟨nav, n⟩ := entered
    obtain ⟨rfl, hn⟩ := start?_eq_some hstart
    obtain ⟨n', hn', hmem⟩ := exists_find?_zip (q := fun n => n.kind == .start) hgraphs.nodes
      (fun m m' hm => by rw [hm.kind]) hn
    have hstart' : (new g' maxNodeVisits').start? = some ((new g' maxNodeVisits').enter n', n') :=
      Option.map_eq_some_iff.2 ⟨n', hn', rfl⟩
    have hpartner : n.SameButLimit n' := (List.forall₂_iff_zip.1 hgraphs.nodes).2 hmem
    have habreast : Abreast (new g maxNodeVisits) (new g' maxNodeVisits') := ⟨hgraphs, hlimits, rfl⟩
    rw [wholeWalk, hstart, wholeWalk, hstart']
    exact (habreast.enter hpartner).itinerary_extends hpartner

/-- A graph that leads from its start to an action with these parameters, and back and forth between
that and another. -/
def shuttle (params : Json) : Graph :=
  (((((Graph.blank "shuttle").addAction "there" params).addAction "back" .null).connect "start"
    "there").connect "there" "back").connect "back" "there"

/-- The shuttle goes once under the least limits; of the higher ones, that of its first action ends
it. -/
theorem walks_extend_shuttle :
    wholeWalk (fun _ _ => none) (shuttle .null) 1 = ["start", "there", "back"] ∧
      wholeWalk (fun _ _ => none) (shuttle (.object [("maxVisits", .int 3)])) 5 =
        ["start", "there", "back", "there", "back", "there", "back"] ∧
      wholeWalk (fun _ _ => none) (shuttle .null) 1 <+:
        wholeWalk (fun _ _ => none) (shuttle (.object [("maxVisits", .int 3)])) 5 := by
  have hgraphs : (shuttle .null).SameButLimits (shuttle (.object [("maxVisits", .int 3)])) := by
    refine ⟨rfl, rfl, .cons ⟨rfl, rfl, rfl, fun _ _ => rfl⟩ (.cons ⟨rfl, rfl, rfl, ?_⟩
      (.cons ⟨rfl, rfl, rfl, fun _ _ => rfl⟩ .nil)), rfl⟩
    intro key hkey
    exact TextMap.get?_insert_of_ne _ hkey _
  refine ⟨itinerary_of_path 5 ?_, itinerary_of_path 9 ?_,
    (walks_extend 1 5 hgraphs ?_ fun _ _ => none).1⟩
  all_goals decide +kernel

end Navigator

end DeviceSuite
