import DeviceSuite.Graph.Build
import DeviceSuite.Proofs.Run.Route
import Mathlib.Data.List.Nodup

/-!
# Straight graphs

In a straight graph every node is connected to the next one and to no other. A walk through it
enters one node after the other, each of them once, so no limit of visits comes into play; and as
none of its nodes is a condition with labelled connections, no answer does. The graph of a list of
actions is straight: its identifiers are numbered, and none of them is that of its start or its end.
-/

namespace DeviceSuite

/-- The connections that lead from each identifier to the next. -/
def links : List String → List Connection
  | id :: next :: rest => ⟨id, next, none⟩ :: links (next :: rest)
  | _ => []

/-- The connections of a row are those of its parts and the one between them. -/
theorem links_append (before : List String) (id next : String) (after : List String) :
    links (before ++ id :: next :: after) =
      links (before ++ [id]) ++ ⟨id, next, none⟩ :: links (next :: after) := by
  induction before with
  | nil => rfl
  | cons first before ih =>
    cases before with
    | nil => rfl
    | cons second before => exact congrArg _ ih

/-- A connection leads from an identifier behind which another one stands. -/
theorem source_mem_of_mem_links {ids : List String} {c : Connection} (h : c ∈ links ids) :
    c.source ∈ ids.dropLast := by
  induction ids with
  | nil => cases h
  | cons id rest ih =>
    cases rest with
    | nil => cases h
    | cons next rest =>
      rw [List.dropLast_cons_cons]
      rcases List.mem_cons.1 h with rfl | hrest
      · exact List.mem_cons_self
      · exact List.mem_cons_of_mem _ (ih hrest)

/-- No connection leads from an identifier behind which no other one stands. -/
theorem filter_links_eq_nil {ids : List String} {id : String} (h : id ∉ ids.dropLast) :
    (links ids).filter (fun c => c.source == id) = [] := by
  rw [List.filter_eq_nil_iff]
  intro c hc hid
  exact h (eq_of_beq hid ▸ source_mem_of_mem_links hc)

namespace Graph

/-- The nodes have identifiers of their own and stand in a row, each connected to the next; only
the last may be an end, and none answers. -/
structure Straight (g : Graph) : Prop where
  nodup : (g.nodes.map Node.id).Nodup
  connections : g.connections = links (g.nodes.map Node.id)
  leadsOn : ∀ n ∈ g.nodes.dropLast, n.kind = .start ∨ n.kind = .action

variable {g : Graph} {nav : Navigator} {n next : Node} {before after : List Node}

/-- In a straight graph no other node has the identifier of a node. -/
theorem Straight.nodup_split (h : g.Straight) (hnodes : g.nodes = before ++ n :: after) :
    n.id ∉ before.map Node.id ∧ n.id ∉ after.map Node.id := by
  have hnodup := h.nodup
  rw [hnodes, List.map_append, List.map_cons, List.nodup_middle, List.nodup_cons,
    List.mem_append, not_or] at hnodup
  exact hnodup.1

/-- Every node is found by its identifier. -/
theorem Straight.node?_eq (h : g.Straight) (hnodes : g.nodes = before ++ n :: after) :
    g.node? n.id = some n := by
  have hbefore : before.find? (fun m => m.id == n.id) = none := by
    rw [List.find?_eq_none]
    intro m hm hid
    exact (h.nodup_split hnodes).1 (eq_of_beq hid ▸ List.mem_map_of_mem hm)
  rw [node?, hnodes, List.find?_append, hbefore, Option.none_or,
    List.find?_cons_of_pos]
  exact beq_self_eq_true _

/-- The only connection out of a node leads to the next one. -/
theorem Straight.outgoing_eq (h : g.Straight) (hgraph : nav.graph = g)
    (hnodes : g.nodes = before ++ n :: next :: after) :
    nav.outgoing n = [⟨n.id, next.id, none⟩] := by
  obtain ⟨hbefore, hafter⟩ := h.nodup_split hnodes
  rw [Navigator.outgoing, hgraph, h.connections, hnodes, List.map_append, List.map_cons,
    List.map_cons, links_append, List.filter_append, filter_links_eq_nil,
    List.filter_cons_of_pos, filter_links_eq_nil, List.nil_append]
  · exact fun hmem => hafter (List.dropLast_subset _ hmem)
  · exact beq_self_eq_true _
  · rwa [List.dropLast_concat]

/-- No connection leads out of the last node. -/
theorem Straight.outgoing_last (h : g.Straight) (hgraph : nav.graph = g)
    (hnodes : g.nodes = before ++ [n]) : nav.outgoing n = [] := by
  rw [Navigator.outgoing, hgraph, h.connections, hnodes, List.map_append, List.map_singleton]
  apply filter_links_eq_nil
  rw [List.dropLast_concat]
  exact (h.nodup_split hnodes).1

/-- A walk that has only been where it came from goes on to the next node, whatever the answer. -/
theorem Straight.advance?_eq (h : g.Straight) (hgraph : nav.graph = g)
    (hnodes : g.nodes = before ++ n :: next :: after) (hfresh : next.id ∉ nav.trail)
    (outcome : Option Bool) : nav.advance? n outcome = some (nav.enter next, next) := by
  have hkind : n.kind = .start ∨ n.kind = .action := by
    apply h.leadsOn n
    rw [hnodes, List.dropLast_append_cons, List.dropLast_cons_cons]
    exact List.mem_append_right _ List.mem_cons_self
  have hconnection : nav.connection? n outcome = some ⟨n.id, next.id, none⟩ := by
    have hfirst : (nav.outgoing n).head? = some ⟨n.id, next.id, none⟩ := by
      rw [h.outgoing_eq hgraph hnodes]
      rfl
    rcases hkind with hkind | hkind <;> simp only [Navigator.connection?, hkind, hfirst]
  have hnext : nav.next? n outcome = some next := by
    have hnodes' : g.nodes = (before ++ [n]) ++ next :: after := by simp [hnodes]
    rw [Navigator.next?, hconnection, Option.bind_some, hgraph, h.node?_eq hnodes']
  have hvisits : nav.visits next.id < nav.visitLimit next := by
    rw [Navigator.visits, List.count_eq_zero_of_not_mem hfresh]
    exact Nat.lt_of_lt_of_le Nat.zero_lt_one (Nat.le_max_left _ _)
  rw [Navigator.advance?, hnext]
  exact if_pos hvisits

/-- A walk does not go on from the last node. -/
theorem Straight.advance?_last (h : g.Straight) (hgraph : nav.graph = g)
    (hnodes : g.nodes = before ++ [n]) (outcome : Option Bool) : nav.advance? n outcome = none := by
  have hconnection : nav.connection? n outcome = none := by
    simp only [Navigator.connection?, h.outgoing_last hgraph hnodes]
    split <;> rfl
  rw [Navigator.advance?, Navigator.next?, hconnection]
  rfl

/-- The route of a straight graph is the rest of its row. -/
theorem Straight.route_eq (h : g.Straight) (hgraph : nav.graph = g)
    (hnodes : g.nodes = before ++ n :: after)
    (htrail : nav.trail ⊆ (before ++ [n]).map Node.id)
    (answers : List (Option Bool)) : nav.route n answers = n :: after := by
  -- The walk leaves its node for the next one, so the induction is on the nodes that are ahead.
  induction after generalizing nav n before answers with
  | nil => exact Navigator.route_of_none (h.advance?_last hgraph hnodes _)
  | cons next after ih =>
    have hnodes' : g.nodes = (before ++ [n]) ++ next :: after := by simp [hnodes]
    have hfresh : next.id ∉ nav.trail := fun hmem => (h.nodup_split hnodes').1 (htrail hmem)
    have htrail' : (nav.enter next).trail ⊆ (before ++ [n] ++ [next]).map Node.id := by
      rw [List.map_append, List.map_singleton]
      exact List.cons_subset.2 ⟨List.mem_concat_self, fun id hid =>
        List.mem_append_left _ (htrail hid)⟩
    have hgraph' : (nav.enter next).graph = g := hgraph
    rw [Navigator.route_of_some (h.advance?_eq hgraph hnodes hfresh _), ih hgraph' hnodes' htrail']

/-- A straight graph that begins with a start node is walked from its first node to its last. -/
theorem Straight.walked_through (h : g.Straight) (hnodes : g.nodes = n :: after)
    (hstart : n.kind = .start) (maxNodeVisits : UInt32) (answers : List (Option Bool)) :
    (Navigator.new g maxNodeVisits).start? =
        some ((Navigator.new g maxNodeVisits).enter n, n) ∧
      ((Navigator.new g maxNodeVisits).enter n).route n answers = g.nodes := by
  constructor
  · have hfirst : g.startNode? = some n := by
      rw [startNode?, hnodes, List.find?_cons_of_pos (by rw [hstart]; rfl)]
    rw [Navigator.start?]
    exact congrArg (Option.map _) hfirst
  · rw [h.route_eq rfl (hnodes.trans (List.nil_append _).symm) (List.Subset.refl _), hnodes]

end Graph

namespace Graph

/-- The nodes of a list of actions, numbered from a number on. -/
def actionNodes (number : Nat) (actions : List Json) : List Node :=
  (actions.zipIdx number).map fun (params, i) => .ofParams ("a" ++ toString i) .action params

/-- The first action has the first number, and the others have the following ones. -/
theorem actionNodes_cons (number : Nat) (params : Json) (actions : List Json) :
    actionNodes number (params :: actions) =
      .ofParams ("a" ++ toString number) .action params :: actionNodes (number + 1) actions := rfl

/-- A chain adds a node for each action, and the node before it is connected to each. -/
theorem chain_spec (g : Graph) (last : String) (number : Nat) (actions : List Json) (id : String) :
    (g.chain last number actions).1.nodes = g.nodes ++ actionNodes number actions ∧
      ((g.chain last number actions).1.connect (g.chain last number actions).2 id).connections =
        g.connections ++ links (last :: (actionNodes number actions).map Node.id ++ [id]) := by
  induction actions generalizing g last number with
  | nil => exact ⟨(List.append_nil _).symm, rfl⟩
  | cons params actions ih =>
    rw [chain, actionNodes_cons]
    obtain ⟨hnodes, hconnections⟩ :=
      ih ((g.addAction _ params).connect last _) ("a" ++ toString number) (number + 1)
    refine ⟨?nodes, ?connections⟩
    case nodes =>
      rw [hnodes]
      simp [connect, addAction, addNode]
    case connections =>
      rw [hconnections]
      simp [connect, addAction, addNode, links, Node.ofParams]

/-- The nodes of a list of actions stand between a start and an end. -/
theorem linear_nodes (id : String) (actions : List Json) :
    (linear id actions).nodes = .ofParams "start" .start .null ::
      actionNodes 1 actions ++ [.ofParams "end" .finish .null] := by
  have hnodes := ((blank id).chain_spec "start" 1 actions "end").1
  rw [linear]
  simp only [connect, addEnd, addNode, hnodes]
  rfl

/-- The identifiers of a list of actions are their numbers. -/
theorem actionNodes_ids (number : Nat) (actions : List Json) :
    (actionNodes number actions).map Node.id =
      (List.range' number actions.length).map fun i => "a" ++ toString i := by
  rw [actionNodes, List.map_map, ← List.zipIdx_map_snd number actions, List.map_map]
  rfl

/-- The identifiers of a linear graph stand in a row, from the start to the end. -/
theorem linear_ids (id : String) (actions : List Json) :
    (linear id actions).nodes.map Node.id = "start" ::
      ((List.range' 1 actions.length).map fun i => "a" ++ toString i) ++ ["end"] := by
  rw [linear_nodes, List.cons_append, List.map_cons, List.map_append, actionNodes_ids]
  rfl

/-- Numbered identifiers are all different, and none is that of a start or an end. -/
theorem nodup_linear_ids (count : Nat) :
    ("start" :: ((List.range' 1 count).map fun i => "a" ++ toString i) ++ ["end"]).Nodup := by
  have hinjective : Function.Injective fun i : Nat => "a" ++ toString i := by
    intro i j hij
    have hrepr : i.repr = j.repr := (String.append_right_inj "a").1 hij
    have hdigits : Nat.toDigits 10 i = Nat.toDigits 10 j := by
      rwa [Nat.repr_eq_ofList_toDigits, Nat.repr_eq_ofList_toDigits, String.ofList_inj] at hrepr
    rw [← Nat.ofDigitChars_ten_toDigits (n := i), hdigits, Nat.ofDigitChars_ten_toDigits]
  have hfirst (i : Nat) : ("a" ++ toString i).toList.head? = some 'a' := by
    rw [String.toList_append]
    rfl
  have hnumber (id : String) (hid : id.toList.head? ≠ some 'a') :
      id ∉ (List.range' 1 count).map fun i => "a" ++ toString i := by
    intro hmem
    obtain ⟨i, -, rfl⟩ := List.mem_map.1 hmem
    exact hid (hfirst i)
  rw [List.cons_append, List.nodup_cons, List.mem_append, List.nodup_append]
  refine ⟨?start, (List.nodup_range' _).map hinjective, List.nodup_singleton _, ?finish⟩
  case start =>
    rw [not_or]
    exact ⟨hnumber _ (by decide), by decide⟩
  case finish =>
    intro id hid end' hend heq
    rw [heq, List.mem_singleton.1 hend] at hid
    exact hnumber _ (by decide) hid

/-- A linear graph is straight. -/
theorem linear_straight (id : String) (actions : List Json) : (linear id actions).Straight where
  nodup := by
    rw [linear_ids]
    exact nodup_linear_ids _
  connections := by
    have hconnections := ((blank id).chain_spec "start" 1 actions "end").2
    rw [linear_ids, ← actionNodes_ids]
    exact hconnections
  leadsOn n hn := by
    rw [linear_nodes, List.dropLast_concat] at hn
    rcases List.mem_cons.1 hn with rfl | hn
    · exact .inl rfl
    · obtain ⟨x, -, rfl⟩ := List.mem_map.1 hn
      exact .inr rfl

end Graph

end DeviceSuite
