import DeviceSuite.Graph.Navigator

/-!
# The connection that a walk follows

What the connections of a graph say about where a walk goes on, without a search. The connections
out of a node are those of its identifier in their order; after the answer of a condition the first
with the label of the answer is followed, or else the first default. The search of a navigator finds
this connection, `Navigator.connection?_eq_some_iff`, and finds none only where none can be followed
at all, `Navigator.connection?_eq_none_iff`.
-/

namespace DeviceSuite

namespace Graph

variable {g : Graph} {n m : Node} {outcome : Option Bool} {c d : Connection}
  {fits fits' : Option String → Prop}

/-- The first node of a graph with a property. -/
def FirstNode (g : Graph) (p : Node → Prop) (n : Node) : Prop :=
  ∃ before after, g.nodes = before ++ n :: after ∧ p n ∧ ∀ m ∈ before, ¬ p m

/-- The first connection that leaves a node with such a label. -/
def FirstEdge (g : Graph) (n : Node) (fits : Option String → Prop) (c : Connection) : Prop :=
  ∃ before after, g.connections = before ++ c :: after ∧ c.source = n.id ∧ fits c.branch ∧
    ∀ d ∈ before, d.source = n.id → ¬ fits d.branch

/-- A walk may follow a connection out of a node that it leaves with an outcome. No connection leads
on from an end. An answered condition is left by a connection with the label of the answer, or by a
default, which has no label. -/
structure Usable (g : Graph) (n : Node) (outcome : Option Bool) (c : Connection) : Prop where
  mem : c ∈ g.connections
  source : c.source = n.id
  goesOn : n.kind ≠ .finish
  branch : n.kind = .condition → ∀ b ∈ outcome,
    c.branch = some (Connection.branchLabel b) ∨ c.branch = none

/-- Which of them a walk follows. -/
inductive Leads (g : Graph) (n : Node) : Option Bool → Connection → Prop where
  /-- An answered condition leads along the first connection with the label of the answer. -/
  | labelled {b : Bool} {c : Connection} : n.kind = .condition →
    g.FirstEdge n (· = some (Connection.branchLabel b)) c → Leads g n (some b) c
  /-- If there is none, it leads along its first default. -/
  | default {b : Bool} {c : Connection} : n.kind = .condition →
    (∀ d ∈ g.connections, d.source = n.id → d.branch ≠ some (Connection.branchLabel b)) →
    g.FirstEdge n (· = none) c → Leads g n (some b) c
  /-- Any other node but an end leads along its first connection, whatever the label, and so does a
  condition that has not been answered. -/
  | first {outcome : Option Bool} {c : Connection} : n.kind ≠ .finish →
    (n.kind = .condition → outcome = none) →
    g.FirstEdge n (fun _ => True) c → Leads g n outcome c

/-- A search among the nodes finds the first that passes the test. -/
theorem find?_nodes_eq_some_iff {p : Node → Bool} :
    g.nodes.find? p = some n ↔ g.FirstNode (fun m => p m = true) n := by
  simp only [List.find?_eq_some_iff_append, Bool.not_eq_true', FirstNode, Bool.not_eq_true]
  constructor
  · rintro ⟨hn, before, after, hsplit, hbefore⟩
    exact ⟨before, after, hsplit, hn, hbefore⟩
  · rintro ⟨before, after, hsplit, hn, hbefore⟩
    exact ⟨hn, before, after, hsplit, hbefore⟩

/-- Looking up an identifier finds the first node that has it. -/
theorem node?_eq_some_iff {id : String} : g.node? id = some n ↔ g.FirstNode (·.id = id) n := by
  simp only [node?, find?_nodes_eq_some_iff, beq_iff_eq]

/-- Looking up an identifier finds nothing only if no node has it. -/
theorem node?_eq_none_iff {id : String} : g.node? id = none ↔ ∀ m ∈ g.nodes, m.id ≠ id := by
  simp [node?, List.find?_eq_none]

/-- The start node is the first node of its kind. -/
theorem startNode?_eq_some_iff : g.startNode? = some n ↔ g.FirstNode (·.kind = .start) n := by
  simp only [startNode?, find?_nodes_eq_some_iff, beq_iff_eq]

namespace FirstEdge

/-- The first connection is one of the graph. -/
theorem mem (h : g.FirstEdge n fits c) : c ∈ g.connections := by
  obtain ⟨before, after, hsplit, -⟩ := h
  exact hsplit ▸ List.mem_append_right before List.mem_cons_self

/-- The first connection leaves the node. -/
theorem source (h : g.FirstEdge n fits c) : c.source = n.id := by
  obtain ⟨-, -, -, hsource, -⟩ := h
  exact hsource

/-- The label of the first connection fits. -/
theorem branch (h : g.FirstEdge n fits c) : fits c.branch := by
  obtain ⟨-, -, -, -, hfits, -⟩ := h
  exact hfits

/-- The first connection is also the first of those whose labels fit more closely, if its own
does. -/
theorem closer (h : g.FirstEdge n fits c) (hc : fits' c.branch)
    (hfits : ∀ label, fits' label → fits label) : g.FirstEdge n fits' c := by
  obtain ⟨before, after, hsplit, hsource, -, hbefore⟩ := h
  exact ⟨before, after, hsplit, hsource, hc, fun d hd hsource hd' =>
    hbefore d hd hsource (hfits _ hd')⟩

/-- There is but one first connection. -/
theorem unique (hc : g.FirstEdge n fits c) (hd : g.FirstEdge n fits d) : c = d := by
  obtain ⟨before, after, hsplit, hsource, hfits, hbefore⟩ := hc
  obtain ⟨before', after', hsplit', hsource', hfits', hbefore'⟩ := hd
  obtain ⟨more, rfl, hmore⟩ | ⟨more, rfl, hmore⟩ :=
    List.append_eq_append_iff.1 (hsplit.symm.trans hsplit')
  · cases more with
    | nil => exact (List.cons.inj hmore).1
    | cons e more =>
      obtain ⟨rfl, -⟩ := List.cons.inj hmore
      exact absurd hfits (hbefore' c (List.mem_append_right _ List.mem_cons_self) hsource)
  · cases more with
    | nil => exact (List.cons.inj hmore).1.symm
    | cons e more =>
      obtain ⟨rfl, -⟩ := List.cons.inj hmore
      exact absurd hfits' (hbefore d (List.mem_append_right _ List.mem_cons_self) hsource')

end FirstEdge

/-- What a walk follows may be followed. -/
theorem Leads.usable (h : g.Leads n outcome c) : g.Usable n outcome c := by
  cases h with
  | labelled hkind hfirst =>
    refine ⟨hfirst.mem, hfirst.source, by rw [hkind]; decide, fun _ b hb => .inl ?_⟩
    exact Option.some.inj hb ▸ hfirst.branch
  | default hkind hnone hfirst =>
    exact ⟨hfirst.mem, hfirst.source, by rw [hkind]; decide, fun _ b _ => .inr hfirst.branch⟩
  | first hkind hcondition hfirst =>
    refine ⟨hfirst.mem, hfirst.source, hkind, fun hk b hb => ?_⟩
    rw [hcondition hk] at hb
    cases hb

end Graph

namespace Navigator

variable {nav : Navigator} {n : Node} {outcome : Option Bool} {c : Connection} {b : Bool}

/-- The search among the connections out of a node finds the first that fits. -/
theorem find?_outgoing_eq_some_iff (label : Option String → Bool) :
    ((nav.outgoing n).find? fun c => label c.branch) = some c ↔
      nav.graph.FirstEdge n (fun l => label l = true) c := by
  rw [outgoing, List.find?_filter, List.find?_eq_some_iff_append]
  simp only [beq_iff_eq, decide_eq_true_eq, Bool.not_eq_true', decide_eq_false_iff_not, not_and,
    Graph.FirstEdge]
  constructor
  · rintro ⟨⟨hsource, hlabel⟩, before, after, hsplit, hbefore⟩
    exact ⟨before, after, hsplit, hsource, hlabel, hbefore⟩
  · rintro ⟨before, after, hsplit, hsource, hlabel, hbefore⟩
    exact ⟨⟨hsource, hlabel⟩, before, after, hsplit, hbefore⟩

/-- The search among the connections out of a node finds nothing only if none of them fits. -/
theorem find?_outgoing_eq_none_iff (label : Option String → Bool) :
    ((nav.outgoing n).find? fun c => label c.branch) = none ↔
      ∀ c ∈ nav.graph.connections, c.source = n.id → ¬ label c.branch = true := by
  simp [outgoing, List.find?_eq_none]

/-- An answered condition leads along the first connection with the label of the answer, or else
along the first without a label. -/
theorem connection?_answered (hkind : n.kind = .condition) :
    nav.connection? n (some b) = some c ↔
      nav.graph.FirstEdge n (· = some (Connection.branchLabel b)) c ∨
        (∀ d ∈ nav.graph.connections, d.source = n.id →
          d.branch ≠ some (Connection.branchLabel b)) ∧ nav.graph.FirstEdge n (· = none) c := by
  simp only [connection?, hkind, Option.or_eq_some_iff]
  rw [find?_outgoing_eq_some_iff (· == some (Connection.branchLabel b)),
    find?_outgoing_eq_none_iff (· == some (Connection.branchLabel b)),
    find?_outgoing_eq_some_iff Option.isNone]
  simp only [beq_iff_eq, Option.isNone_iff_eq_none, ne_eq]

/-- Where no answer is heeded, the first connection is followed, whatever its label. -/
theorem connection?_eq_find? (hkind : n.kind ≠ .finish)
    (hcondition : n.kind = .condition → outcome = none) :
    nav.connection? n outcome = (nav.outgoing n).find? fun _ => true := by
  have hfirst : (nav.outgoing n).head? = (nav.outgoing n).find? fun _ => true := by
    cases nav.outgoing n <;> rfl
  cases hk : n.kind with
  | finish => exact absurd hk hkind
  | condition =>
    obtain rfl := hcondition hk
    simpa only [connection?, hk] using hfirst
  | _ => simpa only [connection?, hk] using hfirst

/-- A condition without an answer leads along its first connection, whatever its label. -/
theorem connection?_unanswered (hkind : n.kind = .condition) :
    nav.connection? n none = some c ↔ nav.graph.FirstEdge n (fun _ => True) c := by
  rw [connection?_eq_find? (by rw [hkind]; decide) fun _ => rfl,
    find?_outgoing_eq_some_iff fun _ => true]
  simp only

/-- No connection is followed out of an end. -/
theorem connection?_finish (hkind : n.kind = .finish) : nav.connection? n outcome = none := by
  simp only [connection?, hkind]

/-- A navigator follows the connection along which the graph leads. -/
theorem connection?_eq_some_iff :
    nav.connection? n outcome = some c ↔ nav.graph.Leads n outcome c := by
  constructor
  · intro h
    by_cases hfinish : n.kind = .finish
    · rw [connection?_finish hfinish] at h
      cases h
    by_cases hcondition : n.kind = .condition → outcome = none
    · rw [connection?_eq_find? hfinish hcondition, find?_outgoing_eq_some_iff fun _ => true] at h
      exact .first hfinish hcondition (by simpa only using h)
    · obtain ⟨hkind, houtcome⟩ := Classical.not_imp.1 hcondition
      obtain ⟨b, rfl⟩ := Option.ne_none_iff_exists'.1 houtcome
      rcases (connection?_answered hkind).1 h with hfirst | ⟨hnone, hfirst⟩
      · exact .labelled hkind hfirst
      · exact .default hkind hnone hfirst
  · intro h
    cases h with
    | labelled hkind hfirst => exact (connection?_answered hkind).2 (.inl hfirst)
    | default hkind hnone hfirst => exact (connection?_answered hkind).2 (.inr ⟨hnone, hfirst⟩)
    | first hkind hcondition hfirst =>
      rw [connection?_eq_find? hkind hcondition, find?_outgoing_eq_some_iff fun _ => true]
      simpa only using hfirst

/-- A navigator follows no connection only where none may be followed. -/
theorem connection?_eq_none_iff :
    nav.connection? n outcome = none ↔ ∀ c, ¬ nav.graph.Usable n outcome c := by
  constructor
  · intro h c hc
    by_cases hcondition : n.kind = .condition → outcome = none
    · rw [connection?_eq_find? hc.goesOn hcondition, find?_outgoing_eq_none_iff fun _ => true] at h
      exact h c hc.mem hc.source rfl
    · obtain ⟨hkind, houtcome⟩ := Classical.not_imp.1 hcondition
      obtain ⟨b, rfl⟩ := Option.ne_none_iff_exists'.1 houtcome
      simp only [connection?, hkind, Option.or_eq_none_iff] at h
      rw [find?_outgoing_eq_none_iff (· == some (Connection.branchLabel b)),
        find?_outgoing_eq_none_iff Option.isNone] at h
      rcases hc.branch hkind b rfl with hbranch | hbranch
      · exact h.1 c hc.mem hc.source (beq_iff_eq.2 hbranch)
      · exact h.2 c hc.mem hc.source (Option.isNone_iff_eq_none.2 hbranch)
  · intro h
    rw [Option.eq_none_iff_forall_ne_some]
    exact fun c hc => h c (connection?_eq_some_iff.1 hc).usable

/-- The node behind the connection that is followed. -/
theorem next?_of_connection? (h : nav.connection? n outcome = some c) :
    nav.next? n outcome = nav.graph.node? c.target := by
  rw [next?, h, Option.bind_some]

/-- A walk goes on to the first node with the identifier to which the connection leads. -/
theorem next?_eq_some_iff {next : Node} : nav.next? n outcome = some next ↔
    ∃ c, nav.graph.Leads n outcome c ∧ nav.graph.FirstNode (·.id = c.target) next := by
  simp only [next?, Option.bind_eq_some_iff, connection?_eq_some_iff, Graph.node?_eq_some_iff]

end Navigator

end DeviceSuite
