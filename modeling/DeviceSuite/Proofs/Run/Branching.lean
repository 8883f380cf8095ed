import DeviceSuite.Graph.Build
import DeviceSuite.Proofs.Graph.Edges
import DeviceSuite.Proofs.Run.Route

/-!
# Where a condition leads

A condition that has been answered leads along its first connection with the label of the answer, or
else along its first connection without a label, its default. A disabled condition is not answered,
and leads along its first connection whatever label that has: to its default only where no labelled
connection comes before that.
-/

namespace DeviceSuite

namespace Navigator

variable {nav : Navigator} {n : Node} {b : Bool}

/-- An answered condition leads nowhere that has no connection with the label of the answer, and no
default. -/
theorem next?_answered_eq_none (hkind : n.kind = .condition)
    (hlabelled : ∀ c ∈ nav.graph.connections, c.source = n.id →
      c.branch ≠ some (Connection.branchLabel b))
    (hdefault : ∀ c ∈ nav.graph.connections, c.source = n.id → c.branch ≠ none) :
    nav.next? n (some b) = none := by
  have hnone : nav.connection? n (some b) = none := by
    rw [Option.eq_none_iff_forall_ne_some]
    intro c hc
    obtain hc | ⟨-, hc⟩ := (connection?_answered hkind).1 hc
    · exact hlabelled c hc.mem hc.source hc.branch
    · exact hdefault c hc.mem hc.source hc.branch
  rw [next?, hnone, Option.bind_none]

end Navigator

/-- Where a condition leads. With an answer: along its first connection with the label of the
answer, or else along its default, and never along a connection with another label. Without an
answer, as its step has none if it is disabled: along its first connection, which is its default
only if that comes before all labelled ones. -/
theorem Navigator.condition_leads (nav : Navigator) {n : Node} (hkind : n.kind = .condition) :
    (∀ b,
      (∀ c, nav.graph.FirstEdge n (· = some (Connection.branchLabel b)) c →
        nav.next? n (some b) = nav.graph.node? c.target) ∧
      ((∀ c ∈ nav.graph.connections, c.source = n.id →
          c.branch ≠ some (Connection.branchLabel b)) →
        (∀ c, nav.graph.FirstEdge n (· = none) c →
          nav.next? n (some b) = nav.graph.node? c.target) ∧
        ((∀ c ∈ nav.graph.connections, c.source = n.id → c.branch ≠ none) →
          nav.next? n (some b) = none)) ∧
      ∀ c, nav.connection? n (some b) = some c →
        c.source = n.id ∧ (c.branch = some (Connection.branchLabel b) ∨ c.branch = none)) ∧
    (∀ c, nav.graph.FirstEdge n (fun _ => True) c →
      nav.next? n none = nav.graph.node? c.target ∧
      ∀ d, nav.graph.FirstEdge n (· = none) d →
        (nav.connection? n none = some d ↔ c.branch = none)) ∧
    ∀ (p : SlotPlan) result told x, (p.step n result).Yields told (some x) →
      ∃ answer, x.2 = .next answer ∧ (answer = none ↔ n.options.disabled = true) := by
  refine ⟨fun b => ⟨fun c hc => ?_, fun hlabelled => ⟨fun c hc => ?_, fun hdefault => ?_⟩,
    fun c hc => ?_⟩, fun c hc => ⟨?_, fun d hd => ?_⟩, fun p result told x h => ?_⟩
  · exact next?_of_connection? ((connection?_answered hkind).2 (.inl hc))
  · exact next?_of_connection? ((connection?_answered hkind).2 (.inr ⟨hlabelled, hc⟩))
  · exact next?_answered_eq_none hkind hlabelled hdefault
  · obtain hc | ⟨-, hc⟩ := (connection?_answered hkind).1 hc
    · exact ⟨hc.source, .inl hc.branch⟩
    · exact ⟨hc.source, .inr hc.branch⟩
  · exact next?_of_connection? ((connection?_unanswered hkind).2 hc)
  · rw [(connection?_unanswered hkind).2 hc, Option.some_inj]
    constructor
    · rintro rfl
      exact hd.branch
    · exact fun hnone => (hc.closer hnone fun _ _ => trivial).unique hd
  · exact ((SlotPlan.returns_step p n result).of_yields h).leaves.of_condition hkind

namespace Sample

/-- A disabled condition. -/
def crossing : Node :=
  .ofParams "c" .condition (.object [("conditionType", .text "textExists"), ("text", .text "x"),
    ("disabled", .bool true)])

/-- The condition has a labelled connection before its default. -/
def detour : Graph :=
  ((((((Graph.blank "detour").addNode crossing).addEnd "labelled").addEnd "plain").connect
    "start" "c").connect "c" "labelled" (some "yes")).connect "c" "plain"

/-- The only unlabelled connection out of the condition is the first such. -/
theorem detour_default : detour.FirstEdge crossing (· = none) ⟨"c", "plain", none⟩ :=
  ⟨[⟨"start", "c", none⟩, ⟨"c", "labelled", some "yes"⟩], [], rfl, rfl, rfl, by decide⟩

/-- Where the label is allowed, the labelled connection comes first. -/
theorem detour_first {fits : Option String → Prop} (h : fits (some "yes")) :
    detour.FirstEdge crossing fits ⟨"c", "labelled", some "yes"⟩ := by
  refine ⟨[⟨"start", "c", none⟩], [⟨"c", "plain", none⟩], rfl, rfl, h, fun d hd hsource => ?_⟩
  obtain rfl := List.mem_singleton.1 hd
  exact absurd hsource (by decide)

end Sample

namespace Navigator

open Sample

/-- The condition of the detour leads along its label, if it is answered with yes; answered with no,
along its default; and without an answer along the label, which comes first. -/
theorem condition_leads_detour :
    crossing.kind = .condition ∧
      (new detour 1).next? crossing (some true) = detour.node? "labelled" ∧
      (new detour 1).next? crossing (some false) = detour.node? "plain" ∧
      (new detour 1).next? crossing none = detour.node? "labelled" := by
  have hkind : crossing.kind = .condition := rfl
  obtain ⟨hanswered, hunanswered, -⟩ := condition_leads (new detour 1) hkind
  exact ⟨hkind, (hanswered true).1 _ (detour_first rfl),
    ((hanswered false).2.1 (by decide)).1 _ detour_default,
    (hunanswered _ (detour_first trivial)).1⟩

/-- The condition of the detour is disabled and has a default, but leads along the label. -/
theorem default_passed_over :
    crossing.kind = .condition ∧ crossing.options.disabled = true ∧
      detour.node? "c" = some crossing ∧
      detour.FirstEdge crossing (· = none) ⟨"c", "plain", none⟩ ∧
      (new detour 1).next? crossing none ≠ detour.node? "plain" := by
  refine ⟨rfl, by decide +kernel, rfl, detour_default, fun h => ?_⟩
  have hids := congrArg (Option.map Node.id) h
  revert hids
  decide +kernel

end Navigator

end DeviceSuite
