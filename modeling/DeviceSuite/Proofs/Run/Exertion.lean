import DeviceSuite.Proofs.Device.Exertion
import DeviceSuite.Proofs.Graph.Visits
import DeviceSuite.Proofs.Run.Slot
import Mathlib.Algebra.BigOperators.Group.Finset.Piecewise

/-!
# How often a scenario works its device

A step works the device no more often than its node may, and a walk enters no node more often than
its limit. So the limits of the nodes bound what a scenario does with its device, whatever the
device replies and whenever the stop comes.
-/

namespace DeviceSuite

open DeviceSuite.Task

variable {σ : Type} {s : Service RunCall.Reply σ} {X : Prop}

namespace RunCall

/-- Whether a call works the device; pictures do not count. -/
def acts : RunCall → Bool
  | device c => decide c.Acts
  | _ => false

end RunCall

namespace RunTask

/-- A call of a step that does not work the device is free. -/
theorem spends_ask (h : s.Replies RunCall.OfStep) {c : RunCall} (hc : c.OfStep)
    (hacts : c.acts = false) : (ask c).Spends s RunCall.acts X 0 := by
  have hzero : c.acts.toNat = 0 := by rw [hacts]; rfl
  exact hzero ▸ Task.spends_ask fun now state c' hc' => h now state c' (hc' ▸ hc)

/-- What a task of the device spends on the device, it spends in a run. -/
theorem spends_onDevice (h : s.Replies RunCall.OfStep) {α : Type} {t : DeviceTask α} {k : Nat}
    (ht : ∀ s : Service DeviceCall.Reply σ, s.Replies DeviceCall.Acts →
      t.Spends s (fun c => decide c.Acts) X k) : (onDevice t).Spends s RunCall.acts X k :=
  (ht (s.along RunCall.device fun _ r => r) fun now state c _ =>
    h.along RunCall.device (fun _ r => r) now state c trivial).embed

end RunTask

namespace SlotPlan

variable (p : SlotPlan) (n : Node)

/-- An event of a step does not work the device. -/
theorem spends_emit (h : s.Replies RunCall.OfStep) {e : Event} (he : (RunCall.emit e).OfStep) :
    (RunTask.emit e).Spends s RunCall.acts X 0 :=
  RunTask.spends_ask h he rfl

/-- A picture does not work the device. -/
theorem spends_photograph (h : s.Replies RunCall.OfStep) :
    (p.photograph n).Spends s RunCall.acts X 0 := by
  have hshot : (RunTask.onDevice (ask DeviceCall.screenshot)).Spends s RunCall.acts X 0 :=
    Spends.embed (Task.spends_ask fun now state _ hc =>
      h.along RunCall.device (fun _ r => r) now state _ trivial)
  rw [photograph]
  apply hshot.free_bind
  intro shot
  cases shot with
  | error e => exact spends_pure _
  | ok bytes =>
    apply Spends.now_bind
    intro ms
    refine (RunTask.spends_ask h ?_ rfl).free_bind fun receipt => ?_
    · trivial
    · cases receipt <;> exact spends_pure _

/-- To tell a record does not work the device. -/
theorem spends_complete (h : s.Replies RunCall.OfStep) (result : ScenarioResult)
    (step : StepResult) : (p.complete result step).Spends s RunCall.acts X 0 :=
  (spends_emit h (by trivial)).free_bind fun _ => spends_pure _

/-- To tell of a step that is to come does not work the device. -/
theorem spends_forewarn (h : s.Replies RunCall.OfStep) (started : Nat) (result : ScenarioResult) :
    (p.forewarn n started result).Spends s RunCall.acts X 0 := by
  rw [forewarn]
  split
  · exact (spends_emit h (by trivial)).free_bind fun _ => spends_pure _
  · exact spends_pure _

/-- To conclude a step does not work the device. -/
theorem spends_conclude (h : s.Replies RunCall.OfStep) (started : Nat) (result : ScenarioResult)
    (outcome : Outcome) (picture : Option String) (ended : Nat) :
    (p.conclude n started result outcome picture ended).Spends s RunCall.acts X 0 := by
  simp only [conclude]
  split
  · exact (p.spends_complete h _ _).free_bind fun _ => spends_pure _
  · exact (p.spends_complete h _ _).free_bind fun _ => spends_pure _

section

variable {p n}

/-- An enabled action works the device no more often than its node allows. -/
theorem spends_act (h : s.Replies RunCall.OfStep) (henabled : n.options.disabled = false)
    (hkind : n.kind = .action)
    (hinterval : ∀ a, n.action = .ok a → a.kind.isWait = true →
      1 ≤ (p.settings.pollFor n.options).intervalMs.toNat)
    (hX : maxPolls < n.callLimit p.settings → X) (started : Nat) (result : ScenarioResult) :
    (p.act n n.options started result).Spends s RunCall.acts X (n.callLimit p.settings) := by
  have hdevice : (RunTask.onDevice (n.conduct p.settings n.options)).Spends s RunCall.acts X
      (n.callLimit p.settings) :=
    RunTask.spends_onDevice h fun _ hs => n.spends_conduct hs henabled hkind hinterval hX
  have hconduct : (p.conduct n n.options).Spends s RunCall.acts X (n.callLimit p.settings) := by
    apply hdevice.bind_free
    intro x
    dsimp only
    split
    · exact (p.spends_photograph n h).bind_free fun _ => spends_pure _
    · exact (spends_pure none).bind_free fun _ => spends_pure _
  rw [act_eq]
  apply (p.spends_forewarn n h started result).free_bind
  intro result'
  apply hconduct.bind_free
  intro x
  exact Spends.now_bind fun ended => p.spends_conclude n h started result' x.1 x.2 ended

/-- An enabled condition works the device no more often than its node allows. -/
theorem spends_decide (h : s.Replies RunCall.OfStep) (henabled : n.options.disabled = false)
    (hkind : n.kind = .condition) (started : Nat) (result : ScenarioResult) :
    (p.decide n n.options started result).Spends s RunCall.acts X (n.callLimit p.settings) := by
  have hdevice : (RunTask.onDevice (n.evaluate p.settings n.options)).Spends s RunCall.acts X
      (n.callLimit p.settings) :=
    RunTask.spends_onDevice h fun _ hs => n.spends_evaluate hs henabled hkind
  apply hdevice.bind_free
  intro answer
  apply Spends.now_bind
  intro ended
  exact (p.spends_complete h _ _).free_bind fun _ => spends_pure _

/-- A step works the device no more often than its node may. -/
theorem spends_step (h : s.Replies RunCall.OfStep)
    (hinterval : ∀ a, n.action = .ok a → a.kind.isWait = true →
      1 ≤ (p.settings.pollFor n.options).intervalMs.toNat)
    (hX : maxPolls < n.callLimit p.settings → X) (result : ScenarioResult) :
    (p.step n result).Spends s RunCall.acts X (n.callLimit p.settings) := by
  rw [step]
  split
  · exact spends_pure _
  · next hends =>
    apply Spends.now_bind
    intro started
    refine (spends_emit h (by trivial)).free_bind fun _ => ?_
    split
    · exact ((p.spends_complete h _ _).free_bind fun _ => spends_pure _).mono (Nat.zero_le _)
    · next henabled =>
      have henabled := Bool.eq_false_of_not_eq_true henabled
      split
      · next hkind => exact spends_decide h henabled hkind started result
      · next hcondition =>
        have hkind : n.kind = .action := by
          cases hkind : n.kind <;> simp_all
        exact spends_act h henabled hkind hinterval hX started result

end

/-- How often the nodes with an identifier may work the device at a visit; the first of them says
how often. -/
def callLimitOf (p : SlotPlan) (g : Graph) (id : String) : Nat :=
  ((g.node? id).map fun n => n.callLimit p.settings).getD 0

end SlotPlan

namespace Navigator

variable {nav nav' : Navigator} {n next : Node} {outcome : Option Bool}

/-- What the visits that are left may cost, at a cost for each identifier. -/
def dues (nav : Navigator) (cost : String → Nat) : Nat :=
  ∑ id ∈ (nav.graph.nodes.map Node.id).toFinset, nav.remaining id * cost id

/-- Entering a node uses up one visit of its identifier, and none of any other. -/
theorem remaining_enter (hnode : nav.graph.node? next.id = some next)
    (hlt : nav.visits next.id < nav.visitLimit next) (id : String) :
    (nav.enter next).remaining id + (if next.id = id then 1 else 0) = nav.remaining id := by
  have hvisits := nav.visits_enter next id
  by_cases hid : next.id = id
  · subst hid
    have hsame : (nav.enter next).graph.node? next.id = some next := hnode
    have hlimit : (nav.enter next).visitLimit next = nav.visitLimit next := rfl
    rw [List.count_singleton_self] at hvisits
    simp only [remaining, hnode, hsame, hvisits, hlimit, ↓reduceIte]
    omega
  · rw [List.count_eq_zero_of_not_mem (by simpa using Ne.symm hid), Nat.add_zero] at hvisits
    rw [if_neg hid, Nat.add_zero, remaining, remaining, hvisits]
    rfl

/-- A step of a walk pays for the visit that it uses up. -/
theorem dues_advance (h : nav.advance? n outcome = some (nav', next)) (cost : String → Nat) :
    nav'.dues cost + cost next.id = nav.dues cost := by
  obtain ⟨rfl, hnode, hmem, hlt⟩ := advance?_eq_some h
  have hid : next.id ∈ (nav.graph.nodes.map Node.id).toFinset :=
    List.mem_toFinset.2 (List.mem_map_of_mem hmem)
  calc (nav.enter next).dues cost + cost next.id
      = ∑ id ∈ (nav.graph.nodes.map Node.id).toFinset,
          ((nav.enter next).remaining id * cost id + if next.id = id then cost id else 0) := by
        rw [Finset.sum_add_distrib, Finset.sum_ite_eq, if_pos hid]
        rfl
    _ = nav.dues cost := by
        refine Finset.sum_congr rfl fun id _ => ?_
        rw [← remaining_enter hnode hlt id, Nat.add_mul, ite_mul, Nat.one_mul, Nat.zero_mul]

/-- Before its first node, a walk may cost no more than the limits allow. -/
theorem dues_start {g : Graph} {maxNodeVisits : UInt32}
    (h : (new g maxNodeVisits).start? = some (nav, n)) (cost : String → Nat) :
    nav.graph = g ∧ n ∈ g.nodes ∧ n.kind = .start ∧ nav.dues cost ≤
      ∑ id ∈ (g.nodes.map Node.id).toFinset, limitOf g maxNodeVisits id * cost id := by
  obtain ⟨rfl, hstart⟩ := start?_eq_some h
  have hkind : n.kind = .start := by simpa using List.find?_some hstart
  refine ⟨rfl, List.mem_of_find?_eq_some hstart, hkind, Finset.sum_le_sum fun id _ => ?_⟩
  have hremaining : ((new g maxNodeVisits).enter n).remaining id ≤ limitOf g maxNodeVisits id := by
    have hgraph : ((new g maxNodeVisits).enter n).graph = g := rfl
    rw [remaining, limitOf, hgraph]
    cases g.node? id with
    | none => exact Nat.zero_le _
    | some m => exact Nat.sub_le _ _
  exact Nat.mul_le_mul_right _ hremaining

end Navigator

namespace SlotPlan

variable {p : SlotPlan} {g : Graph} {nav : Navigator} {n : Node}

/-- Every wait of a graph leaves some time between its looks. -/
def SpacesLooks (p : SlotPlan) (g : Graph) : Prop :=
  ∀ n ∈ g.nodes, ∀ a, n.action = .ok a → a.kind.isWait = true →
    1 ≤ (p.settings.pollFor n.options).intervalMs.toNat

/-- Some wait of a graph has time for more looks than can be counted. -/
def Overcounts (p : SlotPlan) (g : Graph) : Prop :=
  ∃ n ∈ g.nodes, maxPolls < n.callLimit p.settings

/-- The limit of an identifier is that of the node that it finds. -/
theorem callLimitOf_of_node? (h : g.node? n.id = some n) :
    p.callLimitOf g n.id = n.callLimit p.settings := by
  rw [callLimitOf, h, Option.map_some, Option.getD_some]

/-- A walk works the device at its node and at the visits that are left. -/
theorem spends_walk (h : s.Replies RunCall.OfStep) (hspaces : p.SpacesLooks nav.graph)
    (hn : n ∈ nav.graph.nodes) (result : ScenarioResult) :
    (p.walk nav n result).Spends s RunCall.acts (p.Overcounts nav.graph)
      (n.callLimit p.settings + nav.dues (p.callLimitOf nav.graph)) := by
  induction nav, n, result using SlotPlan.walk.induct with
  | case1 nav n result ih =>
    have hstep := p.spends_step (X := p.Overcounts nav.graph) h (hspaces n hn)
      (fun hmax => ⟨n, hn, hmax⟩) result
    rw [walk]
    refine Spends.isStopped_bind fun stopped => ?_
    split
    · exact spends_pure _
    · refine hstep.taskBind fun x => ?_
      rcases x with ⟨result', answer | error⟩
      · dsimp only
        split
        · exact spends_pure _
        · next nav' next hnext =>
          have hdues := Navigator.dues_advance hnext (p.callLimitOf nav.graph)
          obtain ⟨rfl, hnode, hmem, -⟩ := Navigator.advance?_eq_some hnext
          have hrest := ih result' answer _ next hnext hspaces hmem
          refine hrest.mono (Nat.le_of_eq ?_)
          rw [← hdues, callLimitOf_of_node? hnode, Nat.add_comm]
          rfl
      · exact spends_pure _

/-- A scenario comes to an end whatever its device replies, however long that takes, and whenever
the stop comes. It works the device at most as often as the limits of its nodes allow, and it has a
result, unless one of its waits has time for more looks than can be counted. -/
theorem run_bounded (h : s.Replies RunCall.OfStep) (hspaces : p.SpacesLooks g)
    (iteration : UInt32) (m : Moment σ) :
    (((p.run g iteration).exchanges s m).countP fun x => x.call.acts) ≤
      ∑ id ∈ (g.nodes.map Node.id).toFinset,
        Navigator.limitOf g p.settings.maxNodeVisits id * p.callLimitOf g id ∧
    (((p.run g iteration).runAlone s m).1.isSome = true ∨ p.Overcounts g) := by
  have hrun : (p.run g iteration).Spends s RunCall.acts (p.Overcounts g)
      (∑ id ∈ (g.nodes.map Node.id).toFinset,
        Navigator.limitOf g p.settings.maxNodeVisits id * p.callLimitOf g id) := by
    rw [run]
    apply Spends.now_bind
    intro started
    dsimp only
    split
    · exact (spends_pure _).free_bind fun _ => Spends.now_bind fun _ => spends_pure _
    · next nav n hstart =>
      obtain ⟨rfl, hn, hkind, hdues⟩ := Navigator.dues_start hstart (p.callLimitOf g)
      have hzero : n.callLimit p.settings = 0 := by
        rw [Node.callLimit, hkind]
        split <;> rfl
      apply Spends.bind_free _ fun _ => Spends.now_bind fun _ => spends_pure _
      have hwalk := spends_walk h hspaces hn (.blank nav.graph iteration (.ofMillis started))
      rw [hzero, Nat.zero_add] at hwalk
      exact hwalk.mono hdues
  obtain ⟨hcount, hnone⟩ := hrun m
  refine ⟨hcount, ?_⟩
  cases hresult : ((p.run g iteration).runAlone s m).1 with
  | none => exact .inr (hnone hresult)
  | some r => exact .inl rfl

end SlotPlan

namespace Sample

/-- A device that shows nothing, and takes some time to do so. -/
def blind : Service RunCall.Reply Unit where
  accept _ _
    | .device (.locate _) => ⟨(), 150, []⟩
    | _ => ⟨(), 0, []⟩
  answer _ _
    | .device .environment => ((), some (.error .stopped))
    | .device .appInfo => ((), some (.ok none))
    | .device (.perform _) => ((), some (.ok .ok))
    | .device (.locate _) => ((), some (.ok .absent))
    | .device .screenshot => ((), some (.ok []))
    | .save _ _ => ((), some (.error .closed))
    | .emit _ => ((), some ())
    | _ => ((), none)

/-- A scenario that waits for a text, and then once more. -/
def watching : Graph where
  id := "g"
  name := ""
  nodes :=
    [⟨"s", .start, none, .empty⟩,
      ⟨"w", .action, none, .ofList [("actionType", .text "waitUntilTextExists"),
        ("text", .text "x"), ("timeout", .int 1000), ("interval", .int 400),
        ("maxVisits", .int 2)]⟩]
  connections := [⟨"s", "w", none⟩, ⟨"w", "w", none⟩]

/-- A plan for the scenario. -/
def watchingPlan : SlotPlan := ⟨.default, true, .forDevice "r" "r" "d"⟩

end Sample

/-- The sample looks three times at each of two visits at most, and ends. -/
theorem SlotPlan.run_bounded_sample :
    Sample.blind.Replies RunCall.OfStep ∧ Sample.watchingPlan.SpacesLooks Sample.watching ∧
      ((Sample.watchingPlan.run Sample.watching 1).exchanges Sample.blind
        (.initial none ())).countP (fun x => x.call.acts) ≤ 6 ∧
      ((Sample.watchingPlan.run Sample.watching 1).runAlone Sample.blind
        (.initial none ())).1.isSome = true := by
  have hreplies : Sample.blind.Replies RunCall.OfStep := by
    intro now state c hc
    cases c with
    | device c => cases c <;> rfl
    | save context artifact => rfl
    | emit e => rfl
    | _ => cases hc
  have hinterval : ∀ n ∈ Sample.watching.nodes,
      1 ≤ (Sample.watchingPlan.settings.pollFor n.options).intervalMs.toNat := by decide +kernel
  have hspaces : Sample.watchingPlan.SpacesLooks Sample.watching :=
    fun n hn _ _ _ => hinterval n hn
  have hlimit : ∑ id ∈ (Sample.watching.nodes.map Node.id).toFinset,
      Navigator.limitOf Sample.watching Sample.watchingPlan.settings.maxNodeVisits id *
        Sample.watchingPlan.callLimitOf Sample.watching id = 6 := by decide +kernel
  have hcounted : ¬ Sample.watchingPlan.Overcounts Sample.watching := by
    have hle : ∀ n ∈ Sample.watching.nodes,
        n.callLimit Sample.watchingPlan.settings ≤ maxPolls := by decide +kernel
    rintro ⟨n, hn, hlt⟩
    exact Nat.not_lt.2 (hle n hn) hlt
  obtain ⟨hcount, hends⟩ := run_bounded hreplies hspaces 1 (.initial none ())
  exact ⟨hreplies, hspaces, hlimit ▸ hcount, hends.resolve_right hcounted⟩

end DeviceSuite
