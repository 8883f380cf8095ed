import DeviceSuite.Graph.Build
import DeviceSuite.Proofs.Codec.Fields
import DeviceSuite.Proofs.Graph.Visits
import DeviceSuite.Proofs.Run.Route

/-!
# The options of a step

A node sets the options of its step under six keys of its parameters. Each key sets something by
itself, or nothing, or is malformed. But the options are read as a whole: where one key is malformed,
none of the others counts, so that a disabled step is run, and a node with visits of its own gets as
many as any other.
-/

namespace DeviceSuite

namespace Node

/-- The number below a bound that a parameter sets. A parameter that is missing or null sets none,
and any other that is no such number is malformed. -/
def number? (n : Node) (key : String) (bound : Nat) : Option (Option Nat) :=
  match n.params.get? key with
  | none | some .null => some none
  | some (.int k) => if 0 ≤ k ∧ k < bound then some (some k.toNat) else none
  | some _ => none

/-- Whether a parameter is set to true. One that is missing is not, and any other that is no truth
value is malformed. -/
def flag? (n : Node) (key : String) : Option Bool :=
  match n.params.get? key with
  | none => some false
  | some (.bool b) => some b
  | some _ => none

/-- None of the options is malformed. -/
def OptionsSound (n : Node) : Prop :=
  (n.number? "retryCount" UInt32.size).isSome ∧ (n.number? "retryDelay" UInt64.size).isSome ∧
    (n.number? "timeout" UInt64.size).isSome ∧ (n.number? "interval" UInt64.size).isSome ∧
    (n.flag? "disabled").isSome ∧ (n.number? "maxVisits" UInt32.size).isSome

instance (n : Node) : Decidable n.OptionsSound := inferInstanceAs (Decidable (_ ∧ _))

/-- The options that a node sets, each key by itself; what is malformed sets nothing. -/
def ownOptions (n : Node) : StepOptions where
  retryCount := (n.number? "retryCount" UInt32.size).join.map .ofNat
  retryDelay := (n.number? "retryDelay" UInt64.size).join.map .ofNat
  timeout := (n.number? "timeout" UInt64.size).join.map .ofNat
  interval := (n.number? "interval" UInt64.size).join.map .ofNat
  disabled := (n.flag? "disabled").getD false
  maxVisits := (n.number? "maxVisits" UInt32.size).join.map .ofNat

variable {n : Node} {key : String} {bound : Nat}

/-- A number that is read is below its bound. -/
theorem number?_lt {k : Nat} (h : n.number? key bound = some (some k)) : k < bound := by
  rw [number?] at h
  split at h
  · cases h
  · cases h
  · split at h
    · next hbounds =>
      cases h
      omega
    · cases h
  · cases h

/-- An optional number is read from a map as it is set there. -/
theorem read?_number {α : Type} {c : Codec α} {name : String} {ofNat : Nat → α} (greatest : Nat)
    (hc : ∀ source d, c.decode source d =
      (Codec.decodeInteger name 0 greatest d).map fun k => ofNat k.toNat)
    (n : Node) (key : String) : (Field.optional key c).read? .memory n.params.entries =
      (n.number? key (greatest + 1)).map (Option.map ofNat) := by
  rw [Field.read?_map rfl, number?]
  cases n.params.get? key with
  | none => rfl
  | some j =>
    cases j with
    | int k =>
      simp only [Document.ofJson, hc, Codec.decodeInteger]
      by_cases hbounds : 0 ≤ k ∧ k ≤ greatest
      · rw [if_pos hbounds, if_pos (by omega)]
        rfl
      · rw [if_neg hbounds, if_neg (by omega)]
        rfl
    | null => rfl
    | _ =>
      simp only [Document.ofJson, hc]
      rfl

/-- A word of 32 bits is read from a number that fits. -/
theorem read?_uint32 (n : Node) (key : String) :
    (Field.optional key .uint32).read? .memory n.params.entries =
      (n.number? key UInt32.size).map (Option.map .ofNat) :=
  read?_number 0xffffffff (fun _ _ => rfl) n key

/-- A word of 64 bits is read from a number that fits. -/
theorem read?_uint64 (n : Node) (key : String) :
    (Field.optional key .uint64).read? .memory n.params.entries =
      (n.number? key UInt64.size).map (Option.map .ofNat) :=
  read?_number 0xffffffffffffffff (fun _ _ => rfl) n key

/-- A truth value that is false when it is absent is read from a map as it is set there. -/
theorem read?_bool (n : Node) (key : String) :
    (Field.defaulted key .bool false).read? .memory n.params.entries = n.flag? key := by
  rw [Field.read?_map rfl, flag?]
  cases n.params.get? key with
  | none => rfl
  | some j => cases j <;> rfl

/-- The options of a node can be read if none of them is malformed. -/
theorem isSome_read?_iff (n : Node) :
    (Row.read? .memory n.params.entries StepOptions.fields).isSome = true ↔ n.OptionsSound := by
  rw [Row.isSome_read?_iff]
  simp [read?_uint32, read?_uint64, read?_bool, OptionsSound]

/-- A node has the options that it sets if it sets them all well, and otherwise none. -/
theorem options_eq (n : Node) : n.options = if n.OptionsSound then n.ownOptions else .none := by
  have hoptions : n.options = (StepOptions.codec.ofJson (.ofMap n.params)).toOption.getD .none := by
    rw [options]
    cases StepOptions.codec.ofJson (.ofMap n.params) <;> rfl
  rw [hoptions, StepOptions.codec, Codec.record_ofMap (by decide)]
  split
  · next hsound =>
    simp only [OptionsSound, Option.isSome_iff_exists] at hsound
    obtain ⟨⟨_, hcount⟩, ⟨_, hdelay⟩, ⟨_, htimeout⟩, ⟨_, hinterval⟩, ⟨_, hdisabled⟩,
      ⟨_, hvisits⟩⟩ := hsound
    simp [Row.read?, read?_uint32, read?_uint64, read?_bool, ownOptions, hcount, hdelay, htimeout,
      hinterval, hdisabled, hvisits]
  · next hunsound =>
    rw [← isSome_read?_iff, Bool.not_eq_true, Option.isSome_eq_false_iff, Option.isNone_iff_eq_none]
      at hunsound
    rw [hunsound]
    rfl

/-- A node without a malformed option has all of its own options. -/
theorem options_of_sound (h : n.OptionsSound) : n.options = n.ownOptions := by
  rw [options_eq, if_pos h]

/-- A node with a malformed option has none. -/
theorem options_of_unsound (h : ¬ n.OptionsSound) : n.options = .none := by
  rw [options_eq, if_neg h]

/-- A step is disabled by a node that sets its options well, and disables it among them. -/
theorem disabled_iff : n.options.disabled = true ↔
    n.OptionsSound ∧ n.flag? "disabled" = some true := by
  by_cases hsound : n.OptionsSound
  · obtain ⟨b, hb⟩ := Option.isSome_iff_exists.1 hsound.2.2.2.2.1
    simp [options_of_sound hsound, ownOptions, hsound, hb]
  · simp [options_of_unsound hsound, StepOptions.none, hsound]

/-- The visits that a node sets for itself, if it sets its options well and these among them. -/
def ownVisits? (n : Node) : Option Nat :=
  if n.OptionsSound then (n.number? "maxVisits" UInt32.size).join else none

/-- The visits that the options of a node set are those that it sets well. -/
theorem toNat_maxVisits (n : Node) : n.options.maxVisits.map UInt32.toNat = n.ownVisits? := by
  rw [ownVisits?]
  split
  · next hsound =>
    rw [options_of_sound hsound, ownOptions]
    cases hvisits : (n.number? "maxVisits" UInt32.size).join with
    | none => rfl
    | some k =>
      have hlt := number?_lt (Option.join_eq_some_iff.1 hvisits)
      exact congrArg some (Nat.mod_eq_of_lt hlt)
  · next hunsound =>
    rw [options_of_unsound hunsound]
    rfl

/-- A node may be visited as often as it sets well, or as often as any other. -/
theorem visitLimit_eq (nav : Navigator) (n : Node) :
    nav.visitLimit n = max 1 (n.ownVisits?.getD nav.visitsPerNode) := by
  rw [Navigator.visitLimit, toNat_maxVisits]

/-- The step of an inner node leaves the record of a skipped step if the node is disabled, and only
then. -/
theorem Leaves.skipped_iff {steps : List StepResult} {flow : Flow} (h : n.Leaves steps flow)
    (hinner : n.IsInner) :
    (∃ step ∈ steps, step.status = .skipped) ↔ n.options.disabled = true := by
  have hcount := h.countP_skipped
  have hpos : (∃ step ∈ steps, step.status = .skipped) ↔
      0 < steps.countP fun step => step.status = .skipped := by
    simp [List.countP_pos_iff]
  rw [hpos, hcount]
  by_cases hdisabled : n.options.disabled = true <;> simp [hinner, hdisabled]

/-- The options of a node are those that it sets, each key by itself, if none of the six is
malformed, and otherwise none at all. So they are what the keys set by themselves if all are well
set, or if what is well set says no more than nothing. The step of a node is skipped if its options
are well set and disable it, and only then. A walk may enter the node as often as it sets for
itself, if its options are well set, and else as often as any other node. -/
theorem options_all_or_nothing (n : Node) :
    n.options = (if n.OptionsSound then n.ownOptions else .none) ∧
      (n.options = n.ownOptions ↔ n.OptionsSound ∨ n.ownOptions = .none) ∧
      (∀ (p : SlotPlan) result told x, n.IsInner → (p.step n result).Yields told (some x) →
        ((∃ step ∈ (eventsOf told).filterMap Event.step?, step.status = .skipped) ↔
          n.OptionsSound ∧ n.flag? "disabled" = some true)) ∧
      ∀ g maxNodeVisits, g.node? n.id = some n →
        Navigator.limitOf g maxNodeVisits n.id =
          max 1 (n.ownVisits?.getD (max 1 maxNodeVisits.toNat)) ∧
        ∀ outcomes nav nodes, Navigator.Walk g maxNodeVisits outcomes nav nodes →
          (nodes.map Node.id).count n.id ≤ Navigator.limitOf g maxNodeVisits n.id := by
  refine ⟨n.options_eq, ?_, fun p result told x hinner h => ?_, fun g m hn => ⟨?_, ?_⟩⟩
  · by_cases hsound : n.OptionsSound
    · simp [options_of_sound hsound, hsound]
    · simp only [options_of_unsound hsound, hsound, false_or]
      exact eq_comm
  · have hleaves := ((SlotPlan.returns_step p n result).of_yields h).leaves
    rw [hleaves.skipped_iff hinner, disabled_iff]
  · rw [Navigator.limitOf_of_node? hn, visitLimit_eq, Navigator.new]
  · exact fun outcomes nav nodes h => h.within.count_le n.id

end Node

namespace Sample

/-- A disabled action that may be visited once, and is tried so many times. -/
def idle (retryCount : Json) : Node :=
  .ofParams "t" .action (.object [("actionType", .text "tap"), ("x", .int 1), ("y", .int 2),
    ("disabled", .bool true), ("maxVisits", .int 1), ("retryCount", retryCount)])

/-- A graph that leads to the action, and from there to it again. -/
def idling (retryCount : Json) : Graph :=
  (((Graph.blank "idling").addNode (idle retryCount)).connect "start" "t").connect "t" "t"

/-- A plan in which each node may be visited twice that does not say otherwise. -/
def idlingPlan : SlotPlan :=
  ⟨{ Settings.default with maxNodeVisits := 2 }, false, .forDevice "r" "r" "d"⟩

/-- The result of the slot before the step of the action. -/
def idlingStart : ScenarioResult := .blank (idling (.int 2)) 1 (.ofMillis 0)

end Sample

namespace Node

open Sample

/-- The action sets its options well with a number of tries, and its step is skipped; with a word in
place of the number, it sets none. -/
theorem options_all_or_nothing_idle :
    (idle (.int 2)).options = ⟨some 2, none, none, none, true, some 1⟩ ∧
      (idle (.text "many")).options = .none ∧
      ∃ told x, (idlingPlan.step (idle (.int 2)) idlingStart).Yields told (some x) ∧
        ∃ step ∈ (eventsOf told).filterMap Event.step?, step.status = .skipped := by
  obtain ⟨hoptions, -, hskipped, -⟩ := options_all_or_nothing (idle (.int 2))
  obtain ⟨hspoiled, -⟩ := options_all_or_nothing (idle (.text "many"))
  have hsound : (idle (.int 2)).OptionsSound := by decide +kernel
  have hunsound : ¬ (idle (.text "many")).OptionsSound := by decide +kernel
  rw [if_pos hsound] at hoptions
  rw [if_neg hunsound] at hspoiled
  obtain ⟨told, hyields⟩ := Task.runAlone_yields Sample.glimpse
    (idlingPlan.step (idle (.int 2)) idlingStart) (.initial none 0)
  have hends : ((idlingPlan.step (idle (.int 2)) idlingStart).runAlone Sample.glimpse
      (.initial none 0)).1.isSome = true := by decide +kernel
  obtain ⟨x, hx⟩ := Option.isSome_iff_exists.1 hends
  rw [hx] at hyields
  exact ⟨hoptions.trans (by decide +kernel), hspoiled, told, x, hyields,
    (hskipped _ _ told x (by decide) hyields).2 ⟨hsound, by decide +kernel⟩⟩

/-- With a word for a number of tries, the action is disabled and may be visited once by its own
parameters, but is run twice. -/
theorem malformed_option_spoils_others :
    (idle (.text "many")).flag? "disabled" = some true ∧
      (idle (.text "many")).options.disabled = false ∧
      (idle (.text "many")).number? "maxVisits" UInt32.size = some (some 1) ∧
      (idle (.text "many")).options.maxVisits = none ∧
      ∃ told r, (idlingPlan.run (idling (.text "many")) 1).Yields told (some r) ∧
        r.stepResults.map StepResult.status = [.passed, .passed] := by
  obtain ⟨told, hyields⟩ := Task.runAlone_yields Sample.glimpse
    (idlingPlan.run (idling (.text "many")) 1) (.initial none 0)
  have hends : ((idlingPlan.run (idling (.text "many")) 1).runAlone Sample.glimpse
      (.initial none 0)).1.map (fun r => r.stepResults.map StepResult.status) =
      some [.passed, .passed] := by decide +kernel
  obtain ⟨r, hr, hstatuses⟩ := Option.map_eq_some_iff.1 hends
  rw [hr] at hyields
  exact ⟨by decide +kernel, by decide +kernel, by decide +kernel, by decide +kernel, told, r,
    hyields, hstatuses⟩

end Node

end DeviceSuite
