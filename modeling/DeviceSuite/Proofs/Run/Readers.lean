import DeviceSuite.Proofs.Codec.Actions
import DeviceSuite.Proofs.Run.Options

/-!
# The readers of a node's parameters

The parameters of a node are read three times: for its action, for its condition and for the options
of its step. The options have keys of their own, and each reader skips the keys of the others
whatever they hold, even where that is malformed. So what one of them reads, or reports, is the same
for all nodes that agree in its own keys.
-/

namespace DeviceSuite

/-- No field of an action is one of the options. -/
theorem Action.options_foreign : ∀ v ∈ Action.variants, ∀ key ∈ StepOptions.names,
    Field.Foreign v.fields key := by decide

/-- No field of a condition is one of the options. -/
theorem Condition.options_foreign : ∀ v ∈ Condition.variants, ∀ key ∈ StepOptions.names,
    Field.Foreign v.fields key := by decide

/-- A union without fields among the options of a step is read from a map as if these did not stand
there. -/
theorem Union.ofMap_congr_options {α : Type} {name tag : String} {variants : List (Variant α)}
    {tagOf : α → String} (U : Union tag variants tagOf) (htag : tag ∉ StepOptions.names)
    (hforeign : ∀ v ∈ variants, ∀ key ∈ StepOptions.names, Field.Foreign v.fields key)
    {m m' : TextMap Json} (h : ∀ key ∉ StepOptions.names, m.get? key = m'.get? key) :
    (Codec.tagged name tag variants).ofJson (.ofMap m) =
      (Codec.tagged name tag variants).ofJson (.ofMap m') := by
  refine U.ofMap_congr (p := fun key => decide (key ∉ StepOptions.names)) (by simpa using htag)
    (fun v hv key hkey => hforeign v hv key (by simpa using hkey)) fun key hkey => ?_
  exact h key (by simpa using hkey)

namespace Node

variable {n n' : Node}

/-- The action of a node is read from the keys that are no options. -/
theorem action_congr (hkind : n.kind = n'.kind)
    (h : ∀ key ∉ StepOptions.names, n.params.get? key = n'.params.get? key) :
    n.action = n'.action := by
  have htype : n.actionType = n'.actionType := by
    rw [actionType, actionType, h "actionType" (by decide)]
  have hread : Action.codec.ofJson (.ofMap n.params) = Action.codec.ofJson (.ofMap n'.params) :=
    Action.union.ofMap_congr_options (by decide) Action.options_foreign h
  simp only [action, stepType, namedAction, hkind, htype, hread]

/-- The condition of a node is read from the keys that are no options. -/
theorem condition_congr (h : ∀ key ∉ StepOptions.names, n.params.get? key = n'.params.get? key) :
    n.condition = n'.condition := by
  have hread : Condition.codec.ofJson (.ofMap n.params) =
      Condition.codec.ofJson (.ofMap n'.params) :=
    Condition.union.ofMap_congr_options (by decide) Condition.options_foreign h
  rw [condition, condition, hread]

/-- The options of a node are read from the six keys alone. -/
theorem options_congr (h : ∀ key ∈ StepOptions.names, n.params.get? key = n'.params.get? key) :
    n.options = n'.options := by
  have hread : StepOptions.codec.ofJson (.ofMap n.params) =
      StepOptions.codec.ofJson (.ofMap n'.params) := by
    refine Codec.record_ofMap_congr (p := fun key => decide (key ∈ StepOptions.names))
      (fun key hkey => ?_) fun key hkey => h key (by simpa using hkey)
    simpa [Field.Foreign, Field.answersTo, StepOptions.names] using hkey
  rw [options, options, hread]

/-- Nodes of one kind whose parameters agree on all keys but the six options of a step give the same
action, or the same error, and so they do for their conditions. Nodes whose parameters agree on the
six options have the same options, whatever else their parameters hold, and so the same policies
under all settings and the same limit of visits in every walk. -/
theorem readers_apart (hkind : n.kind = n'.kind) :
    ((∀ key ∉ StepOptions.names, n.params.get? key = n'.params.get? key) →
      n.action = n'.action ∧ n.condition = n'.condition) ∧
      ((∀ key ∈ StepOptions.names, n.params.get? key = n'.params.get? key) →
        n.options = n'.options ∧
          (∀ settings : Settings, settings.retryFor n.options = settings.retryFor n'.options ∧
            settings.pollFor n.options = settings.pollFor n'.options) ∧
          ∀ nav : Navigator, nav.visitLimit n = nav.visitLimit n') := by
  refine ⟨fun h => ⟨action_congr hkind h, condition_congr h⟩, fun h => ?_⟩
  have hoptions := options_congr h
  refine ⟨hoptions, fun settings => ?_, fun nav => ?_⟩
  · rw [hoptions]
    exact ⟨rfl, rfl⟩
  · rw [Navigator.visitLimit, hoptions, Navigator.visitLimit]

end Node

namespace Sample

/-- A wait without a duration, with the options of the idle tap. -/
def idleWait : Node :=
  .ofParams "w" .action (.object [("actionType", .text "wait"), ("disabled", .bool true),
    ("maxVisits", .int 1), ("retryCount", .int 2)])

end Sample

namespace Node

open Sample

/-- The idle tap is the same action with a malformed option as with a well-set one; and a wait whose
duration is missing has the options of the tap if it sets the same. -/
theorem readers_apart_idle :
    (idle (.int 2)).action = (idle (.text "many")).action ∧
      (idle (.int 2)).options = idleWait.options := by
  have hparams : ∀ key ∉ StepOptions.names,
      (idle (.int 2)).params.get? key = (idle (.text "many")).params.get? key := fun key hkey => by
    have hne : key ≠ "retryCount" := fun heq => hkey (heq ▸ List.mem_cons_self)
    simp [idle, ofParams, TextMap.ofList, TextMap.get?_insert, hne]
  have hoptions : ∀ key ∈ StepOptions.names,
      (idle (.int 2)).params.get? key = idleWait.params.get? key := by
    simp [StepOptions.names, idle, idleWait, ofParams, TextMap.ofList, TextMap.get?_insert]
  have hidle : (idle (.int 2)).kind = (idle (.text "many")).kind := rfl
  have hwait : (idle (.int 2)).kind = idleWait.kind := rfl
  exact ⟨((readers_apart hidle).1 hparams).1, ((readers_apart hwait).2 hoptions).1⟩

end Node

end DeviceSuite
