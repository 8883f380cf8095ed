import DeviceSuite.Condition
import DeviceSuite.Request
import DeviceSuite.Settings
import DeviceSuite.Proofs.Codec.Tagged

/-!
# What is read of input

Graphs, actions, conditions, suites, requests and settings are read from what others write. Whatever
is read of them can be written, and is read back from all that spells it.
-/

namespace DeviceSuite

instance : Form SelectorStrategy.codec := .choice fun v => by cases v <;> rfl

instance : SelectorStrategy.codec.Retains := ⟨fun _ _ => trivial⟩

instance {s : SelectorStrategy} : SelectorStrategy.codec.Writes s := ⟨trivial⟩

instance : Form Selector.codec := .record (by decide) fun _ => rfl

instance : Selector.codec.Retains := .record fun _ h => h

instance : Selector.codec.RejectsNull := ⟨nofun⟩

instance : Form ImageTemplate.codec := .record (by decide) fun _ => rfl

instance : ImageTemplate.codec.Retains := .record fun _ h => h

instance : Form StepOptions.codec := .record (by decide) fun _ => rfl

instance : StepOptions.codec.Retains := .record fun _ h => h

instance : Form NodeKind.codec := .choice fun v => by cases v <;> rfl

instance : NodeKind.codec.Retains := ⟨fun _ _ => trivial⟩

instance : Form Node.codec := .record (by decide) fun _ => rfl

instance : Node.codec.Retains := .record fun _ h => h

instance : Form Connection.codec := .record (by decide) fun _ => rfl

instance : Connection.codec.Retains := .record fun _ h => h

instance : Form Graph.codec := .record (by decide) fun _ => rfl

instance : Graph.codec.Retains := .record fun _ h => h

namespace Action

set_option synthInstance.maxSize 400 in
instance forms : VariantForms variants := by
  delta variants variant
  infer_instance

set_option synthInstance.maxSize 400 in
instance : forms.Retains := by
  delta forms variants variant
  dsimp only [id, inferInstance]
  infer_instance

/-- Every kind of action is written so that it can be read back. -/
theorem lawful : ∀ v ∈ variants, v.Lawful fun a => a.kind.name := by
  simp only [variants, List.forall_mem_cons, List.not_mem_nil, false_implies, implies_true,
    and_true]
  and_intros
  all_goals
    refine .of_build (fun _ => rfl) (fun _ => rfl) fun a row h => ?_
    simp only [variant] at h
    split at h
    · cases h
      rfl
    · cases h

/-- Actions are told apart by the names of their kinds. -/
theorem union : Union "actionType" variants fun a => a.kind.name where
  nodup := by decide
  cover a := by
    cases a with
    | perform command => cases command <;> rfl
    | pause => rfl
    | await target present => cases target <;> cases present <;> rfl
  lawful := lawful
  distinct := by decide
  foreign := by decide

instance : Form codec := .tagged union

instance : codec.Retains := .tagged union fun _ h => h

end Action

namespace Condition

instance forms : VariantForms variants := by
  delta variants variant
  infer_instance

instance : forms.Retains := by
  delta forms variants variant
  dsimp only [id, inferInstance]
  infer_instance

/-- The tag of a condition: what is looked for, and whether it should be there. -/
def tag : Condition → String
  | ⟨.element _, true⟩ => "elementExists"
  | ⟨.element _, false⟩ => "elementNotExists"
  | ⟨.text _, true⟩ => "textExists"
  | ⟨.text _, false⟩ => "textNotExists"
  | ⟨.image _, true⟩ => "imageExists"
  | ⟨.image _, false⟩ => "imageNotExists"

/-- Every type of condition is written so that it can be read back. -/
theorem lawful : ∀ v ∈ variants, v.Lawful tag := by
  simp only [variants, List.forall_mem_cons, List.not_mem_nil, false_implies, implies_true,
    and_true]
  and_intros
  all_goals
    refine .of_build (fun _ => rfl) (fun _ => rfl) fun a row h => ?_
    simp only [variant] at h
    split at h
    · cases h
      rfl
    · cases h

/-- Conditions are told apart by their tags. -/
theorem union : Union "conditionType" variants tag where
  nodup := by decide
  cover
    | ⟨target, present⟩ => by cases target <;> cases present <;> rfl
  lawful := lawful
  distinct := by decide
  foreign := by decide

instance : Form codec := .tagged union

instance : codec.Retains := .tagged union fun _ h => h

end Condition

instance : Form Priority.codec := .choice fun v => by cases v <;> rfl

instance : Priority.codec.Retains := ⟨fun _ _ => trivial⟩

instance {p : Priority} : Priority.codec.Writes p := ⟨trivial⟩

instance : Form SuiteOptions.codec := .record (by decide) fun _ => rfl

instance : SuiteOptions.codec.Retains := .record fun _ h => h

instance {o : SuiteOptions} : SuiteOptions.codec.Writes o := ⟨trivial, trivial, trivial, trivial⟩

instance : Form Suite.codec := .record (by decide) fun _ => rfl

instance : Suite.codec.Retains := .record fun _ h => h

instance : Form Request.codec := .record (by decide) fun _ => rfl

instance : Request.codec.Retains := .record fun _ h => h

instance : Form RetryPolicy.codec := .record (by decide) fun _ => rfl

instance : RetryPolicy.codec.Retains := .record fun _ h => h

instance {p : RetryPolicy} : RetryPolicy.codec.Writes p := ⟨trivial, trivial, trivial⟩

instance : Form PollPolicy.codec := .record (by decide) fun _ => rfl

instance : PollPolicy.codec.Retains := .record fun _ h => h

instance {p : PollPolicy} : PollPolicy.codec.Writes p := ⟨trivial, trivial, trivial⟩

instance : Form Settings.codec := .record (by decide) fun _ => rfl

instance : Settings.codec.Retains := .record fun _ h => h

/-- The types that input is made of. -/
def inputTypes : List WireType :=
  [⟨Graph, Graph.codec, inferInstance⟩, ⟨Node, Node.codec, inferInstance⟩,
    ⟨Connection, Connection.codec, inferInstance⟩, ⟨Action, Action.codec, inferInstance⟩,
    ⟨Condition, Condition.codec, inferInstance⟩, ⟨Selector, Selector.codec, inferInstance⟩,
    ⟨ImageTemplate, ImageTemplate.codec, inferInstance⟩,
    ⟨StepOptions, StepOptions.codec, inferInstance⟩, ⟨Suite, Suite.codec, inferInstance⟩,
    ⟨SuiteOptions, SuiteOptions.codec, inferInstance⟩, ⟨Request, Request.codec, inferInstance⟩,
    ⟨RetryPolicy, RetryPolicy.codec, inferInstance⟩, ⟨PollPolicy, PollPolicy.codec, inferInstance⟩,
    ⟨Settings, Settings.codec, inferInstance⟩]

/-- Every type that is read as input retains what was written. -/
theorem retains_of_mem_inputTypes : ∀ T ∈ inputTypes, T.codec.Retains := by
  simp only [inputTypes, List.forall_mem_cons, List.not_mem_nil, false_implies, implies_true,
    and_true]
  and_intros <;> infer_instance

/-- What is read of input is read back from what is written for it, and still is after any number of
edits of that: in every record of the value, keys may be dropped whose fields have the values that
they have by default, keys may be added that name no field, and keys may be replaced by others that
name the same fields, as the connections of a graph have two. -/
theorem input_reads_back {T : WireType} (hT : T ∈ inputTypes) {j : Json} {v : T.Value}
    (hj : j.Fits) (h : T.codec.ofJson j = .ok v) :
    T.codec.ofJson (T.codec.encode v) = .ok v ∧
      ∀ j', Relation.ReflTransGen (Form.Edit T.codec v) (T.codec.encode v) j' →
        T.codec.ofJson j' = .ok v := by
  have hwritable := (retains_of_mem_inputTypes T hT).writable hj h
  exact ⟨Form.read_write hwritable, fun j' hedits => Form.read_edited hwritable hedits⟩

/-- A graph of one node is read back from an object that names its connections otherwise, says
nothing of its name and has a key of its own, and whose node says nothing of its parameters. -/
theorem input_reads_back_graph :
    let node := Json.object [("type", .text "start"), ("id", .text "a")]
    let given := Json.object [("nodes", .list [node]), ("id", .text "g")]
    let edited := Json.object [("id", .text "g"), ("zoom", .int 2),
      ("nodes", .list [.object [("id", .text "a"), ("type", .text "start")]]), ("edges", .list [])]
    let graph : Graph := ⟨"g", "", [⟨"a", .start, none, .empty⟩], []⟩
    given.Fits ∧ Graph.codec.ofJson given = .ok graph ∧ Graph.codec.ofJson edited = .ok graph := by
  intro node given edited graph
  have hfits : given.Fits := by
    simp [given, node, Json.Fits, Document.ofJson, Document.ofItems, Document.ofEntries,
      Document.Fits, Document.FitsItems, Document.FitsEntries]
  have hgiven : Graph.codec.ofJson given = .ok graph := by rfl
  have hmem : (⟨Graph, Graph.codec, inferInstance⟩ : WireType) ∈ inputTypes := List.mem_cons_self
  have hparams : Row.Spare Node.fields ("a", .start, none, .empty, ()) "params" := by
    simp [Row.Spare, Field.answersTo]
  have hname : Row.Spare Graph.fields (graph.id, graph.name, graph.nodes, graph.connections, ())
      "name" := by
    simp [Row.Spare, Field.answersTo, graph]
  have hedges : ∀ f ∈ Graph.fields, f.answersTo "edges" = f.answersTo "connections" := by decide
  have hzoom : Field.Foreign Graph.fields "zoom" := by decide
  have hedits : Relation.ReflTransGen (Form.Edit Graph.codec graph) (Graph.codec.encode graph)
      edited :=
    .tail (.tail (.tail (.single
      ⟨_, _, rfl, rfl, .inside [("id", .text "g"), ("name", .text "")] [("connections", .list [])]
        "nodes" _ _ (.inr (.inr (.inl ⟨rfl, _, 0, _, _, _, rfl, rfl, rfl, rfl,
          ⟨_, _, rfl, rfl, .drop _ "params" hparams⟩⟩)))⟩)
      ⟨_, _, rfl, rfl, .drop _ "name" hname⟩)
      ⟨_, _, rfl, rfl, .rename [("id", .text "g"), ("nodes", _)] [] "connections" "edges" _ hedges⟩)
      ⟨_, _, rfl, rfl, .add [("id", .text "g")] _ ("zoom", .int 2) hzoom⟩
  exact ⟨hfits, hgiven, (input_reads_back hmem hfits hgiven).2 edited hedits⟩

end DeviceSuite
