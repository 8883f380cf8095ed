import DeviceSuite.Artifact
import DeviceSuite.Event
import DeviceSuite.Proofs.Codec.Input

/-!
# What is told of a run

Results, reports, events and artifacts are written for others and read back by them, except what
cannot be written: a number that is not finite, an instant whose text is read as another one, and a
free-form object that does not list its keys in order, as maps do.
-/

namespace DeviceSuite

instance : Form Performance.codec := .record (by decide) fun _ => rfl

instance : Performance.codec.RejectsNull := ⟨nofun⟩

instance : Form Outcome.codec := .record (by decide) fun _ => rfl

instance : Form StepStatus.codec := .choice fun v => by cases v <;> rfl

instance : Form StepResult.codec := .record (by decide) fun _ => rfl

instance : Form ScenarioStatus.codec := .choice fun v => by cases v <;> rfl

instance : Form ScenarioResult.codec := .record (by decide) fun _ => rfl

instance : Form DeviceStats.codec := .record (by decide) fun _ => rfl

instance : Form Environment.codec := .record (by decide) fun _ => rfl

instance : Environment.codec.RejectsNull := ⟨nofun⟩

instance : Form AppInfo.codec := .record (by decide) fun _ => rfl

instance : AppInfo.codec.RejectsNull := ⟨nofun⟩

instance : Form DeviceResult.codec := .record (by decide) fun _ => rfl

instance : Form SuiteStats.codec := .record (by decide) fun _ => rfl

instance : Form RunStatus.codec := .choice fun v => by cases v <;> rfl

instance : Form SuiteResult.codec := .record (by decide) fun _ => rfl

instance : Form DeviceStatus.codec := .choice fun v => by cases v <;> rfl

instance : Form DeviceProgress.codec := .record (by decide) fun _ => rfl

instance : Form RunSnapshot.codec := .record (by decide) fun _ => rfl

instance : Form ProgressCounter.codec := .record (by decide) fun _ => rfl

instance : Form Context.codec := .record (by decide) fun _ => rfl

instance : Form ArtifactKind.codec := .choice fun | .failureScreenshot => rfl

instance : Form SavedArtifact.codec := .record (by decide) fun _ => rfl

instance : Form VideoOutcome.codec := .record (by decide) fun _ => rfl

namespace Event

set_option synthInstance.maxSize 400 in
instance forms : VariantForms variants := by
  delta variants variant
  infer_instance

/-- Every kind of event is written so that it can be read back. -/
theorem lawful : ∀ v ∈ variants, v.Lawful topic := by
  simp only [variants, List.forall_mem_cons, List.not_mem_nil, false_implies, implies_true,
    and_true]
  and_intros
  all_goals
    refine .of_build (fun _ => rfl) (fun _ => rfl) fun a row h => ?_
    simp only [variant] at h
    split at h
    · cases h
      rfl
    · cases h

/-- Events are told apart by their topics. -/
theorem union : Union "topic" variants topic where
  nodup := by decide
  cover e := by cases e <;> rfl
  lawful := lawful
  distinct := by decide
  foreign := by decide

instance : Form codec := .tagged union

/-- The topic of an event stands in the place of its variant. -/
theorem topic_of_ctorIdx (e : Event) : (variants.map Variant.tag)[e.ctorIdx]? = some e.topic := by
  cases e <;> rfl

/-- Every variant has its own topic. -/
theorem topic_eq_iff {e e' : Event} : e.topic = e'.topic ↔ e.ctorIdx = e'.ctorIdx := by
  have he := topic_of_ctorIdx e
  have he' := topic_of_ctorIdx e'
  constructor
  · intro heq
    have hlt := (List.getElem?_eq_some_iff.1 he).1
    exact (List.getElem?_inj hlt union.nodup).1 (by rw [he, he', heq])
  · intro heq
    rw [heq] at he
    exact Option.some.inj (he.symm.trans he')

end Event

/-- The types that are written for others to read. -/
def outputTypes : List WireType :=
  [⟨StepResult, StepResult.codec, inferInstance⟩,
    ⟨ScenarioResult, ScenarioResult.codec, inferInstance⟩,
    ⟨DeviceResult, DeviceResult.codec, inferInstance⟩,
    ⟨SuiteResult, SuiteResult.codec, inferInstance⟩, ⟨Event, Event.codec, inferInstance⟩,
    ⟨RunSnapshot, RunSnapshot.codec, inferInstance⟩,
    ⟨DeviceProgress, DeviceProgress.codec, inferInstance⟩,
    ⟨Outcome, Outcome.codec, inferInstance⟩, ⟨Performance, Performance.codec, inferInstance⟩,
    ⟨Environment, Environment.codec, inferInstance⟩, ⟨AppInfo, AppInfo.codec, inferInstance⟩,
    ⟨Context, Context.codec, inferInstance⟩, ⟨SavedArtifact, SavedArtifact.codec, inferInstance⟩,
    ⟨VideoOutcome, VideoOutcome.codec, inferInstance⟩]

/-- What is written for a value is read back as the value, if its numbers are finite and the texts
of its instants are read as these instants. An event is written with its topic, and is read, if it
is read at all, as an event of the same variant, so different variants are never confused. -/
theorem output_reads_back :
    (∀ T ∈ outputTypes, ∀ v : T.Value, Form.Writable T.codec v →
      T.codec.ofJson (T.codec.encode v) = .ok v) ∧
    (∀ e : Event, (Event.codec.encode e).get? "topic" = some (.text e.topic)) ∧
    ∀ e e' d d' : Event, e.ctorIdx ≠ e'.ctorIdx →
      Event.codec.ofJson (Event.codec.encode e) = .ok d →
      Event.codec.ofJson (Event.codec.encode e') = .ok d' → d.ctorIdx ≠ d'.ctorIdx := by
  refine ⟨fun T _ v h => Form.read_write h, Event.union.get?_encode, ?_⟩
  intro e e' d d' hne hd hd' heq
  have hsame : e.topic = e'.topic := by
    rw [← Event.union.tagOf_of_decode hd, ← Event.union.tagOf_of_decode hd']
    exact Event.topic_eq_iff.2 heq
  exact hne (Event.topic_eq_iff.1 hsame)

/-- The report of a step that has found an image is read back. -/
theorem output_reads_back_step :
    let step : StepResult := ⟨"n", "look", "waitUntilImage", .passed, 1500, none,
      ⟨1700000000, 250000000⟩, some ⟨1500, some 1000, some 2, some ⟨0x3FF0000000000000⟩⟩⟩
    let event := Event.stepComplete "r" "d" "s" step
    Form.Writable Event.codec event ∧
      Event.codec.ofJson (Event.codec.encode event) = .ok event := by
  intro step event
  have hinstant : Instant.ofString step.timestamp.text = .ok step.timestamp := by decide +kernel
  have hconfidence : Double.isFinite ⟨0x3FF0000000000000⟩ = true := by decide
  have hperformance : ∀ p ∈ step.performance, Form.Writable Performance.codec p := by
    rintro p ⟨⟩
    refine ⟨trivial, fun _ _ => trivial, fun _ _ => trivial, ?_, trivial⟩
    rintro x ⟨⟩
    exact hconfidence
  have hstep : Form.Writable StepResult.codec step :=
    ⟨trivial, trivial, trivial, trivial, trivial, nofun, hinstant, hperformance, trivial⟩
  have hwritable : Form.Writable Event.codec event := by
    refine ⟨nofun, nofun, nofun, nofun, nofun, nofun, nofun, nofun, ?_, nofun, nofun, trivial⟩
    rintro row ⟨⟩
    exact ⟨trivial, trivial, trivial, hstep, trivial⟩
  have hmem : (⟨Event, Event.codec, inferInstance⟩ : WireType) ∈ outputTypes :=
    List.mem_of_getElem? (i := 4) rfl
  exact ⟨hwritable, output_reads_back.1 _ hmem event hwritable⟩

end DeviceSuite
