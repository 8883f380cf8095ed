import DeviceSuite.Proofs.Instant
import DeviceSuite.Proofs.Run.Pictures
import DeviceSuite.Proofs.Run.Steps
import DeviceSuite.Store

/-!
# Pictures and their places

A picture of a failure is put at a place that is made of its device, its scenario, its node and the
millisecond in which it was taken, but not of the repeat. A tour saves nothing but such pictures,
and the places that its results record are those that it was told when it saved pictures of the same
slot.
-/

namespace DeviceSuite

section Separators

variable {α : Type} {a : α} {front front' rest rest' : List α}

/-- What stands before the first separator and behind it. -/
theorem append_cons_inj_first (h : a ∉ front) (h' : a ∉ front')
    (heq : front ++ a :: rest = front' ++ a :: rest') : front = front' ∧ rest = rest' := by
  rcases List.append_eq_append_iff.1 heq with ⟨mid, hfront, hrest⟩ | ⟨mid, hfront, hrest⟩
  · cases mid with
    | nil => exact ⟨by rw [hfront, List.append_nil], (List.cons.inj hrest).2⟩
    | cons b mid =>
      obtain ⟨rfl, -⟩ := List.cons.inj hrest
      exact absurd (hfront ▸ List.mem_append_right _ List.mem_cons_self) h'
  · cases mid with
    | nil => exact ⟨by rw [hfront, List.append_nil], (List.cons.inj hrest).2.symm⟩
    | cons b mid =>
      obtain ⟨rfl, -⟩ := List.cons.inj hrest
      exact absurd (hfront ▸ List.mem_append_right _ List.mem_cons_self) h

/-- What stands before the last separator and behind it. -/
theorem append_cons_inj_last (h : a ∉ rest) (h' : a ∉ rest')
    (heq : front ++ a :: rest = front' ++ a :: rest') : front = front' ∧ rest = rest' := by
  have hreverse : rest.reverse ++ a :: front.reverse = rest'.reverse ++ a :: front'.reverse := by
    simpa using congrArg List.reverse heq
  obtain ⟨hrest, hfront⟩ := append_cons_inj_first (by simpa using h) (by simpa using h') hreverse
  exact ⟨List.reverse_injective hfront, List.reverse_injective hrest⟩

end Separators

/-- A picture of a failure: at which device, in which scenario and repeat, at which node, and in
which millisecond. -/
structure Capture where
  deviceId : String
  scenarioId : String
  iteration : UInt32
  nodeId : String
  ms : Nat
  deriving DecidableEq

namespace Capture

/-- The context of the slot that is pictured. -/
def context (x : Capture) (runId : String) : Context :=
  (Context.forDevice runId runId x.deviceId).forScenario x.scenarioId x.iteration

/-- The name of the file. -/
def fileName (x : Capture) : String :=
  x.deviceId ++ "_" ++ x.scenarioId ++ "_" ++ x.nodeId ++ "_" ++ (Instant.ofMillis x.ms).stamp ++
    ".png"

/-- The place of the file. -/
def path (x : Capture) (runId : String) : String := ArtifactSink.path (x.context runId) x.fileName

/-- The path of a picture, in full. -/
theorem path_eq (x : Capture) (runId : String) : x.path runId =
    runId ++ "/" ++ x.deviceId ++ "/" ++ (x.deviceId ++ "_" ++ x.scenarioId ++ "_" ++ x.nodeId ++
      "_" ++ (Instant.ofMillis x.ms).stamp ++ ".png") := by
  rw [path, ArtifactSink.path, fileName, context, Context.forScenario, Context.forDevice]

/-- The letters of a path, arranged about the last of its separators. -/
theorem toList_joined (run device scenario node stamp ending : String) :
    (run ++ "/" ++ device ++ "/" ++ (device ++ "_" ++ scenario ++ "_" ++ node ++ "_" ++ stamp ++
      ending)).toList =
      run.toList ++ '/' :: ((device.toList ++ '/' :: (device.toList ++ '_' ::
        (scenario.toList ++ '_' :: node.toList))) ++ '_' :: (stamp.toList ++ ending.toList)) := by
  simp

/-- The letters of a place, up to the last underscore and behind it. -/
theorem toList_path (x : Capture) (runId : String) : (x.path runId).toList =
    runId.toList ++ '/' :: ((x.deviceId.toList ++ '/' :: (x.deviceId.toList ++ '_' ::
      (x.scenarioId.toList ++ '_' :: x.nodeId.toList))) ++
        '_' :: ((Instant.ofMillis x.ms).stamp.toList ++ ".png".toList)) := by
  rw [path_eq, toList_joined]

variable {x y : Capture} {runId : String}

/-- Whatever the names are, a place tells the millisecond, and the names one behind the other. -/
theorem split_path (h : x.path runId = y.path runId) : x.ms = y.ms ∧
    x.deviceId.toList ++ '/' :: (x.deviceId.toList ++ '_' ::
      (x.scenarioId.toList ++ '_' :: x.nodeId.toList)) =
    y.deviceId.toList ++ '/' :: (y.deviceId.toList ++ '_' ::
      (y.scenarioId.toList ++ '_' :: y.nodeId.toList)) := by
  have hlists := congrArg String.toList h
  rw [toList_path, toList_path, List.append_cancel_left_eq, List.cons.injEq] at hlists
  have hmark (ms : Nat) : '_' ∉ (Instant.ofMillis ms).stamp.toList ++ ".png".toList := by
    rw [List.mem_append, not_or]
    exact ⟨Instant.underscore_notMem_stamp ms, by decide⟩
  obtain ⟨hnames, hstamps⟩ := append_cons_inj_last (hmark x.ms) (hmark y.ms) hlists.2
  rw [List.append_cancel_right_eq, String.toList_inj, Instant.stamp_ofMillis_inj] at hstamps
  exact ⟨hstamps, hnames⟩

/-- The place of a picture tells all about it but the repeat, as long as the names of devices have
no slash and those of scenarios, or those of nodes, no underscore. -/
theorem path_eq_iff (hx : '/' ∉ x.deviceId.toList) (hy : '/' ∉ y.deviceId.toList)
    (hmark : ('_' ∉ x.scenarioId.toList ∧ '_' ∉ y.scenarioId.toList) ∨
      ('_' ∉ x.nodeId.toList ∧ '_' ∉ y.nodeId.toList)) :
    x.path runId = y.path runId ↔ x.deviceId = y.deviceId ∧ x.scenarioId = y.scenarioId ∧
      x.nodeId = y.nodeId ∧ x.ms = y.ms := by
  constructor
  · intro h
    obtain ⟨hms, hnames⟩ := split_path h
    obtain ⟨hdevice, hrest⟩ := append_cons_inj_first hx hy hnames
    rw [hdevice, List.append_cancel_left_eq, List.cons.injEq] at hrest
    have hnode : x.scenarioId.toList = y.scenarioId.toList ∧ x.nodeId.toList = y.nodeId.toList :=
      hmark.elim (fun hm => append_cons_inj_first hm.1 hm.2 hrest.2)
        fun hm => append_cons_inj_last hm.1 hm.2 hrest.2
    exact ⟨String.toList_inj.1 hdevice, String.toList_inj.1 hnode.1, String.toList_inj.1 hnode.2,
      hms⟩
  · intro h
    obtain ⟨hdevice, hscenario, hnode, hms⟩ := h
    simp only [path, ArtifactSink.path, context, Context.forScenario, Context.forDevice, fileName,
      hdevice, hscenario, hnode, hms]

end Capture

end DeviceSuite
