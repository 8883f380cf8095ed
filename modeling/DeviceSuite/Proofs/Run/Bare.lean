import DeviceSuite.Proofs.Run.Slot
import DeviceSuite.Proofs.Device.Heed
import DeviceSuite.Proofs.Task.Twins
import DeviceSuite.Run.Lead
import DeviceSuite.Run.Role

/-!
# Results without pictures

A tour has helpers beside its device: a sink for pictures, the device's own camera, and a video
recorder. Tours that differ only in what these do, and in whether they take pictures, are twins:
they act and look at their devices alike, keep the books alike, and their results are equal but for
the pictures and the videos. The same holds of the leads of their runs.
-/

namespace DeviceSuite

/-! ## What is left without pictures and names -/

/-- A result without pictures and video. -/
def ScenarioResult.bare (r : ScenarioResult) : ScenarioResult :=
  { r with screenshots := [], videoPath := none }

/-- The result of a device without pictures and videos. -/
def DeviceResult.bare (d : DeviceResult) : DeviceResult :=
  { d with scenarioResults := d.scenarioResults.map ScenarioResult.bare }

/-- What has come of a tour, without pictures and videos. -/
def TourResult.bare (r : TourResult) : TourResult := r.map DeviceResult.bare

/-- The result of a run without its identifier, pictures and videos. -/
def SuiteResult.bare (r : SuiteResult) : SuiteResult :=
  { r with id := "", deviceResults := r.deviceResults.map DeviceResult.bare }

/-- What a task ends with, without identifiers, pictures and videos. -/
def RoleResult.bare : RoleResult → RoleResult
  | tour r => tour (TourResult.bare r)
  | lead r => lead r.bare

/-- A run with another identifier. -/
def RunState.named (s : RunState) (runId : String) : RunState := { s with runId := runId }

/-- A change of a run that does not look at its identifier, nor touch it. -/
def RunState.Nameless (f : RunState → RunState) : Prop :=
  ∀ (s : RunState) (runId : String), f (s.named runId) = (f s).named runId

namespace ScenarioResult

variable {r r' : ScenarioResult}

/-- Results that are equal without pictures and videos differ in these only. -/
theorem exists_of_bare_eq (h : r.bare = r'.bare) :
    ∃ screenshots videoPath, r' = { r with screenshots := screenshots, videoPath := videoPath } := by
  refine ⟨r'.screenshots, r'.videoPath, ?_⟩
  have hrestored := congrArg (fun x : ScenarioResult =>
    { x with screenshots := r'.screenshots, videoPath := r'.videoPath }) h
  exact hrestored.symm

end ScenarioResult

/-- Results of devices that are equal without pictures and videos differ in these only. -/
theorem DeviceResult.exists_of_bare_eq {d d' : DeviceResult} (h : d.bare = d'.bare) :
    ∃ results, d' = { d with scenarioResults := results } ∧
      results.map ScenarioResult.bare = d.scenarioResults.map ScenarioResult.bare := by
  refine ⟨d'.scenarioResults, ?_, ?_⟩
  · have hrestored := congrArg (fun x : DeviceResult =>
      { x with scenarioResults := d'.scenarioResults }) h
    exact hrestored.symm
  · have hresults : d.bare.scenarioResults = d'.bare.scenarioResults := by rw [h]
    exact hresults.symm

/-- Results that agree but for their pictures still do when slots that so agree are added. -/
theorem DeviceResult.bare_push {d d' : DeviceResult} {r r' : ScenarioResult}
    (hd : d.bare = d'.bare) (hr : r.bare = r'.bare) : (d.push r).bare = (d'.push r').bare := by
  obtain ⟨screenshots, videoPath, rfl⟩ := ScenarioResult.exists_of_bare_eq hr
  obtain ⟨results, rfl, hresults⟩ := DeviceResult.exists_of_bare_eq hd
  simp [DeviceResult.bare, DeviceResult.push, hresults, ScenarioResult.bare]

/-- The counts of a run do not look at pictures. -/
theorem SuiteStats.aggregate_bare (scenarios devices : UInt32) (results : List DeviceResult) :
    aggregate scenarios devices (results.map DeviceResult.bare) =
      aggregate scenarios devices results := by
  rw [aggregate, List.foldl_map]
  rfl

namespace RunState

variable {s : RunState}

/-- A nameless change leaves the identifier as it is. -/
theorem Nameless.runId {f : RunState → RunState} (hf : Nameless f) (s : RunState) :
    (f s).runId = s.runId := by
  have hsame : f s = (f s).named s.runId := hf s s.runId
  rw [hsame]
  rfl

/-- The status changes without regard to the identifier. -/
theorem nameless_withStatus (status : RunStatus) : Nameless fun s => s.withStatus status :=
  fun _ _ => rfl

/-- The progress of a device changes without regard to the identifier. -/
theorem nameless_updateDevice (id : String) (f : DeviceProgress → DeviceProgress) :
    Nameless fun s => s.updateDevice id f :=
  fun _ _ => rfl

/-- A slot is counted without regard to the identifier of the run. -/
theorem nameless_completeSlot (id : String) : Nameless fun s => s.completeSlot id :=
  fun _ _ => rfl

/-- A device is written off without regard to the identifier of the run. -/
theorem nameless_writeOff (id : String) : Nameless fun s => s.writeOff id :=
  fun _ _ => rfl

/-- A run is stopped without regard to its identifier. -/
theorem nameless_requestStop : Nameless requestStop := fun _ _ => rfl

end RunState

/-! ## How calls compare -/

namespace RunCall

/-- The calls that two tasks make alike; `visits` tells whether they have devices to call. -/
inductive Pairs (visits : Prop) : RunCall → RunCall → Prop where
  | device {c : DeviceCall} (hv : visits) (hc : c ≠ .screenshot) :
    Pairs visits (.device c) (.device c)
  | emit (e e' : Event) : Pairs visits (.emit e) (.emit e')
  | update {f : RunState → RunState} (hf : RunState.Nameless f) :
    Pairs visits (.update f) (.update f)
  | progress : Pairs visits .progress .progress
  | register (c c' : Context) : Pairs visits (.register c) (.register c')
  | unregister (c c' : Context) : Pairs visits (.unregister c) (.unregister c')
  | begun : Pairs visits .begun .begun
  | tours : Pairs visits .tours .tours
  | archive (r r' : SuiteResult) : Pairs visits (.archive r) (.archive r')
  | retire : Pairs visits .retire .retire

/-- Whether replies correspond: what has come of tours is told without pictures. -/
def Heard : (c c' : RunCall) → c.Reply → c'.Reply → Prop
  | .tours, .tours, r, r' => r.map (·.map TourResult.bare) = r'.map (·.map TourResult.bare)
  | _, _, r, r' => HEq r r'

/-- The calls to the helpers. -/
def Aside (visits : Prop) : RunCall → Prop
  | device c => visits ∧ c = .screenshot
  | save _ _ | startVideo _ | stopVideo _ => True
  | _ => False

/-- How the calls of two tasks compare that differ in what their helpers do. -/
def pairing (visits : Prop) : Pairing Reply := ⟨Pairs visits, Heard, Aside visits⟩

end RunCall

namespace RunTask

variable {visits : Prop}

/-- A task of the device that takes no picture is its own twin. -/
theorem twin_onDevice {α : Type} {t : DeviceTask α} {H : DeviceCall → Prop} {Q : α → Prop}
    (h : t.Only H Q) (hH : ∀ c, H c → c ≠ .screenshot) (hv : visits) :
    (onDevice t).Twin (RunCall.pairing visits) (fun a b => a = b) (onDevice t) := by
  induction t with
  | done a => exact .done rfl
  | crash => exact .crash
  | clock next ih => exact .clock fun ms => ih ms (h ms)
  | stopRequested next ih => exact .stopRequested fun b => ih b (h b)
  | pause ms next ih => exact .pause fun full => ih full (h full)
  | giveWay next ih => exact .giveWay (ih h)
  | call c next ih =>
    refine .call (.device hv (hH c h.1)) fun r r' hr => ?_
    cases hr with
    | none => exact ih none (h.2 none)
    | some hr =>
      obtain rfl := eq_of_heq hr
      exact ih _ (h.2 _)

/-- Twins may make the same call to their devices. -/
theorem twin_ask_device {c : DeviceCall} (hc : c ≠ .screenshot) (hv : visits) :
    (onDevice (Task.ask c)).Twin (RunCall.pairing visits) (fun a b => a = b)
      (onDevice (Task.ask c)) :=
  twin_onDevice (Task.only_ask.2 ⟨rfl, fun _ => trivial⟩) (H := (· = c)) (Q := fun _ => True)
    (fun _ h => h ▸ hc) hv

/-- Twins may tell different events. -/
theorem twin_emit (e e' : Event) :
    (emit e).Twin (RunCall.pairing visits) (fun _ _ => True) (emit e') :=
  (Task.twin_ask (P := RunCall.pairing visits) (.emit e e')).mono fun _ _ _ => trivial

/-- Twins may make the same nameless change. -/
theorem twin_update {f : RunState → RunState} (hf : RunState.Nameless f) :
    (update f).Twin (RunCall.pairing visits) (fun _ _ => True) (update f) :=
  (Task.twin_ask (P := RunCall.pairing visits) (.update hf)).mono fun _ _ _ => trivial

/-- Twins may read the instant. -/
theorem twin_instant : instant.Twin (RunCall.pairing visits) (fun a b => a = b) instant :=
  .clock fun _ => .done rfl

/-- Each twin may take pictures on its own. -/
theorem aside_onDevice_screenshot (hv : visits) :
    (onDevice (Task.ask DeviceCall.screenshot)).Aside (RunCall.pairing visits) :=
  ⟨⟨hv, rfl⟩, fun _ => trivial⟩

end RunTask
end DeviceSuite
