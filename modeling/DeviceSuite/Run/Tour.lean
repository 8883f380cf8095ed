import DeviceSuite.Run.Walk

/-!
# Tours

A tour is the part of a run that one device does: all slots in their order, every scenario in
every repeat. Once a stop is requested, the slots that have not begun are skipped, and still they
have results. The context of the device is registered for as long as its slots go on, also when
one of them crashes.
-/

namespace DeviceSuite

/-- What a device is to do in a run: the run as it begins, the scenarios in their order, and which
device it is, with its place among the devices of the run, from one on. -/
structure Tour where
  settings : Settings
  keepsArtifacts : Bool
  run : RunState
  scenarios : List Graph
  deviceId : String
  place : Nat

namespace Tour

/-- The number of slots. -/
def size (t : Tour) : Nat := t.run.request.repeatCount.toNat * t.scenarios.length

/-- The repeat of a slot, from one on. -/
def iteration (t : Tour) (slot : Nat) : UInt32 := .ofNat (slot / t.scenarios.length + 1)

/-- The number of a slot as the device counts it, from one on. -/
def number (slot : Nat) : UInt32 := .ofNat (slot + 1)

/-- The position of the scenario of a slot. -/
def scenarioIndex (t : Tour) (slot : Nat) : Nat := slot % t.scenarios.length

/-- The context of the device. -/
def context (t : Tour) : Context := .forDevice t.run.runId t.run.runId t.deviceId

/-- The plan of a slot. -/
def plan (t : Tour) (g : Graph) (slot : Nat) : SlotPlan where
  settings := t.settings
  keepsArtifacts := t.keepsArtifacts
  context := t.context.forScenario g.id (t.iteration slot)

/-- Change the progress of the device. -/
def updateDevice (t : Tour) (f : DeviceProgress → DeviceProgress) : RunTask Unit :=
  RunTask.update fun s => s.updateDevice t.deviceId f

/-- The reason of a slot that is not begun. -/
def skipText : String := "skipped: " ++ DeviceError.stoppedText

/-- Add the result of a slot to that of the device, and count the slot as done. -/
def settle (t : Tour) (result : DeviceResult) (slot : ScenarioResult) : RunTask DeviceResult := do
  RunTask.update fun s => s.completeSlot t.deviceId
  return result.push slot

/-- Skip a slot. -/
def skip (t : Tour) (g : Graph) (slot : Nat) (result : DeviceResult) : RunTask DeviceResult := do
  let skipped := ScenarioResult.skipped g.id (t.iteration slot) skipText (← RunTask.instant)
  t.settle result { skipped with scenarioName := g.name }

/-- Tell that a slot begins, and how far the run has come. -/
def announce (t : Tour) (g : Graph) (slot : Nat) : RunTask Unit := do
  RunTask.emit (.scenarioStart t.run.runId t.deviceId g.id g.name (t.iteration slot)
    (← RunTask.instant))
  RunTask.emit (.progress {
    runId := t.run.runId
    suiteId := t.run.suiteId
    currentDevice := t.deviceId
    currentScenario := g.id
    deviceProgress := ⟨.ofNat t.place, .ofNat t.run.request.deviceIds.length⟩
    scenarioProgress := ⟨number slot, t.run.request.slotsPerDevice⟩
    overallProgress := ← Task.ask RunCall.progress })

/-- Run the scenario of a slot, on video if the run is to be recorded. A recording that did not
start is not stopped. -/
def film (t : Tour) (g : Graph) (slot : Nat) : RunTask ScenarioResult := do
  let plan := t.plan g slot
  let recording ← if t.run.request.recordVideo then
      pure (← Task.ask (RunCall.startVideo plan.context)).success
    else pure false
  let result ← plan.run g (t.iteration slot)
  if recording then
    let outcome ← Task.ask (RunCall.stopVideo plan.context)
    return { result with videoPath := if outcome.success then outcome.localPath else none }
  else return result

/-- Rest after a slot, if its number is less than that of the slots of the device. -/
def rest (t : Tour) (slot : Nat) : RunTask Unit := do
  if number slot < t.run.request.slotsPerDevice ∧ t.run.request.scenarioInterval ≠ 0 then
    let _ ← Task.sleep t.run.request.scenarioInterval.toNat

/-- Run a slot, and rest after it. -/
def visit (t : Tour) (g : Graph) (slot : Nat) (result : DeviceResult) : RunTask DeviceResult := do
  t.updateDevice fun p =>
    { p with scenarioIndex := .ofNat (t.scenarioIndex slot), iteration := t.iteration slot }
  t.announce g slot
  let done ← t.film g slot
  RunTask.emit (.scenarioComplete t.run.runId t.deviceId done)
  let result ← t.settle result done
  t.rest slot
  return result

/-- Do the slots from the given one on, of which so many are left. -/
def slots (t : Tour) (left slot : Nat) (result : DeviceResult) : RunTask DeviceResult :=
  match left with
  | 0 => .done result
  | left + 1 =>
    match t.scenarios[t.scenarioIndex slot]? with
    | none => .done result
    | some g => do
      let result ← if ← Task.isStopped then t.skip g slot result else t.visit g slot result
      t.slots left (slot + 1) result

/-- Do all slots while the context is registered. -/
def work (t : Tour) (result : DeviceResult) : RunTask DeviceResult := do
  Task.ask (RunCall.register t.context)
  (t.slots t.size 0 result).ensuring (Task.ask (RunCall.unregister t.context))

/-- Make the tour. A device that cannot describe itself has no result. -/
def conduct (t : Tour) : RunTask TourResult := do
  match ← RunTask.onDevice (Task.ask DeviceCall.environment) with
  | .error e => return .error e
  | .ok environment =>
    let appInfo ← RunTask.onDevice (Task.ask DeviceCall.appInfo)
    t.updateDevice fun p => { p with status := .running }
    RunTask.emit (.deviceStart t.run.runId t.deviceId (← RunTask.instant))
    let blank := { DeviceResult.new t.deviceId with
      environment := some environment
      appInfo := appInfo.toOption.join }
    let result ← t.work blank
    let status : DeviceStatus := if 0 < result.stats.failed then .partiallyFailed else .completed
    t.updateDevice fun p => { p with status := status }
    RunTask.emit (.deviceComplete t.run.runId result)
    return .ok result

end Tour

end DeviceSuite
