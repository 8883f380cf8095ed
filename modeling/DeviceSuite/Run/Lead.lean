import DeviceSuite.Run.Call

/-!
# Leading a run

The task that leads a run begins it, waits for the tours of all devices, counts the slots of
those that came to nothing as done, and closes the run: its result is the same in the archive, in
the last event, and for whoever waits for it.
-/

namespace DeviceSuite

namespace RunState

/-- Count the slots of a device whose tour came to nothing as done. -/
def writeOff (s : RunState) (deviceId : String) : RunState :=
  (s.settleDevice deviceId).updateDevice deviceId fun p => { p with status := .partiallyFailed }

/-- The result of a run. -/
def result (s : RunState) (status : RunStatus) (completed : Nat) (devices : List DeviceResult) :
    SuiteResult where
  id := s.runId
  suiteId := s.suiteId
  suiteName := s.suiteName
  status := status
  startedAt := s.startedAt
  completedAt := .ofMillis completed
  totalDurationMs := millis (completed - s.startedAt.millis)
  deviceResults := devices
  stats := .aggregate (.ofNat s.request.scenarioIds.length) (.ofNat s.request.deviceIds.length)
    devices

end RunState

namespace RunTask

/-- Collect the results of the tours, and write off the devices without one. -/
def collect : List (String × Option TourResult) → RunTask (List DeviceResult)
  | [] => pure []
  | (_, some (.ok result)) :: rest => do return result :: (← collect rest)
  | (deviceId, _) :: rest => do
    update fun s => s.writeOff deviceId
    collect rest

/-- Lead a run, given as it begins. -/
def lead (run : RunState) : RunTask SuiteResult := do
  update fun s => s.withStatus .running
  emit (.start run.runId run.suiteId run.suiteName run.request.deviceIds run.request.scenarioIds
    run.request.repeatCount (← instant))
  let reports ← Task.ask RunCall.tours
  let devices ← collect (run.request.deviceIds.zip reports)
  let stopped ← Task.isStopped
  let status : RunStatus := if stopped then .stopped else .completed
  let result := run.result status (← Task.now) devices
  update fun s => s.withStatus status
  Task.ask (RunCall.archive result)
  Task.ask RunCall.retire
  emit (if stopped then .stopped run.runId result else .complete run.runId result)
  return result

end RunTask

end DeviceSuite
