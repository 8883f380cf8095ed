import DeviceSuite.Codec.Tagged
import DeviceSuite.Progress

/-!
# Events

What a run tells those who listen while it goes on. Every event names its run; a run ends with
exactly one of the last two.
-/

namespace DeviceSuite

/-- An event of a run. -/
inductive Event where
  | start (runId suiteId suiteName : String) (deviceIds scenarioIds : List String)
      (repeatCount : UInt32) (timestamp : Instant)
  | progress (report : ProgressReport)
  | deviceStart (runId deviceId : String) (timestamp : Instant)
  | deviceComplete (runId : String) (result : DeviceResult)
  | scenarioStart (runId deviceId scenarioId scenarioName : String) (iteration : UInt32)
      (timestamp : Instant)
  | scenarioComplete (runId deviceId : String) (result : ScenarioResult)
  | stepStart (runId deviceId scenarioId nodeId nodeName actionType : String)
      (timestamp : Instant)
  | stepWaiting (runId deviceId scenarioId : String) (step : StepResult)
  | stepComplete (runId deviceId scenarioId : String) (step : StepResult)
  | complete (runId : String) (result : SuiteResult)
  | stopped (runId : String) (result : SuiteResult)

namespace Event

/-- The topic under which an event is published. -/
def topic : Event → String
  | start _ _ _ _ _ _ _ => "suite:start"
  | progress _ => "suite:progress"
  | deviceStart _ _ _ => "suite:device:start"
  | deviceComplete _ _ => "suite:device:complete"
  | scenarioStart _ _ _ _ _ _ => "suite:scenario:start"
  | scenarioComplete _ _ _ => "suite:scenario:complete"
  | stepStart _ _ _ _ _ _ _ => "suite:step:start"
  | stepWaiting _ _ _ _ => "suite:step:waiting"
  | stepComplete _ _ _ _ => "suite:step:complete"
  | complete _ _ => "suite:complete"
  | stopped _ _ => "suite:stopped"

/-- The run of an event. -/
def runId : Event → String
  | start runId _ _ _ _ _ _ => runId
  | progress report => report.runId
  | deviceStart runId _ _ => runId
  | deviceComplete runId _ => runId
  | scenarioStart runId _ _ _ _ _ => runId
  | scenarioComplete runId _ _ => runId
  | stepStart runId _ _ _ _ _ _ => runId
  | stepWaiting runId _ _ _ => runId
  | stepComplete runId _ _ _ => runId
  | complete runId _ => runId
  | stopped runId _ => runId

/-- The device that an event is about, if it is about one. -/
def deviceId? : Event → Option String
  | progress report => some report.currentDevice
  | deviceStart _ deviceId _ => some deviceId
  | deviceComplete _ result => some result.deviceId
  | scenarioStart _ deviceId _ _ _ _ => some deviceId
  | scenarioComplete _ deviceId _ => some deviceId
  | stepStart _ deviceId _ _ _ _ _ => some deviceId
  | stepWaiting _ deviceId _ _ => some deviceId
  | stepComplete _ deviceId _ _ => some deviceId
  | start _ _ _ _ _ _ _ | complete _ _ | stopped _ _ => none

/-- Whether the event ends its run. -/
def isTerminal : Event → Bool
  | complete _ _ | stopped _ _ => true
  | _ => false

/-- A variant of events. -/
def variant (tag name : String) (fields : List Field) (build : Row fields → Event)
    (take : Event → Option (Row fields)) : Variant Event where
  tag := tag
  record := .variant "SuiteEvent" name
  fields := fields
  hasListForm := true
  build := build
  take := take

/-- The variants of events, told apart by their topics. -/
def variants : List (Variant Event) :=
  [variant "suite:start" "Start"
      [.required "suiteRunId" .string, .required "suiteId" .string,
        .required "suiteName" .string, .required "deviceIds" (.list .string),
        .required "scenarioIds" (.list .string), .required "repeatCount" .uint32,
        .required "timestamp" .instant]
      (fun (run, suite, name, devices, scenarios, count, time, ()) =>
        start run suite name devices scenarios count time)
      fun
        | start run suite name devices scenarios count time =>
          some (run, suite, name, devices, scenarios, count, time, ())
        | _ => none,
    { tag := "suite:progress"
      record := .type "SuiteProgress"
      fields := ProgressReport.fields
      hasListForm := true
      build := fun row => progress (.ofRow row)
      take := fun | progress report => some report.toRow | _ => none },
    variant "suite:device:start" "DeviceStart"
      [.required "suiteRunId" .string, .required "deviceId" .string,
        .required "timestamp" .instant]
      (fun (run, device, time, ()) => deviceStart run device time)
      fun | deviceStart run device time => some (run, device, time, ()) | _ => none,
    variant "suite:device:complete" "DeviceComplete"
      [.required "suiteRunId" .string, .required "result" DeviceResult.codec]
      (fun (run, result, ()) => deviceComplete run result)
      fun | deviceComplete run result => some (run, result, ()) | _ => none,
    variant "suite:scenario:start" "ScenarioStart"
      [.required "suiteRunId" .string, .required "deviceId" .string,
        .required "scenarioId" .string, .required "scenarioName" .string,
        .required "repeat" .uint32, .required "timestamp" .instant]
      (fun (run, device, scenario, name, iteration, time, ()) =>
        scenarioStart run device scenario name iteration time)
      fun
        | scenarioStart run device scenario name iteration time =>
          some (run, device, scenario, name, iteration, time, ())
        | _ => none,
    variant "suite:scenario:complete" "ScenarioComplete"
      [.required "suiteRunId" .string, .required "deviceId" .string,
        .required "result" ScenarioResult.codec]
      (fun (run, device, result, ()) => scenarioComplete run device result)
      fun | scenarioComplete run device result => some (run, device, result, ()) | _ => none,
    variant "suite:step:start" "StepStart"
      [.required "suiteRunId" .string, .required "deviceId" .string,
        .required "scenarioId" .string, .required "nodeId" .string,
        .required "nodeName" .string, .required "actionType" .string,
        .required "timestamp" .instant]
      (fun (run, device, scenario, node, name, action, time, ()) =>
        stepStart run device scenario node name action time)
      fun
        | stepStart run device scenario node name action time =>
          some (run, device, scenario, node, name, action, time, ())
        | _ => none,
    variant "suite:step:waiting" "StepWaiting"
      [.required "suiteRunId" .string, .required "deviceId" .string,
        .required "scenarioId" .string, .required "step" StepResult.codec]
      (fun (run, device, scenario, step, ()) => stepWaiting run device scenario step)
      fun
        | stepWaiting run device scenario step => some (run, device, scenario, step, ())
        | _ => none,
    variant "suite:step:complete" "StepComplete"
      [.required "suiteRunId" .string, .required "deviceId" .string,
        .required "scenarioId" .string, .required "step" StepResult.codec]
      (fun (run, device, scenario, step, ()) => stepComplete run device scenario step)
      fun
        | stepComplete run device scenario step => some (run, device, scenario, step, ())
        | _ => none,
    variant "suite:complete" "Complete"
      [.required "suiteRunId" .string, .required "result" SuiteResult.codec]
      (fun (run, result, ()) => complete run result)
      fun | complete run result => some (run, result, ()) | _ => none,
    variant "suite:stopped" "Stopped"
      [.required "suiteRunId" .string, .required "result" SuiteResult.codec]
      (fun (run, result, ()) => stopped run result)
      fun | stopped run result => some (run, result, ()) | _ => none]

/-- The codec of events. -/
def codec : Codec Event := .tagged "SuiteEvent" "topic" variants

end Event

end DeviceSuite
