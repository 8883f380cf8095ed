import DeviceSuite.Codec.Choice
import DeviceSuite.Codec.Record

/-!
# Results

The records of a run: steps make up scenarios, scenarios make up devices, devices make up the
result of the suite. Each level but the first carries the counts of what it holds.
-/

namespace DeviceSuite

/-- A time in milliseconds as a word; the greatest word stands for all longer times. -/
def millis (ms : Nat) : UInt64 := .ofNat (min ms (UInt64.size - 1))

/-- How long an action took, how long it waited, how often it was tried, and how well an image
matched. -/
structure Performance where
  totalMs : UInt64
  waitedMs : Option UInt64
  attempts : Option UInt32
  matchConfidence : Option Double
  deriving DecidableEq, Repr

namespace Performance

/-- An action that took no time. -/
def zero : Performance := ⟨0, none, none, none⟩

/-- The fields of a performance. -/
abbrev fields : List Field :=
  [.required "totalMs" .uint64, .optional "waitedMs" .uint64, .optional "attempts" .uint32,
    .optional "matchConfidence" .double]

/-- The codec of performances. -/
def codec : Codec Performance :=
  .record "ActionPerformance" fields
    (fun (totalMs, waitedMs, attempts, matchConfidence, ()) =>
      ⟨totalMs, waitedMs, attempts, matchConfidence⟩)
    (fun p => (p.totalMs, p.waitedMs, p.attempts, p.matchConfidence, ()))

end Performance

/-- What came of an action. -/
structure Outcome where
  success : Bool
  message : Option String
  performance : Option Performance
  deriving DecidableEq, Repr

namespace Outcome

/-- A plain success. -/
def ok : Outcome := ⟨true, none, none⟩

/-- A failure with its reason. -/
def failed (message : String) : Outcome := ⟨false, some message, none⟩

/-- The outcome with its performance set. -/
def withPerformance (o : Outcome) (p : Performance) : Outcome := { o with performance := some p }

/-- The fields of an outcome. -/
abbrev fields : List Field :=
  [.required "success" .bool, .optional "message" .string,
    .optional "performance" Performance.codec]

/-- The codec of outcomes. -/
def codec : Codec Outcome :=
  .record "ActionOutcome" fields
    (fun (success, message, performance, ()) => ⟨success, message, performance⟩)
    (fun o => (o.success, o.message, o.performance, ()))

end Outcome

/-- Where and how well an image was found. -/
structure ImageMatch where
  confidence : Double
  x : Int32
  y : Int32
  deriving DecidableEq, Repr

namespace ImageMatch

/-- The fields of a match. -/
abbrev fields : List Field :=
  [.required "confidence" .double, .required "x" .int32, .required "y" .int32]

/-- The codec of matches. -/
def codec : Codec ImageMatch :=
  .record "ImageMatch" fields (fun (confidence, x, y, ()) => ⟨confidence, x, y⟩)
    (fun m => (m.confidence, m.x, m.y, ()))

end ImageMatch

/-- The status of a step record. -/
inductive StepStatus where
  | passed
  | failed
  | waiting
  | skipped
  deriving DecidableEq, Repr

namespace StepStatus

/-- The written name of a status. -/
def name : StepStatus → String
  | passed => "passed"
  | failed => "failed"
  | waiting => "waiting"
  | skipped => "skipped"

/-- The codec of statuses. -/
def codec : Codec StepStatus := .choice [passed, failed, waiting, skipped] name

end StepStatus

/-- The record of a step. -/
structure StepResult where
  nodeId : String
  nodeName : String
  actionType : String
  status : StepStatus
  durationMs : UInt64
  error : Option String
  timestamp : Instant
  performance : Option Performance
  deriving DecidableEq, Repr

namespace StepResult

/-- The fields of a step record. -/
abbrev fields : List Field :=
  [.required "nodeId" .string, .required "nodeName" .string, .required "actionType" .string,
    .required "status" StepStatus.codec, .required "durationMs" .uint64,
    .optional "error" .string, .required "timestamp" .instant,
    .optional "performance" Performance.codec]

/-- The codec of step records. -/
def codec : Codec StepResult :=
  .record "StepResult" fields
    (fun (nodeId, nodeName, actionType, status, durationMs, error, timestamp, performance, ()) =>
      ⟨nodeId, nodeName, actionType, status, durationMs, error, timestamp, performance⟩)
    (fun r => (r.nodeId, r.nodeName, r.actionType, r.status, r.durationMs, r.error, r.timestamp,
      r.performance, ()))

end StepResult

/-- The status of a slot. -/
inductive ScenarioStatus where
  | passed
  | failed
  | skipped
  deriving DecidableEq, Repr

namespace ScenarioStatus

/-- The written name of a status. -/
def name : ScenarioStatus → String
  | passed => "passed"
  | failed => "failed"
  | skipped => "skipped"

/-- The codec of statuses. -/
def codec : Codec ScenarioStatus := .choice [passed, failed, skipped] name

end ScenarioStatus

/-- The result of a slot. -/
structure ScenarioResult where
  scenarioId : String
  scenarioName : String
  iteration : UInt32
  status : ScenarioStatus
  startedAt : Instant
  completedAt : Instant
  durationMs : UInt64
  error : Option String
  stepResults : List StepResult
  screenshots : List String
  videoPath : Option String
  deriving DecidableEq, Repr

namespace ScenarioResult

/-- A slot that was never begun. -/
def skipped (scenarioId : String) (iteration : UInt32) (reason : String) (now : Instant) :
    ScenarioResult where
  scenarioId := scenarioId
  scenarioName := ""
  iteration := iteration
  status := .skipped
  startedAt := now
  completedAt := now
  durationMs := 0
  error := some reason
  stepResults := []
  screenshots := []
  videoPath := none

/-- The fields of a slot's result. -/
abbrev fields : List Field :=
  [.required "scenarioId" .string, .defaulted "scenarioName" .string "",
    .required "repeat" .uint32, .required "status" ScenarioStatus.codec,
    .required "startedAt" .instant, .required "completedAt" .instant,
    .required "durationMs" .uint64, .optional "error" .string,
    .defaulted "stepResults" (.list StepResult.codec) [],
    .defaulted "screenshots" (.list .string) [], .optional "videoPath" .string]

/-- The codec of a slot's result. -/
def codec : Codec ScenarioResult :=
  .record "ScenarioResult" fields
    (fun (scenarioId, scenarioName, iteration, status, startedAt, completedAt, durationMs, error,
        stepResults, screenshots, videoPath, ()) =>
      ⟨scenarioId, scenarioName, iteration, status, startedAt, completedAt, durationMs, error,
        stepResults, screenshots, videoPath⟩)
    (fun r => (r.scenarioId, r.scenarioName, r.iteration, r.status, r.startedAt, r.completedAt,
      r.durationMs, r.error, r.stepResults, r.screenshots, r.videoPath, ()))

end ScenarioResult

/-- The counts of a device's slots. -/
structure DeviceStats where
  total : UInt32
  passed : UInt32
  failed : UInt32
  skipped : UInt32
  deriving DecidableEq, Repr

namespace DeviceStats

/-- Nothing has been counted. -/
def zero : DeviceStats := ⟨0, 0, 0, 0⟩

/-- Count one slot. -/
def record (s : DeviceStats) : ScenarioStatus → DeviceStats
  | .passed => { s with total := s.total + 1, passed := s.passed + 1 }
  | .failed => { s with total := s.total + 1, failed := s.failed + 1 }
  | .skipped => { s with total := s.total + 1, skipped := s.skipped + 1 }

/-- The fields of the counts. -/
abbrev fields : List Field :=
  [.required "total" .uint32, .required "passed" .uint32, .required "failed" .uint32,
    .required "skipped" .uint32]

/-- The codec of the counts. -/
def codec : Codec DeviceStats :=
  .record "DeviceStats" fields
    (fun (total, passed, failed, skipped, ()) => ⟨total, passed, failed, skipped⟩)
    (fun s => (s.total, s.passed, s.failed, s.skipped, ()))

end DeviceStats

/-- What a device says of itself. -/
structure Environment where
  platform : String
  osVersion : String
  model : String
  screenWidth : Option UInt32
  screenHeight : Option UInt32
  extra : TextMap Json

namespace Environment

/-- The fields of an environment. -/
abbrev fields : List Field :=
  [.defaulted "platform" .string "", .defaulted "osVersion" .string "",
    .defaulted "model" .string "", .optional "screenWidth" .uint32,
    .optional "screenHeight" .uint32, .defaulted "extra" (.map .json) .empty]

/-- The codec of environments. -/
def codec : Codec Environment :=
  .record "DeviceEnvironment" fields
    (fun (platform, osVersion, model, screenWidth, screenHeight, extra, ()) =>
      ⟨platform, osVersion, model, screenWidth, screenHeight, extra⟩)
    (fun e => (e.platform, e.osVersion, e.model, e.screenWidth, e.screenHeight, e.extra, ()))

end Environment

/-- The app under test. -/
structure AppInfo where
  package : String
  versionName : Option String
  versionCode : Option String
  deriving DecidableEq, Repr

namespace AppInfo

/-- The fields of an app. -/
abbrev fields : List Field :=
  [.required "package" .string, .optional "versionName" .string,
    .optional "versionCode" .string]

/-- The codec of apps. -/
def codec : Codec AppInfo :=
  .record "AppInfo" fields
    (fun (package, versionName, versionCode, ()) => ⟨package, versionName, versionCode⟩)
    (fun a => (a.package, a.versionName, a.versionCode, ()))

end AppInfo

/-- The result of a device. -/
structure DeviceResult where
  deviceId : String
  scenarioResults : List ScenarioResult
  stats : DeviceStats
  environment : Option Environment
  appInfo : Option AppInfo

namespace DeviceResult

/-- A device that has run nothing yet. -/
def new (deviceId : String) : DeviceResult := ⟨deviceId, [], .zero, none, none⟩

/-- Append the result of a slot and count it. -/
def push (d : DeviceResult) (r : ScenarioResult) : DeviceResult :=
  { d with scenarioResults := d.scenarioResults ++ [r], stats := d.stats.record r.status }

/-- The fields of a device's result. -/
abbrev fields : List Field :=
  [.required "deviceId" .string, .required "scenarioResults" (.list ScenarioResult.codec),
    .required "stats" DeviceStats.codec, .optional "environment" Environment.codec,
    .optional "appInfo" AppInfo.codec]

/-- The codec of a device's result. -/
def codec : Codec DeviceResult :=
  .record "DeviceResult" fields
    (fun (deviceId, scenarioResults, stats, environment, appInfo, ()) =>
      ⟨deviceId, scenarioResults, stats, environment, appInfo⟩)
    (fun d => (d.deviceId, d.scenarioResults, d.stats, d.environment, d.appInfo, ()))

end DeviceResult

/-- The counts of a suite. -/
structure SuiteStats where
  totalScenarios : UInt32
  totalDevices : UInt32
  totalExecutions : UInt32
  passed : UInt32
  failed : UInt32
  skipped : UInt32
  deriving DecidableEq, Repr

namespace SuiteStats

/-- Add the counts of a device. -/
def add (s : SuiteStats) (d : DeviceStats) : SuiteStats :=
  { s with
    totalExecutions := s.totalExecutions + d.total
    passed := s.passed + d.passed
    failed := s.failed + d.failed
    skipped := s.skipped + d.skipped }

/-- The sums of the counts of devices. -/
def aggregate (totalScenarios totalDevices : UInt32) (devices : List DeviceResult) : SuiteStats :=
  devices.foldl (fun s d => s.add d.stats) ⟨totalScenarios, totalDevices, 0, 0, 0, 0⟩

/-- The fields of the counts. -/
abbrev fields : List Field :=
  [.required "totalScenarios" .uint32, .required "totalDevices" .uint32,
    .required "totalExecutions" .uint32, .required "passed" .uint32,
    .required "failed" .uint32, .required "skipped" .uint32]

/-- The codec of the counts. -/
def codec : Codec SuiteStats :=
  .record "SuiteStats" fields
    (fun (totalScenarios, totalDevices, totalExecutions, passed, failed, skipped, ()) =>
      ⟨totalScenarios, totalDevices, totalExecutions, passed, failed, skipped⟩)
    (fun s => (s.totalScenarios, s.totalDevices, s.totalExecutions, s.passed, s.failed,
      s.skipped, ()))

end SuiteStats

/-- The status of a run. -/
inductive RunStatus where
  | created
  | running
  | completed
  | stopped
  deriving DecidableEq, Repr

namespace RunStatus

/-- The written name of a status. -/
def name : RunStatus → String
  | created => "created"
  | running => "running"
  | completed => "completed"
  | stopped => "stopped"

/-- All statuses. -/
def all : List RunStatus := [created, running, completed, stopped]

/-- The codec of statuses. -/
def codec : Codec RunStatus := .choice all name

/-- Whether a run of the status is over. -/
def isTerminal : RunStatus → Bool
  | completed | stopped => true
  | created | running => false

end RunStatus

/-- The result of a run. -/
structure SuiteResult where
  id : String
  suiteId : String
  suiteName : String
  status : RunStatus
  startedAt : Instant
  completedAt : Instant
  totalDurationMs : UInt64
  deviceResults : List DeviceResult
  stats : SuiteStats

namespace SuiteResult

/-- The fields of a run's result. -/
abbrev fields : List Field :=
  [.required "id" .string, .required "suiteId" .string, .required "suiteName" .string,
    .required "status" RunStatus.codec, .required "startedAt" .instant,
    .required "completedAt" .instant, .required "totalDurationMs" .uint64,
    .required "deviceResults" (.list DeviceResult.codec), .required "stats" SuiteStats.codec]

/-- The codec of a run's result. -/
def codec : Codec SuiteResult :=
  .record "SuiteExecutionResult" fields
    (fun (id, suiteId, suiteName, status, startedAt, completedAt, totalDurationMs,
        deviceResults, stats, ()) =>
      ⟨id, suiteId, suiteName, status, startedAt, completedAt, totalDurationMs, deviceResults,
        stats⟩)
    (fun r => (r.id, r.suiteId, r.suiteName, r.status, r.startedAt, r.completedAt,
      r.totalDurationMs, r.deviceResults, r.stats, ()))

end SuiteResult

end DeviceSuite
