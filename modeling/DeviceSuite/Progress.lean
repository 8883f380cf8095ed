import DeviceSuite.Request
import DeviceSuite.Result

/-!
# Progress

How far a run and each of its devices have come.
-/

namespace DeviceSuite

/-- The status of a device in a run; it has partially failed when a scenario failed or when its
task ended early. -/
inductive DeviceStatus where
  | pending
  | running
  | completed
  | partiallyFailed
  deriving DecidableEq, Repr

namespace DeviceStatus

/-- The written name of a status. -/
def name : DeviceStatus → String
  | pending => "pending"
  | running => "running"
  | completed => "completed"
  | partiallyFailed => "partially_failed"

/-- The codec of statuses. -/
def codec : Codec DeviceStatus :=
  .choice [pending, running, completed, partiallyFailed] name

end DeviceStatus

/-- How far a device has come: the scenario and the repeat it is at, and the slots behind it. -/
structure DeviceProgress where
  scenarioIndex : UInt32
  iteration : UInt32
  status : DeviceStatus
  completedSlots : UInt32
  deriving DecidableEq, Repr

namespace DeviceProgress

/-- A device before its first slot. -/
def initial : DeviceProgress := ⟨0, 1, .pending, 0⟩

/-- The fields of a device's progress. -/
abbrev fields : List Field :=
  [.required "scenarioIndex" .uint32, .required "repeat" .uint32,
    .required "status" DeviceStatus.codec, .defaulted "completedSlots" .uint32 0]

/-- The codec of a device's progress. -/
def codec : Codec DeviceProgress :=
  .record "DeviceProgress" fields
    (fun (scenarioIndex, iteration, status, completedSlots, ()) =>
      ⟨scenarioIndex, iteration, status, completedSlots⟩)
    (fun p => (p.scenarioIndex, p.iteration, p.status, p.completedSlots, ()))

end DeviceProgress

/-- A run as it is seen at one moment. -/
structure RunSnapshot where
  runId : String
  suiteId : String
  suiteName : String
  status : RunStatus
  stopRequested : Bool
  startedAt : Instant
  devices : TextMap DeviceProgress
  completedUnits : UInt64
  totalUnits : UInt64
  overallProgress : Double
  request : Request

namespace RunSnapshot

/-- The fields of a snapshot. -/
abbrev fields : List Field :=
  [.required "suiteRunId" .string, .required "suiteId" .string, .required "suiteName" .string,
    .required "status" RunStatus.codec, .required "stopRequested" .bool,
    .required "startedAt" .instant, .required "devices" (.map DeviceProgress.codec),
    .required "completedUnits" .uint64, .required "totalUnits" .uint64,
    .required "overallProgress" .double, .required "request" Request.codec]

/-- The codec of snapshots. -/
def codec : Codec RunSnapshot :=
  .record "SuiteRunSnapshot" fields
    (fun (runId, suiteId, suiteName, status, stopRequested, startedAt, devices, completedUnits,
        totalUnits, overallProgress, request, ()) =>
      ⟨runId, suiteId, suiteName, status, stopRequested, startedAt, devices, completedUnits,
        totalUnits, overallProgress, request⟩)
    (fun s => (s.runId, s.suiteId, s.suiteName, s.status, s.stopRequested, s.startedAt,
      s.devices, s.completedUnits, s.totalUnits, s.overallProgress, s.request, ()))

end RunSnapshot

/-- A position among so many. -/
structure ProgressCounter where
  current : UInt32
  total : UInt32
  deriving DecidableEq, Repr

namespace ProgressCounter

/-- The fields of a counter. -/
abbrev fields : List Field := [.required "current" .uint32, .required "total" .uint32]

/-- The codec of counters. -/
def codec : Codec ProgressCounter :=
  .record "ProgressCounter" fields (fun (current, total, ()) => ⟨current, total⟩)
    (fun c => (c.current, c.total, ()))

end ProgressCounter

/-- The report that a device begins a slot. -/
structure ProgressReport where
  runId : String
  suiteId : String
  currentDevice : String
  currentScenario : String
  deviceProgress : ProgressCounter
  scenarioProgress : ProgressCounter
  overallProgress : Double
  deriving DecidableEq, Repr

namespace ProgressReport

/-- The fields of a report. -/
abbrev fields : List Field :=
  [.required "suiteRunId" .string, .required "suiteId" .string,
    .required "currentDevice" .string, .required "currentScenario" .string,
    .required "deviceProgress" ProgressCounter.codec,
    .required "scenarioProgress" ProgressCounter.codec, .required "overallProgress" .double]

/-- A report from the values of its fields. -/
def ofRow : Row fields → ProgressReport :=
  fun (runId, suiteId, currentDevice, currentScenario, deviceProgress, scenarioProgress,
      overallProgress, ()) =>
    ⟨runId, suiteId, currentDevice, currentScenario, deviceProgress, scenarioProgress,
      overallProgress⟩

/-- The values of the fields of a report. -/
def toRow (p : ProgressReport) : Row fields :=
  (p.runId, p.suiteId, p.currentDevice, p.currentScenario, p.deviceProgress,
    p.scenarioProgress, p.overallProgress, ())

/-- The codec of reports. -/
def codec : Codec ProgressReport := .record "SuiteProgress" fields ofRow toRow

end ProgressReport

end DeviceSuite
