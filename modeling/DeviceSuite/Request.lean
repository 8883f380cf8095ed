import DeviceSuite.Codec.Choice
import DeviceSuite.Codec.Record

/-!
# Suites and requests

A suite names scenarios and devices with the options of a run; a request asks for one run of
every scenario, repeated, on every device. A slot is one scenario in one repeat on one device.
-/

namespace DeviceSuite

/-- How urgent a request is. -/
inductive Priority where
  | low
  | normal
  | high
  deriving DecidableEq, Repr

namespace Priority

/-- The written name of a priority. -/
def name : Priority → String
  | low => "low"
  | normal => "normal"
  | high => "high"

/-- All priorities. -/
def all : List Priority := [low, normal, high]

/-- The codec of priorities. -/
def codec : Codec Priority := .choice all name

end Priority

/-- The options of a suite. -/
structure SuiteOptions where
  repeatCount : UInt32
  scenarioInterval : UInt64
  recordVideo : Bool
  deriving DecidableEq, Repr

namespace SuiteOptions

/-- One repeat, no pause between scenarios, no video. -/
def default : SuiteOptions := ⟨1, 0, false⟩

/-- The fields of suite options. -/
abbrev fields : List Field :=
  [.defaulted "repeatCount" .uint32 default.repeatCount,
    .defaulted "scenarioInterval" .uint64 default.scenarioInterval,
    .defaulted "recordVideo" .bool default.recordVideo]

/-- The codec of suite options. -/
def codec : Codec SuiteOptions :=
  .record "SuiteOptions" fields
    (fun (repeatCount, scenarioInterval, recordVideo, ()) =>
      ⟨repeatCount, scenarioInterval, recordVideo⟩)
    (fun o => (o.repeatCount, o.scenarioInterval, o.recordVideo, ()))

end SuiteOptions

/-- A stored suite. -/
structure Suite where
  id : String
  name : String
  scenarioIds : List String
  deviceIds : List String
  options : SuiteOptions
  deriving DecidableEq, Repr

namespace Suite

/-- The fields of a suite. -/
abbrev fields : List Field :=
  [.required "id" .string, .required "name" .string, .required "scenarioIds" (.list .string),
    .required "deviceIds" (.list .string), .defaulted "options" SuiteOptions.codec .default]

/-- The codec of suites. -/
def codec : Codec Suite :=
  .record "Suite" fields
    (fun (id, name, scenarioIds, deviceIds, options, ()) =>
      ⟨id, name, scenarioIds, deviceIds, options⟩)
    (fun s => (s.id, s.name, s.scenarioIds, s.deviceIds, s.options, ()))

end Suite

/-- A request for a run. -/
structure Request where
  deviceIds : List String
  scenarioIds : List String
  repeatCount : UInt32
  scenarioInterval : UInt64
  priority : Priority
  requester : String
  recordVideo : Bool
  deriving DecidableEq, Repr

namespace Request

/-- A request with the options of an empty suite and nobody special asking. -/
def new (deviceIds scenarioIds : List String) : Request where
  deviceIds := deviceIds
  scenarioIds := scenarioIds
  repeatCount := SuiteOptions.default.repeatCount
  scenarioInterval := SuiteOptions.default.scenarioInterval
  priority := .normal
  requester := "local"
  recordVideo := SuiteOptions.default.recordVideo

/-- The fields of a request. -/
abbrev fields : List Field :=
  [.required "deviceIds" (.list .string), .required "scenarioIds" (.list .string),
    .defaulted "repeatCount" .uint32 (new [] []).repeatCount,
    .defaulted "scenarioInterval" .uint64 (new [] []).scenarioInterval,
    .defaulted "priority" Priority.codec (new [] []).priority,
    .defaulted "requester" .string (new [] []).requester,
    .defaulted "recordVideo" .bool (new [] []).recordVideo]

/-- The codec of requests. -/
def codec : Codec Request :=
  .record "ExecutionRequest" fields
    (fun (deviceIds, scenarioIds, repeatCount, scenarioInterval, priority, requester,
        recordVideo, ()) =>
      ⟨deviceIds, scenarioIds, repeatCount, scenarioInterval, priority, requester, recordVideo⟩)
    (fun r => (r.deviceIds, r.scenarioIds, r.repeatCount, r.scenarioInterval, r.priority,
      r.requester, r.recordVideo, ()))

/-- The request that a suite stands for. -/
def ofSuite (s : Suite) (requester : String) : Request where
  deviceIds := s.deviceIds
  scenarioIds := s.scenarioIds
  repeatCount := s.options.repeatCount
  scenarioInterval := s.options.scenarioInterval
  priority := .normal
  requester := requester
  recordVideo := s.options.recordVideo

/-- A product of words that stops at the greatest one. -/
def saturatingMul (a b : UInt32) : UInt32 := .ofNat (min (a.toNat * b.toNat) (UInt32.size - 1))

/-- The slots of each device: every scenario in every repeat. -/
def slotsPerDevice (r : Request) : UInt32 :=
  saturatingMul r.repeatCount (.ofNat r.scenarioIds.length)

end Request

end DeviceSuite
