import DeviceSuite.Device.Scripted

/-!
# Observed devices

A scripted device whose calls are written down with their times. It can be given a description,
pictures and the answers to looks of its own, and it can raise signals when its log has reached a
certain length.
-/

namespace DeviceSuite

/-- A prepared answer to a look. -/
inductive PreparedLook where
  | absent
  | present (confidence : Option Double)
  | failure (message : String)

/-- A device under observation. -/
structure ObservedDevice where
  script : ScriptedDevice
  /-- The calls so far, each with its time. -/
  log : List (Nat × DeviceCall)
  snapshotOn : List Nat
  stopOn : Option Nat
  lookLatencyMs : Nat
  looks : TextMap (List PreparedLook)
  environment : Option Environment
  appInfo : Option AppInfo
  appInfoError : Option String
  picture : List UInt8

namespace ObservedDevice

/-- A scripted device with nothing of its own. -/
def new (script : ScriptedDevice) : ObservedDevice where
  script := script
  log := []
  snapshotOn := []
  stopOn := none
  lookLatencyMs := 0
  looks := .empty
  environment := none
  appInfo := none
  appInfoError := none
  picture := ScriptedDevice.picture

/-- The finding that a prepared answer stands for. -/
def finding (t : Target) : PreparedLook → Except DeviceError Finding
  | .absent => .ok .absent
  | .present confidence => .ok (.present (match t with
    | .image _ => some ⟨confidence.getD (.ofRatio 1 2), 1, 2⟩
    | _ => none))
  | .failure message => .error (.classify message)

/-- The signals raised by the call that makes the log this long. -/
def signals (d : ObservedDevice) (length : Nat) : List Signal :=
  (if length ∈ d.snapshotOn then [.snapshot] else []) ++
    if d.stopOn = some length then [.stop] else []

/-- The time that a call takes. -/
def latency (d : ObservedDevice) : DeviceCall → Nat
  | .perform _ => d.script.latencyMs
  | .locate _ => d.lookLatencyMs
  | _ => 0

/-- The device as a service: the script answers what has no answer of its own. -/
def service : Service DeviceCall.Reply ObservedDevice where
  accept now d c :=
    let log := d.log ++ [(now, c)]
    ⟨{ d with log := log, script := (ScriptedDevice.service.accept now d.script c).state },
      d.latency c, d.signals log.length⟩
  answer _ d
    | .environment =>
      (d, some (ScriptedDevice.failing d.script.environmentError
        (d.environment.getD d.script.environment)))
    | .appInfo => (d, some (ScriptedDevice.failing d.appInfoError d.appInfo))
    | .locate t => match d.looks.get? t.key with
      | some (prepared :: rest) =>
        ({ d with looks := d.looks.insert t.key rest }, some (finding t prepared))
      | _ => ({ d with script := (d.script.look t).1 }, some (d.script.look t).2)
    | .screenshot => (d, some (ScriptedDevice.failing d.script.screenshotError d.picture))
    | .perform c => ({ d with script := (d.script.finish c).1 }, (d.script.finish c).2)

end ObservedDevice

end DeviceSuite
