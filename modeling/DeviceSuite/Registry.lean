import DeviceSuite.Progress

/-!
# Runs and their registry

The state of a run: whether it is to stop, how far its devices have come, and how many slots are
done. The registry keeps the state of every run ever begun under a number, and knows which of
them are active, by their identifiers.
-/

namespace DeviceSuite

/-- A counter of 64 bits stands for the number that it shows. -/
instance coeUInt64 : Coe UInt64 Nat := ⟨UInt64.toNat⟩

/-- The state of a run. -/
structure RunState where
  runId : String
  suiteId : String
  suiteName : String
  request : Request
  startedAt : Instant
  stopRequested : Bool
  status : RunStatus
  devices : TextMap DeviceProgress
  completedUnits : UInt64
  totalUnits : UInt64

namespace RunState

/-- The state of a run that is about to begin. A device that is requested twice has its slots
counted twice but has only one progress. -/
def new (runId suiteId suiteName : String) (request : Request) (startedAt : Instant) :
    RunState where
  runId := runId
  suiteId := suiteId
  suiteName := suiteName
  request := request
  startedAt := startedAt
  stopRequested := false
  status := .created
  devices := .ofList (request.deviceIds.map fun id => (id, .initial))
  completedUnits := 0
  totalUnits := .ofNat request.deviceIds.length * request.slotsPerDevice.toUInt64

/-- Raise the stop flag. -/
def requestStop (s : RunState) : RunState := { s with stopRequested := true }

/-- Set the status. -/
def withStatus (s : RunState) (status : RunStatus) : RunState := { s with status := status }

/-- The progress of a device, if it has any. -/
def device? (s : RunState) (deviceId : String) : Option DeviceProgress := s.devices.get? deviceId

/-- Change the progress of a device, which begins before its first slot. -/
def updateDevice (s : RunState) (deviceId : String) (f : DeviceProgress → DeviceProgress) :
    RunState :=
  { s with devices := s.devices.insert deviceId (f ((s.device? deviceId).getD .initial)) }

/-- Count a slot of a device as done. -/
def completeSlot (s : RunState) (deviceId : String) : RunState :=
  let s := s.updateDevice deviceId fun p => { p with completedSlots := p.completedSlots + 1 }
  { s with completedUnits := s.completedUnits + 1 }

/-- The slots that a device has not done yet. -/
def openSlots (s : RunState) (deviceId : String) : Nat :=
  s.request.slotsPerDevice.toNat - ((s.device? deviceId).getD .initial).completedSlots.toNat

/-- Count all slots of a device as done, as when its task ends early. -/
def settleDevice (s : RunState) (deviceId : String) : RunState :=
  let remaining := s.openSlots deviceId
  let s := s.updateDevice deviceId fun p =>
    { p with completedSlots := s.request.slotsPerDevice }
  { s with completedUnits := s.completedUnits + .ofNat remaining }

/-- The share of slots that are done, in percent. -/
def overallProgress (s : RunState) : Double :=
  if s.totalUnits = 0 then .ofNat 100
  else
    (((Double.ofNat s.completedUnits).div (.ofNat s.totalUnits)).mul (.ofNat 100)).min (.ofNat 100)

/-- The run as it is now. -/
def snapshot (s : RunState) : RunSnapshot where
  runId := s.runId
  suiteId := s.suiteId
  suiteName := s.suiteName
  status := s.status
  stopRequested := s.stopRequested
  startedAt := s.startedAt
  devices := s.devices
  completedUnits := s.completedUnits
  totalUnits := s.totalUnits
  overallProgress := s.overallProgress
  request := s.request

end RunState

/-- All runs by number, and the numbers of the active ones by identifier, in the order in which
they became active. -/
structure Registry where
  runs : List RunState
  active : List (String × Nat)

namespace Registry

/-- No run has begun. -/
def empty : Registry := ⟨[], []⟩

/-- Add a run that is not active yet; its number is the number of runs before it. -/
def add (r : Registry) (s : RunState) : Registry := { r with runs := r.runs ++ [s] }

/-- The state of a run. -/
def run? (r : Registry) (number : Nat) : Option RunState := r.runs[number]?

/-- Change the state of a run. -/
def update (r : Registry) (number : Nat) (f : RunState → RunState) : Registry :=
  { r with runs := r.runs.modify number f }

/-- Put an identifier with its number among the active ones, in the place of the run that has the
same identifier. -/
def activate (runId : String) (number : Nat) : List (String × Nat) → List (String × Nat)
  | [] => [(runId, number)]
  | entry :: rest =>
    if entry.1 = runId then (runId, number) :: rest else entry :: activate runId number rest

/-- Make a run active. -/
def insert (r : Registry) (number : Nat) : Registry :=
  match r.run? number with
  | none => r
  | some s => { r with active := activate s.runId number r.active }

/-- The number of the active run with an identifier. -/
def find? (r : Registry) (runId : String) : Option Nat := r.active.lookup runId

/-- The state of the active run with an identifier. -/
def get? (r : Registry) (runId : String) : Option RunState := (r.find? runId).bind r.run?

/-- Make the run with an identifier inactive; its state is kept. -/
def remove (r : Registry) (runId : String) : Registry :=
  { r with active := r.active.filter fun entry => entry.1 != runId }

/-- Raise the stop flag of the active run with an identifier. -/
def stop (r : Registry) (runId : String) : Registry :=
  match r.find? runId with
  | none => r
  | some number => r.update number RunState.requestStop

/-- The active runs, the oldest first. -/
def snapshots (r : Registry) : List RunSnapshot :=
  ((r.active.filterMap fun entry => r.run? entry.2).map RunState.snapshot).mergeSort
    fun a b => !b.startedAt.isBefore a.startedAt

/-- The number of active runs. -/
def size (r : Registry) : Nat := r.active.length

end Registry

end DeviceSuite
