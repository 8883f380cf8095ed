import DeviceSuite.Run.Lead
import DeviceSuite.Run.Tour
import DeviceSuite.Run.World
import DeviceSuite.Session.Error

/-!
# Sessions

A session knows devices, scenarios and suites, and begins runs with them. Nothing of a run happens
until time is given to it. A request is checked before anything of its run exists: whether it
names devices, scenarios and a repeat, whether each device is connected, and whether each scenario
is there and has a start node, in this order, and the first fault is the answer.
-/

namespace DeviceSuite

/-- A store that fails for some identifiers. -/
structure Shelf (α : Type) where
  items : TextMap α
  faults : TextMap StoreError

namespace Shelf

variable {α : Type}

/-- A store of nothing. -/
def empty : Shelf α := ⟨.empty, .empty⟩

/-- Ask for an item. -/
def fetch (s : Shelf α) (id : String) : Except StoreError (Option α) :=
  match s.faults.get? id with
  | some fault => .error fault
  | none => .ok (s.items.get? id)

end Shelf

/-- Where the settings of a session come from. -/
inductive SettingsSource where
  | given (settings : Settings)
  | file (content : String)
  | missing (path : String)

/-- The settings from a source. -/
def SettingsSource.read : SettingsSource → Except SessionError Settings
  | given settings => .ok settings
  | file content => (Settings.codec.ofText content).mapError .settings
  | missing path => .error (.unreadable path)

/-- What a session is opened with; `σ` are the states of the devices. Identifiers of runs and of
suites that are not stored are drawn outside, by the number of the run. -/
structure SessionPlan (σ : Type) where
  service : Service DeviceCall.Reply σ
  devices : List (String × σ)
  scenarios : Shelf Graph
  suites : Shelf Suite
  archive : Archive
  readFault : Option (String → StoreError)
  listFault : Option StoreError
  desk : Option (Nat → ArtifactDesk Role)
  recorder : Recorder
  runId : Nat → String
  suiteId : Nat → String

/-- A session. Whoever begins a run gets a handle of it, and `handles` are the numbers of the runs
whose handle is still there. -/
structure Session (σ : Type) where
  plan : SessionPlan σ
  settings : Settings
  scenarios : Shelf Graph
  connected : List String
  handles : List Nat
  pool : Pool RunCall.Reply RoleResult Role (World σ)

namespace Session

variable {σ : Type}

/-- Open a session. There must be a place for saving artifacts, whether any are saved or not. -/
def setUp (plan : SessionPlan σ) (source : SettingsSource) : Except SessionError (Session σ) := do
  let settings ← source.read
  if settings.artifactConcurrency = 0 then throw .noPlaces
  let world : World σ :=
    { now := 0
      registry := .empty
      crews := []
      devices := .ofList plan.devices
      desk := plan.desk.map fun make => make settings.artifactConcurrency.toNat
      recorder := plan.recorder
      archive := plan.archive
      events := []
      snapshots := [] }
  return {
    plan := plan
    settings := settings
    scenarios := plan.scenarios
    connected := plan.devices.map (·.1)
    handles := []
    pool := .empty world }

/-- What the tasks share. -/
def world (s : Session σ) : World σ := s.pool.shared

/-- The host of the tasks. -/
def host (s : Session σ) : Host RunCall.Reply RoleResult Role (World σ) :=
  World.host s.plan.service

/-- The time. -/
def now (s : Session σ) : Nat := s.world.now

/-- Change what the tasks share. -/
def change (s : Session σ) (f : World σ → World σ) : Session σ :=
  { s with pool := s.pool.change s.host f }

/-! ## Beginning runs -/

/-- An attempt to do something with a session. It may fail at any point, and what was done to the
session before that stays done. -/
abbrev Attempt (σ α : Type) : Type := ExceptT SessionError (StateM (Session σ)) α

/-- What an attempt comes to: an error, or the session afterwards with what was asked for. -/
def Attempt.outcome {α : Type} (attempt : Attempt σ α) (s : Session σ) :
    Except SessionError (Session σ × α) :=
  match attempt.run s with
  | (.ok x, s') => .ok (s', x)
  | (.error e, _) => .error e

/-- Find a device that is connected. -/
def findDevice (id : String) : Attempt σ Unit := do
  if id ∉ (← get).connected then throw (.refused (.deviceNotFound id))

/-- Load a scenario that can be run. -/
def loadScenario (id : String) : Attempt σ Graph := do
  match (← get).scenarios.fetch id with
  | .error fault => throw (.scenarioStore fault)
  | .ok none => throw (.refused (.scenarioNotFound id))
  | .ok (some graph) =>
    if graph.startNode?.isNone then throw (.refused (.noStartNode id))
    return graph

/-- Check a request, and load its scenarios. -/
def prepare (request : Request) : Attempt σ (List Graph) := do
  if request.deviceIds.isEmpty then throw (.refused .noDevices)
  if request.scenarioIds.isEmpty then throw (.refused .noScenarios)
  if request.repeatCount = 0 then throw (.refused (.repeatCount 0))
  request.deviceIds.forM findDevice
  request.scenarioIds.mapM loadScenario

/-- The instant at which a run begins; no two runs begin at the same one. -/
def startInstant (now number : Nat) : Instant :=
  let instant := Instant.ofMillis now
  { instant with nanos := instant.nanos + number }

/-- The tour of a device, which waits until its run has begun. -/
def tour (s : Session σ) (run : RunState) (scenarios : List Graph) (place : Nat)
    (deviceId : String) : Strand RunCall.Reply RoleResult :=
  let tour : Tour :=
    { settings := s.settings
      keepsArtifacts := s.world.desk.isSome
      run := run
      scenarios := scenarios
      deviceId := deviceId
      place := place + 1 }
  .waiting RunCall.begun fun _ => do return .tour (← tour.conduct)

/-- Begin a run of a checked request, and tell its number, of which there is a handle now. -/
def launch (s : Session σ) (suiteId suiteName : String) (request : Request)
    (scenarios : List Graph) : Session σ × Nat :=
  let number := s.world.registry.runs.length
  let run := RunState.new (s.plan.runId number) suiteId suiteName request
    (startInstant s.now number)
  let s := s.change fun w =>
    { w with
      registry := (w.registry.add run).insert number
      crews := w.crews ++ [.new request.deviceIds.length] }
  let lead : Strand RunCall.Reply RoleResult := .ready do return .lead (← RunTask.lead run)
  let pool := request.deviceIds.zipIdx.foldl
    (fun pool (id, place) =>
      pool.spawn s.host (.tour number place id) (s.tour run scenarios place id))
    (s.pool.spawn s.host (.lead number) lead)
  ({ s with handles := s.handles ++ [number], pool := pool }, number)

/-- The name of the suite of a request that comes from no stored suite. -/
def adHocName : String := "Ad-hoc run"

/-- Begin a run of a request that passes the checks. -/
def begin (suiteId suiteName : String) (request : Request) : Attempt σ Nat := do
  let scenarios ← prepare request
  let (s, number) := (← get).launch suiteId suiteName request scenarios
  set s
  return number

/-- Execute a request. -/
def execute (request : Request) : Attempt σ Nat := do
  let s ← get
  begin (s.plan.suiteId s.world.registry.runs.length) adHocName request

/-- Execute a stored suite. -/
def executeSuite (id : String) : Attempt σ Nat := do
  match (← get).plan.suites.fetch id with
  | .error fault => throw (.suiteStore fault)
  | .ok none => throw (.refused (.suiteNotFound id))
  | .ok (some suite) => begin suite.id suite.name (.ofSuite suite "suite")

/-- Begin a run of a request. -/
def start (s : Session σ) (request : Request) : Except SessionError (Session σ × Nat) :=
  (execute request).outcome s

/-- Begin a run of a stored suite. -/
def startSuite (s : Session σ) (id : String) : Except SessionError (Session σ × Nat) :=
  (executeSuite id).outcome s

/-! ## Giving time -/

/-- The result of a run that is over. -/
def result? (s : Session σ) (run : Nat) : Option SuiteResult :=
  (s.world.crew? run).bind Crew.result

/-- Let time pass. What is due at the very end of it is left for later. -/
def advance (s : Session σ) (ms : Nat) : Session σ :=
  if ms = 0 then s
  else
    let time := s.now + ms
    let s := { s with pool := s.pool.run s.host (some time) fun _ => false }
    s.change fun w => { w with now := time }

/-- Let go of the handle of a run. -/
def release (s : Session σ) (run : Nat) : Session σ :=
  { s with handles := s.handles.filter (· ≠ run) }

/-- Let time pass until a run is over. The handle is used up by this. -/
def wait (s : Session σ) (run : Nat) : Session σ :=
  let isOver (w : World σ) := ((w.crew? run).bind Crew.result).isSome
  let s := { s with pool := s.pool.run s.host none isOver }
  s.release run

/-- Let time pass until a run is over, but not longer than given; the run goes on afterwards. Tell
whether it is over. The handle is let go either way. -/
def waitAtMost (s : Session σ) (run ms : Nat) : Session σ × Bool :=
  let s := s.release run
  if ms = 0 then (s, false)
  else
    let isOver (w : World σ) := ((w.crew? run).bind Crew.result).isSome
    let time := s.now + ms
    let s := { s with pool := s.pool.run s.host (some time) isOver }
    if isOver s.world then (s, true) else (s.change fun w => { w with now := time }, false)

/-! ## Looking and interfering -/

/-- Raise the stop flag of the active run with an identifier, and tell whether there is one. -/
def stop (s : Session σ) (runId : String) : Session σ × Bool :=
  (s.change fun w => { w with registry := w.registry.stop runId },
    (s.world.registry.find? runId).isSome)

/-- Raise the stop flag of a run, active or not. Its handle does so, and whoever was given the run's
state while it was active. -/
def stopRun (s : Session σ) (run : Nat) : Session σ :=
  s.change fun w => w.updateRun run RunState.requestStop

/-- The active run with an identifier as it is now. -/
def status? (s : Session σ) (runId : String) : Option RunSnapshot :=
  (s.world.registry.get? runId).map RunState.snapshot

/-- A run as it is now, active or not, told by its handle as long as there is one. -/
def snapshot? (s : Session σ) (run : Nat) : Option RunSnapshot :=
  if run ∈ s.handles then (s.world.registry.run? run).map RunState.snapshot else none

/-- The active runs as they are now, the oldest first. -/
def active (s : Session σ) : List RunSnapshot := s.world.registry.snapshots

/-- A result that has been kept. -/
def archived (s : Session σ) (runId : String) : Except SessionError (Option SuiteResult) :=
  match s.plan.readFault with
  | some fault => .error (.resultStore (fault runId))
  | none => .ok (s.world.archive.results.get? runId)

/-- The results that have been kept, of one suite or of all, the newest first. -/
def history (s : Session σ) (suiteId : Option String) : Except SessionError (List SuiteResult) :=
  match s.plan.listFault with
  | some fault => .error (.resultStore fault)
  | none => .ok (s.world.archive.results.newestFirst suiteId)

/-- Put a scenario into the store. -/
def insertScenario (s : Session σ) (g : Graph) : Session σ :=
  { s with scenarios := { s.scenarios with items := ScenarioStore.save s.scenarios.items g } }

/-- Take a scenario out of the store, and tell whether it was there. -/
def removeScenario (s : Session σ) (id : String) : Session σ × Bool :=
  ({ s with scenarios := { s.scenarios with items := s.scenarios.items.erase id } },
    s.scenarios.items.contains id)

/-- Disconnect a device, and tell whether it was connected. A run that has begun keeps it. -/
def disconnect (s : Session σ) (id : String) : Session σ × Bool :=
  ({ s with connected := s.connected.filter (· != id) }, s.connected.contains id)

end Session

end DeviceSuite
