import DeviceSuite.Artifact.Desk
import DeviceSuite.Run.Role
import DeviceSuite.Task.Pool
import DeviceSuite.Task.Service

/-!
# The world of the runs

What the tasks of all runs share: the clock, the registry of the runs, the devices, the desk for
artifacts, the video recorder, the archive of results, and the log of events. The world is the
host of the tasks; everything takes no time but calls to devices, saves of artifacts, the video
recorder, and the archive.
-/

namespace DeviceSuite

/-- A video recorder that answers as it was told beforehand, and writes down what it was asked
for: `true` is a start. -/
structure Recorder where
  starts : List VideoOutcome
  stops : List VideoOutcome
  /-- The answer to a stop for which there is none beforehand. -/
  ending : Context → VideoOutcome
  log : List (Bool × Context)
  startDelay : Context → Nat := fun _ => 0
  stopDelay : Context → Nat := fun _ => 0

namespace Recorder

/-- A recorder that accepts every recording and keeps none. -/
def idle : Recorder where
  starts := []
  stops := []
  ending _ := .started
  log := []

/-- Start a recording. -/
def start (r : Recorder) (c : Context) : Recorder × VideoOutcome :=
  ({ r with starts := r.starts.tail, log := r.log ++ [(true, c)] }, r.starts.head?.getD .started)

/-- Stop a recording. -/
def stop (r : Recorder) (c : Context) : Recorder × VideoOutcome :=
  ({ r with stops := r.stops.tail, log := r.log ++ [(false, c)] },
    r.stops.head?.getD (r.ending c))

end Recorder

/-- The results that are kept. Results are lost when the archive fails to keep them. -/
structure Archive where
  results : ResultStore
  fails : Bool
  delay : SuiteResult → Nat

namespace Archive

/-- An empty archive that takes no time. -/
def empty : Archive := ⟨.empty, false, fun _ => 0⟩

/-- Keep a result. -/
def keep (a : Archive) (r : SuiteResult) : Archive :=
  if a.fails then a else { a with results := a.results.save r }

end Archive

/-- What the tasks of the runs share; `σ` are the states of the devices. -/
structure World (σ : Type) where
  now : Nat
  registry : Registry
  /-- The crews by the numbers of their runs. -/
  crews : List Crew
  devices : TextMap σ
  desk : Option (ArtifactDesk Role)
  recorder : Recorder
  archive : Archive
  /-- The events, each with its time. -/
  events : List (Nat × Event)
  /-- The looks at the active runs that devices asked for. -/
  snapshots : List (List RunSnapshot)

namespace World

variable {σ : Type}

/-- The crew of a run. -/
def crew? (w : World σ) (run : Nat) : Option Crew := w.crews[run]?

/-- Change the crew of a run. -/
def updateCrew (w : World σ) (run : Nat) (f : Crew → Crew) : World σ :=
  { w with crews := w.crews.modify run f }

/-- Change the state of a run. -/
def updateRun (w : World σ) (run : Nat) (f : RunState → RunState) : World σ :=
  { w with registry := w.registry.update run f }

/-- Change the sink, if there is one. -/
def updateSink (w : World σ) (f : ArtifactSink → ArtifactSink) : World σ :=
  { w with desk := w.desk.map (·.mapSink f) }

/-- Whether a run is to stop. -/
def isStopped (w : World σ) (run : Nat) : Bool :=
  (w.registry.run? run).any RunState.stopRequested

/-- Raise the stop flags of all active runs. -/
def stopAll (w : World σ) : World σ :=
  { w with registry := w.registry.active.foldl (fun r entry => r.stop entry.1) w.registry }

/-- Do what a device asks for. -/
def heed (w : World σ) : Signal → World σ
  | .snapshot => { w with snapshots := w.snapshots ++ [w.registry.snapshots] }
  | .stop => w.stopAll

/-- Begin a call to a device, and tell how long it takes. -/
def acceptDevice (service : Service DeviceCall.Reply σ) (w : World σ) (deviceId : String)
    (c : DeviceCall) : World σ × Nat :=
  match w.devices.get? deviceId with
  | none => (w, 0)
  | some device =>
    let taken := service.accept w.now device c
    (taken.signals.foldl heed { w with devices := w.devices.insert deviceId taken.state },
      taken.latency)

/-- End a call to a device; one that does not exist crashes. -/
def answerDevice (service : Service DeviceCall.Reply σ) (w : World σ) (deviceId : String)
    (c : DeviceCall) : World σ × Option c.Reply :=
  match w.devices.get? deviceId with
  | none => (w, none)
  | some device =>
    let (device, reply) := service.answer w.now device c
    ({ w with devices := w.devices.insert deviceId device }, reply)

/-- The device of a task; a lead has none. -/
def deviceOf : Role → String
  | .lead _ => ""
  | .tour _ _ deviceId => deviceId

/-- A call is to be made: a save takes its place in the queue, and a lead that waits for the tours
lets them begin. -/
def announce (w : World σ) (role : Role) : RunCall → World σ
  | .save _ _ => { w with desk := w.desk.map (·.request role) }
  | .tours => w.updateCrew role.run Crew.start
  | _ => w

/-- Whether a call may begin: a save when it has a place, a tour when its run has begun, and the
end of a run when all its tours have ended. -/
def admits (w : World σ) (role : Role) : RunCall → Bool
  | .save _ _ => w.desk.all (·.queue.admits role)
  | .begun => (w.crew? role.run).any Crew.begun
  | .tours => (w.crew? role.run).all Crew.isComplete
  | _ => true

/-- Begin a call, and tell how long it takes. -/
def accept (service : Service DeviceCall.Reply σ) (w : World σ) (role : Role) :
    RunCall → World σ × Nat
  | .device c => w.acceptDevice service (deviceOf role) c
  | .save context artifact => (w, (w.desk.map fun d => d.delay context artifact).getD 0)
  | .startVideo context => (w, w.recorder.startDelay context)
  | .stopVideo context => (w, w.recorder.stopDelay context)
  | .archive result => (w, w.archive.delay result)
  | _ => (w, 0)

/-- Save an artifact; without a desk there is nobody to take it. -/
def save (w : World σ) (role : Role) (context : Context) (artifact : Artifact) :
    World σ × Except ArtifactError SavedArtifact :=
  match w.desk with
  | none => (w, .error .closed)
  | some desk =>
    let (desk, receipt) := desk.save role context artifact
    ({ w with desk := some desk }, receipt)

/-- End a call. -/
def answer (service : Service DeviceCall.Reply σ) (w : World σ) (role : Role) :
    (c : RunCall) → World σ × Option c.Reply
  | .device c => w.answerDevice service (deviceOf role) c
  | .save context artifact =>
    let (w, receipt) := w.save role context artifact
    (w, some receipt)
  | .startVideo context =>
    let (recorder, outcome) := w.recorder.start context
    ({ w with recorder := recorder }, some outcome)
  | .stopVideo context =>
    let (recorder, outcome) := w.recorder.stop context
    ({ w with recorder := recorder }, some outcome)
  | .emit e => ({ w with events := w.events ++ [(w.now, e)] }, some ())
  | .update f => (w.updateRun role.run f, some ())
  | .progress => (w, (w.registry.run? role.run).map RunState.overallProgress)
  | .register context => (w.updateSink (·.register context), some ())
  | .unregister context => (w.updateSink (·.unregister context), some ())
  | .begun => (w, some ())
  | .tours => (w, (w.crew? role.run).map Crew.outcomes)
  | .archive result => ({ w with archive := w.archive.keep result }, some ())
  | .retire =>
    (match w.registry.run? role.run with
      | none => w
      | some run => { w with registry := w.registry.remove run.runId }, some ())

/-- A task has ended. -/
def finish (w : World σ) (role : Role) (ending : Option RoleResult) : World σ :=
  match role with
  | .lead run => w.updateCrew run (·.close (RoleResult.lead? ending))
  | .tour run place _ => w.updateCrew run (·.report place (RoleResult.tour? ending))

/-- The world as the host of the tasks of all runs. -/
def host (service : Service DeviceCall.Reply σ) : Host RunCall.Reply RoleResult Role (World σ) where
  now := now
  atTime time w := { w with now := time }
  isStopped w role := w.isStopped role.run
  announce := announce
  admits := admits
  accept := accept service
  answer := answer service
  finish := finish

end World

end DeviceSuite
