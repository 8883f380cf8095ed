import DeviceSuite.Artifact
import DeviceSuite.Device.Call
import DeviceSuite.Event
import DeviceSuite.Registry

/-!
# Calls within a run

The tasks of a run are one for each device and one that leads the run. Beside the calls to its
device, a task saves artifacts, has videos recorded, tells events, and keeps the books of the run.
The device of a task and its run are those it was begun for.
-/

namespace DeviceSuite

/-- What a device makes of its part of a run. -/
abbrev TourResult := Except DeviceError DeviceResult

/-- A call of a task of a run. -/
inductive RunCall where
  | device (c : DeviceCall)
  | save (context : Context) (artifact : Artifact)
  | startVideo (context : Context)
  | stopVideo (context : Context)
  | emit (e : Event)
  /-- Change the state of the run. -/
  | update (f : RunState → RunState)
  /-- Read how far the run has come, in percent. -/
  | progress
  | register (context : Context)
  | unregister (context : Context)
  /-- Wait until the run has begun. -/
  | begun
  /-- Let the devices begin, and wait until the tasks of all have ended. -/
  | tours
  /-- Keep the result of the run. -/
  | archive (result : SuiteResult)
  /-- Take the run off the list of active ones. -/
  | retire

/-- The reply to a call. The reply to `tours` has an entry for every device, which is empty when
its task crashed. -/
abbrev RunCall.Reply : RunCall → Type
  | device c => c.Reply
  | save _ _ => Except ArtifactError SavedArtifact
  | startVideo _ => VideoOutcome
  | stopVideo _ => VideoOutcome
  | progress => Double
  | tours => List (Option TourResult)
  | _ => Unit

/-- A task of a run. -/
abbrev RunTask := Task RunCall.Reply

namespace RunTask

/-- A task of the device as a task of the run. -/
def onDevice {α : Type} (t : DeviceTask α) : RunTask α := t.embed RunCall.device fun _ r => r

/-- Tell an event. -/
def emit (e : Event) : RunTask Unit := .ask (RunCall.emit e)

/-- Change the state of the run. -/
def update (f : RunState → RunState) : RunTask Unit := .ask (RunCall.update f)

/-- The instant of the clock. -/
def instant : RunTask Instant := do return .ofMillis (← Task.now)

end RunTask

end DeviceSuite
