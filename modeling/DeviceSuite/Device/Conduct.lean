import DeviceSuite.Condition
import DeviceSuite.Device.Await
import DeviceSuite.Settings
import DeviceSuite.Task.Retry

/-!
# Actions and conditions on a device

A command is attempted as often as the retry policy allows. A pause and a wait are not attempted
again. A condition is one look that is attempted like a command; when it ends in an error, the
answer is no, whatever the condition asks for.
-/

namespace DeviceSuite

/-- Carry out a command, and note in its outcome how long it took and how often it was tried. -/
def Command.conduct (c : Command) (policy : RetryPolicy) :
    DeviceTask (Except DeviceError Outcome) := do
  let started ← Task.now
  let result ← Task.retry policy DeviceError.isRetryable fun attempt => do
    return (← Task.ask (DeviceCall.perform c)).map fun outcome => (attempt, outcome)
  match result with
  | .error e => return .error e
  | .ok (attempt, outcome) =>
    let elapsed := (← Task.now) - started
    return .ok (outcome.withPerformance
      { outcome.performance.getD .zero with
        totalMs := millis elapsed
        attempts := some (.ofNat attempt) })

namespace Action

/-- Do nothing for a time; to be stopped meanwhile is an error. -/
def rest (ms : UInt64) : DeviceTask (Except DeviceError Outcome) := do
  let started ← Task.now
  if ← Task.sleep ms.toNat then
    let waited := millis ((← Task.now) - started)
    return .ok (Outcome.ok.withPerformance
      { Performance.zero with totalMs := waited, waitedMs := some waited })
  else return .error .stopped

/-- Carry out an action under the settings and the options of its step. -/
def conduct (a : Action) (settings : Settings) (options : StepOptions) :
    DeviceTask (Except DeviceError Outcome) :=
  match a with
  | perform command => command.conduct (settings.retryFor options)
  | pause ms => rest ms
  | await target present => target.await present (settings.pollFor options)

end Action

/-- Find out whether a condition holds. -/
def Condition.holds (c : Condition) (policy : RetryPolicy) : DeviceTask Bool := do
  match ← Task.retry policy DeviceError.isRetryable
    (fun _ => Task.ask (DeviceCall.locate c.target)) with
  | .ok finding => return finding.isPresent = c.present
  | .error _ => return false

namespace Node

/-- The outcome of the action of a node, and whether it was broken off by a stop. Nothing escapes
as an error: a node without an action and a call that fails are failed outcomes. -/
def conduct (n : Node) (settings : Settings) (options : StepOptions) :
    DeviceTask (Outcome × Bool) := do
  let started ← Task.now
  let result : Except DeviceError Outcome ← match n.action with
    | .ok action => action.conduct settings options
    | .error e => pure (.ok (.failed e.message))
  let (outcome, stopped) := match result with
    | .ok outcome => (outcome, false)
    | .error e => (.failed e.text, decide (e = DeviceError.stopped))
  let performance := outcome.performance.getD .zero
  let elapsed := (← Task.now) - started
  let totalMs := if performance.totalMs = 0 then millis elapsed else performance.totalMs
  return (outcome.withPerformance { performance with totalMs := totalMs }, stopped)

/-- The answer of a condition node; one that cannot be read is answered with no. -/
def evaluate (n : Node) (settings : Settings) (options : StepOptions) : DeviceTask Bool :=
  match n.condition with
  | .ok condition => condition.holds (settings.retryFor options)
  | .error _ => pure false

end Node

end DeviceSuite
