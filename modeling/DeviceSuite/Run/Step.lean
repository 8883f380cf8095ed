import DeviceSuite.Device.Conduct
import DeviceSuite.Graph.Basic
import DeviceSuite.Instant.Printer
import DeviceSuite.Run.Call

/-!
# Steps

What happens at one node of a scenario. Every step but those of start and end nodes is told when
it begins and leaves a record; the record of a step that waits is preceded by one that says so. A
step that fails is photographed, if there is somewhere to put the picture.
-/

namespace DeviceSuite

/-- What a slot is run with: the settings, whether artifacts are kept, and where it belongs. -/
structure SlotPlan where
  settings : Settings
  keepsArtifacts : Bool
  context : Context

/-- How a walk goes on after a step: along an edge, for a condition with its answer, or not at
all. -/
inductive Flow where
  | next (answer : Option Bool)
  | halt (error : String)

namespace SlotPlan

/-- The name of the file for the picture of a failure at a node. -/
def pictureName (p : SlotPlan) (n : Node) (time : Instant) : String :=
  p.context.deviceId ++ "_" ++ p.context.scenarioId.getD "scenario" ++ "_" ++ n.id ++ "_" ++
    time.stamp ++ ".png"

/-- Take a picture of a failure and save it. Nothing comes of it when either fails. -/
def photograph (p : SlotPlan) (n : Node) : RunTask (Option String) := do
  match ← RunTask.onDevice (Task.ask DeviceCall.screenshot) with
  | .error _ => return none
  | .ok bytes =>
    let artifact : Artifact :=
      ⟨.failureScreenshot, some n.id, p.pictureName n (← RunTask.instant), bytes⟩
    match ← Task.ask (RunCall.save p.context artifact) with
    | .error _ => return none
    | .ok saved => return some saved.path

/-- Carry out the action of a node, and photograph its failure unless a stop is the reason. -/
def conduct (p : SlotPlan) (n : Node) (options : StepOptions) :
    RunTask (Outcome × Option String) := do
  let (outcome, stopped) ← RunTask.onDevice (n.conduct p.settings options)
  let photographed :=
    !outcome.success && !stopped && p.settings.captureOnFailure && p.keepsArtifacts
  let picture ← if photographed then p.photograph n else pure none
  return (outcome, picture)

/-- The record of a step. -/
def record (n : Node) (time : Instant) (status : StepStatus) (durationMs : Nat)
    (error : Option String) (performance : Option Performance) : StepResult where
  nodeId := n.id
  nodeName := n.displayName
  actionType := n.stepType
  status := status
  durationMs := millis durationMs
  error := error
  timestamp := time
  performance := performance

/-- Tell that a step is complete, and append its record. -/
def complete (p : SlotPlan) (result : ScenarioResult) (step : StepResult) :
    RunTask ScenarioResult := do
  RunTask.emit (.stepComplete p.context.runId p.context.deviceId result.scenarioId step)
  return { result with stepResults := result.stepResults ++ [step] }

/-- The step of an action node. -/
def act (p : SlotPlan) (n : Node) (options : StepOptions) (started : Nat)
    (result : ScenarioResult) : RunTask (ScenarioResult × Flow) := do
  let waits := ActionKind.isWaitName n.stepType
  let result ← if waits then do
      let waiting := record n (.ofMillis started) .waiting 0 none none
      RunTask.emit (.stepWaiting p.context.runId p.context.deviceId result.scenarioId waiting)
      pure { result with stepResults := result.stepResults ++ [waiting] }
    else pure result
  let (outcome, picture) ← p.conduct n options
  let result := { result with screenshots := result.screenshots ++ picture.toList }
  let ended ← Task.now
  let time := Instant.ofMillis (if waits then ended else started)
  if outcome.success then
    let step := record n time .passed (ended - started) none outcome.performance
    return (← p.complete result step, .next none)
  else
    let error := outcome.message.getD (n.stepType ++ " failed")
    let step := record n time .failed (ended - started) (some error) outcome.performance
    return (← p.complete result step, .halt error)

/-- The step of a condition node, which passes whatever the answer is. -/
def decide (p : SlotPlan) (n : Node) (options : StepOptions) (started : Nat)
    (result : ScenarioResult) : RunTask (ScenarioResult × Flow) := do
  let answer ← RunTask.onDevice (n.evaluate p.settings options)
  let elapsed := (← Task.now) - started
  let step := record n (.ofMillis started) .passed elapsed none none
  return (← p.complete result step, .next (some answer))

/-- The step of a node. A disabled node is skipped, and a condition among them has no answer. -/
def step (p : SlotPlan) (n : Node) (result : ScenarioResult) :
    RunTask (ScenarioResult × Flow) := do
  if n.kind = .start || n.kind = .finish then return (result, .next none)
  let options := n.options
  let started ← Task.now
  RunTask.emit (.stepStart p.context.runId p.context.deviceId result.scenarioId n.id n.displayName
    n.stepType (.ofMillis started))
  if options.disabled then
    let step := record n (.ofMillis started) .skipped 0 none none
    return (← p.complete result step, .next none)
  if n.kind = .condition then p.decide n options started result
  else p.act n options started result

end SlotPlan

end DeviceSuite
