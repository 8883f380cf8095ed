import DeviceSuite.Graph.Navigator
import DeviceSuite.Run.Step

/-!
# Walking through a scenario

A scenario is run by walking its graph from the start node, one step after the other, until the
walk ends or a step fails. The stop flag is looked at before every node but an end node: a walk
that has reached an end keeps its outcome.
-/

namespace DeviceSuite

namespace ScenarioResult

/-- A slot that is about to begin, and passes unless something fails. -/
def blank (g : Graph) (iteration : UInt32) (now : Instant) : ScenarioResult where
  scenarioId := g.id
  scenarioName := g.name
  iteration := iteration
  status := .passed
  startedAt := now
  completedAt := now
  durationMs := 0
  error := none
  stepResults := []
  screenshots := []
  videoPath := none

/-- The slot with a failure. -/
def withFailure (r : ScenarioResult) (error : String) : ScenarioResult :=
  { r with status := .failed, error := some error }

end ScenarioResult

namespace SlotPlan

/-- Walk on from a node that has been entered. -/
def walk (p : SlotPlan) (nav : Navigator) (n : Node) (result : ScenarioResult) :
    RunTask ScenarioResult :=
  Task.bind Task.isStopped fun stopped =>
    if n.kind ≠ .finish && stopped then .done (result.withFailure DeviceError.stoppedText)
    else
      (p.step n result).bind fun
        | (result, .halt error) => .done (result.withFailure error)
        | (result, .next answer) =>
          match _h : nav.advance? n answer with
          | none => .done result
          | some (nav, next) => p.walk nav next result
termination_by nav.budget
decreasing_by exact Navigator.advance?_budget_lt _h

/-- The reason of a scenario that cannot be walked. -/
def noStartText : String := "scenario has no start node"

/-- Run a scenario. -/
def run (p : SlotPlan) (g : Graph) (iteration : UInt32) : RunTask ScenarioResult := do
  let started ← Task.now
  let result := ScenarioResult.blank g iteration (.ofMillis started)
  let result ← match (Navigator.new g p.settings.maxNodeVisits).start? with
    | none => pure (result.withFailure noStartText)
    | some (nav, n) => p.walk nav n result
  let ended ← Task.now
  return { result with completedAt := .ofMillis ended, durationMs := millis (ended - started) }

end SlotPlan

end DeviceSuite
