import DeviceSuite.Artifact
import DeviceSuite.Graph.Basic
import DeviceSuite.Request
import DeviceSuite.Result

/-!
# Stores

Scenarios, suites and results by their identifiers, and artifacts in the order in which they were
saved. A value replaces the one with the same identifier; artifacts never replace each other.
-/

namespace DeviceSuite

/-- Scenarios by identifier. -/
abbrev ScenarioStore := TextMap Graph

/-- Put a scenario under its identifier. -/
def ScenarioStore.save (s : ScenarioStore) (g : Graph) : ScenarioStore := s.insert g.id g

/-- The store of a list of scenarios. -/
def ScenarioStore.ofGraphs (graphs : List Graph) : ScenarioStore :=
  graphs.foldl ScenarioStore.save .empty

/-- Suites by identifier. -/
abbrev SuiteStore := TextMap Suite

/-- Put a suite under its identifier. -/
def SuiteStore.save (s : SuiteStore) (suite : Suite) : SuiteStore := s.insert suite.id suite

/-- Results by the identifier of their run. -/
abbrev ResultStore := TextMap SuiteResult

/-- Put a result under its identifier. -/
def ResultStore.save (s : ResultStore) (r : SuiteResult) : ResultStore := s.insert r.id r

/-- The results of a suite, or of all, the newest first and those of one instant by identifier. -/
def ResultStore.newestFirst (s : ResultStore) (suiteId : Option String) : List SuiteResult :=
  ((s.entries.map (·.2)).filter fun r => suiteId.all (· == r.suiteId)).mergeSort
    fun a b => !a.startedAt.isBefore b.startedAt

/-- A sink for artifacts: the pairs of report and device that are registered, and what has been
saved. -/
structure ArtifactSink where
  contexts : List (String × String)
  saved : List (SavedArtifact × List UInt8)

namespace ArtifactSink

/-- A sink that holds nothing. -/
def empty : ArtifactSink := ⟨[], []⟩

/-- Whether a device is registered for a report. -/
def isRegistered (s : ArtifactSink) (reportId deviceId : String) : Bool :=
  s.contexts.contains (reportId, deviceId)

/-- Register the device of a context for its report; a second registration changes nothing. -/
def register (s : ArtifactSink) (c : Context) : ArtifactSink :=
  if s.isRegistered c.reportId c.deviceId then s
  else { s with contexts := s.contexts ++ [(c.reportId, c.deviceId)] }

/-- Unregister the device of a context. -/
def unregister (s : ArtifactSink) (c : Context) : ArtifactSink :=
  { s with contexts := s.contexts.filter fun entry => entry != (c.reportId, c.deviceId) }

/-- The place of an artifact: its report, its device and its file name. -/
def path (c : Context) (fileName : String) : String :=
  c.reportId ++ "/" ++ c.deviceId ++ "/" ++ fileName

/-- What saving an artifact answers; an artifact without content is refused. -/
def receipt (c : Context) (a : Artifact) : Except ArtifactError SavedArtifact :=
  if a.bytes.isEmpty then .error (.write (a.fileName ++ " is empty"))
  else .ok ⟨path c a.fileName, a.kind, c.deviceId, c.reportId⟩

/-- Save an artifact. -/
def save (s : ArtifactSink) (c : Context) (a : Artifact) : ArtifactSink :=
  match receipt c a with
  | .ok r => { s with saved := s.saved ++ [(r, a.bytes)] }
  | .error _ => s

/-- The content of the first artifact saved at a place. -/
def content? (s : ArtifactSink) (path : String) : Option (List UInt8) :=
  (s.saved.find? fun entry => entry.1.path == path).map (·.2)

end ArtifactSink

end DeviceSuite
