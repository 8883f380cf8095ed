import DeviceSuite.Codec.Choice
import DeviceSuite.Codec.Record

/-!
# Artifacts

What a run leaves behind besides its result, and the context by which it is found again.
-/

namespace DeviceSuite

/-- Where an artifact belongs: to a run and its report, to a device, and to a slot of it. -/
structure Context where
  runId : String
  reportId : String
  deviceId : String
  scenarioId : Option String
  iteration : Option UInt32
  deriving DecidableEq, Repr

namespace Context

/-- The context of a device outside any slot. -/
def forDevice (runId reportId deviceId : String) : Context :=
  ⟨runId, reportId, deviceId, none, none⟩

/-- The context of a slot of the same device. -/
def forScenario (c : Context) (scenarioId : String) (iteration : UInt32) : Context :=
  { c with scenarioId := some scenarioId, iteration := some iteration }

/-- The fields of a context. -/
abbrev fields : List Field :=
  [.required "suiteRunId" .string, .required "reportId" .string, .required "deviceId" .string,
    .optional "scenarioId" .string, .optional "repeat" .uint32]

/-- The codec of contexts. -/
def codec : Codec Context :=
  .record "CorrelationContext" fields
    (fun (runId, reportId, deviceId, scenarioId, iteration, ()) =>
      ⟨runId, reportId, deviceId, scenarioId, iteration⟩)
    (fun c => (c.runId, c.reportId, c.deviceId, c.scenarioId, c.iteration, ()))

end Context

/-- The kinds of artifact. -/
inductive ArtifactKind where
  | failureScreenshot
  deriving DecidableEq, Repr

namespace ArtifactKind

/-- The written name of a kind. -/
def name : ArtifactKind → String
  | failureScreenshot => "failure_screenshot"

/-- The codec of kinds. -/
def codec : Codec ArtifactKind := .choice [failureScreenshot] name

end ArtifactKind

/-- An artifact to be saved. -/
structure Artifact where
  kind : ArtifactKind
  nodeId : Option String
  fileName : String
  bytes : List UInt8
  deriving DecidableEq, Repr

/-- A saved artifact. -/
structure SavedArtifact where
  path : String
  kind : ArtifactKind
  deviceId : String
  reportId : String
  deriving DecidableEq, Repr

namespace SavedArtifact

/-- The fields of a saved artifact. -/
abbrev fields : List Field :=
  [.required "path" .string, .required "kind" ArtifactKind.codec, .required "deviceId" .string,
    .required "reportId" .string]

/-- The codec of saved artifacts. -/
def codec : Codec SavedArtifact :=
  .record "SavedArtifact" fields
    (fun (path, kind, deviceId, reportId, ()) => ⟨path, kind, deviceId, reportId⟩)
    (fun a => (a.path, a.kind, a.deviceId, a.reportId, ()))

end SavedArtifact

/-- Why an artifact was not saved. -/
inductive ArtifactError where
  | write (message : String)
  | closed
  deriving DecidableEq, Repr

/-- The wording of an error. -/
def ArtifactError.message : ArtifactError → String
  | write message => "artifact write failed: " ++ message
  | closed => "artifact queue closed"

/-- What a video recorder reports. -/
structure VideoOutcome where
  success : Bool
  localPath : Option String
  error : Option String
  deriving DecidableEq, Repr

namespace VideoOutcome

/-- A recording has begun. -/
def started : VideoOutcome := ⟨true, none, none⟩

/-- A recording is saved. -/
def saved (path : String) : VideoOutcome := ⟨true, some path, none⟩

/-- A recording failed. -/
def failed (error : String) : VideoOutcome := ⟨false, none, some error⟩

/-- The fields of a report. -/
abbrev fields : List Field :=
  [.required "success" .bool, .optional "localPath" .string, .optional "error" .string]

/-- The codec of reports. -/
def codec : Codec VideoOutcome :=
  .record "VideoOutcome" fields
    (fun (success, localPath, error, ()) => ⟨success, localPath, error⟩)
    (fun v => (v.success, v.localPath, v.error, ()))

end VideoOutcome

end DeviceSuite
