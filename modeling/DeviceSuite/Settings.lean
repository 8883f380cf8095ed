import DeviceSuite.Policy

/-!
# Settings of the engine

The policies and limits that hold for every run unless a step says otherwise.
-/

namespace DeviceSuite

/-- The settings of an engine. -/
structure Settings where
  retry : RetryPolicy
  poll : PollPolicy
  artifactConcurrency : UInt64
  eventCapacity : UInt64
  maxNodeVisits : UInt32
  captureOnFailure : Bool
  deriving DecidableEq, Repr

namespace Settings

/-- Two artifacts are saved at a time, a node is visited once, failures are photographed. -/
def default : Settings := ⟨.default, .default, 2, 1024, 1, true⟩

/-- The fields of settings. -/
abbrev fields : List Field :=
  [.defaulted "retry" RetryPolicy.codec default.retry,
    .defaulted "poll" PollPolicy.codec default.poll,
    .defaulted "artifact_concurrency" .count default.artifactConcurrency,
    .defaulted "event_capacity" .count default.eventCapacity,
    .defaulted "max_node_visits" .uint32 default.maxNodeVisits,
    .defaulted "capture_on_failure" .bool default.captureOnFailure]

/-- The codec of settings. -/
def codec : Codec Settings :=
  .record "EngineConfig" fields
    (fun (retry, poll, artifactConcurrency, eventCapacity, maxNodeVisits, captureOnFailure, ()) =>
      ⟨retry, poll, artifactConcurrency, eventCapacity, maxNodeVisits, captureOnFailure⟩)
    (fun s => (s.retry, s.poll, s.artifactConcurrency, s.eventCapacity, s.maxNodeVisits,
      s.captureOnFailure, ()))

/-- The retry policy of a step. -/
def retryFor (s : Settings) (o : StepOptions) : RetryPolicy := s.retry.override o

/-- The poll policy of a step. -/
def pollFor (s : Settings) (o : StepOptions) : PollPolicy := s.poll.override o

end Settings

end DeviceSuite
