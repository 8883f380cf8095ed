import DeviceSuite.Codec.Error

/-!
# What a session refuses

A run that is asked for is refused for what its request lacks, or because a store does not
answer. The wording tells where the trouble lies.
-/

namespace DeviceSuite

/-- Why a store does not answer. -/
inductive StoreError where
  | notFound (id : String)
  | failed (message : String)
  deriving DecidableEq, Repr

/-- The wording of a store of scenarios or suites. -/
def StoreError.message : StoreError → String
  | notFound id => "not found: " ++ id
  | failed message => "store error: " ++ message

/-- The wording of a store of results. -/
def StoreError.resultMessage : StoreError → String
  | notFound id => "result not found: " ++ id
  | failed message => "result store error: " ++ message

/-- Why a request cannot be run. -/
inductive Refusal where
  | suiteNotFound (id : String)
  | deviceNotFound (id : String)
  | scenarioNotFound (id : String)
  | noDevices
  | noScenarios
  | repeatCount (count : Nat)
  | noStartNode (scenarioId : String)
  deriving DecidableEq, Repr

/-- The wording of a refusal. -/
def Refusal.message : Refusal → String
  | suiteNotFound id => "suite not found: " ++ id
  | deviceNotFound id => "device not found: " ++ id
  | scenarioNotFound id => "scenario not found: " ++ id
  | noDevices => "no devices requested"
  | noScenarios => "no scenarios requested"
  | repeatCount count => "repeat count must be at least 1, got " ++ toString count
  | noStartNode scenarioId => "scenario " ++ scenarioId ++ " has no start node"

/-- Why a session cannot be opened or does not do what it is asked for. -/
inductive SessionError where
  | refused (reason : Refusal)
  | scenarioStore (reason : StoreError)
  | suiteStore (reason : StoreError)
  | resultStore (reason : StoreError)
  /-- The file with the settings cannot be read. -/
  | unreadable (path : String)
  | settings (reason : DecodeError)
  | noPlaces

namespace SessionError

/-- The wording of an error. -/
def message : SessionError → String
  | refused reason => "executor error: " ++ reason.message
  | scenarioStore reason => "executor error: scenario store error: " ++ reason.message
  | suiteStore reason => "suite store error: " ++ reason.message
  | resultStore reason => "result store error: " ++ reason.resultMessage
  | unreadable path => "config error: failed to read config " ++ path
  | settings reason => "config error: invalid config: " ++ reason.message
  | noPlaces => "build error: artifact_concurrency must be at least 1"

/-- The refusal behind an error, if that is what it is. -/
def refusal? : SessionError → Option Refusal
  | refused reason => some reason
  | _ => none

end SessionError

end DeviceSuite
