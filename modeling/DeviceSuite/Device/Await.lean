import DeviceSuite.Device.Call
import DeviceSuite.Task.Poll

/-!
# Waiting for the screen

A wait looks for its target again and again until the target is there, or until it is gone. An
error of a look counts as not yet, unless the session is gone with it. A wait in vain is a failed
outcome, not an error.
-/

namespace DeviceSuite

namespace Target

/-- What is said of a wait in vain. -/
def complaint (t : Target) (present : Bool) (timeoutMs : UInt64) : String :=
  let timedOut := ": timed out after " ++ toString timeoutMs.toNat ++ "ms"
  match t, present with
  | element selector, true => "element " ++ selector.describe ++ " did not appear" ++ timedOut
  | element selector, false => "element " ++ selector.describe ++ " is still present" ++ timedOut
  | text words, true => "text \"" ++ words ++ "\" did not appear" ++ timedOut
  | text words, false => "text \"" ++ words ++ "\" is still present" ++ timedOut
  | image picture, true =>
    "image " ++ picture.template ++ " not found within " ++ toString timeoutMs.toNat ++ "ms"
  | image picture, false => "image " ++ picture.template ++ " is still visible" ++ timedOut

/-- Look once, for the target to be present or absent as wanted. -/
def look (t : Target) (present : Bool) : DeviceTask (Except DeviceError (Option Finding)) := do
  match ← Task.ask (DeviceCall.locate t) with
  | .ok finding => return .ok (if finding.isPresent = present then some finding else none)
  | .error e => return if e.isFatal then .error e else .ok none

/-- What came of a wait that was not broken off. -/
def awaited (t : Target) (present : Bool) (timeoutMs : UInt64) (o : PollOutcome Finding) :
    Outcome :=
  let performance : Performance :=
    { totalMs := millis o.waited
      waitedMs := some (millis o.waited)
      attempts := some (.ofNat o.iterations)
      matchConfidence := (o.found.bind Finding.place?).map ImageMatch.confidence }
  if o.success then Outcome.ok.withPerformance performance
  else (Outcome.failed (t.complaint present timeoutMs)).withPerformance performance

/-- Wait until the target is present, or until it is absent. -/
def await (t : Target) (present : Bool) (policy : PollPolicy) :
    DeviceTask (Except DeviceError Outcome) := do
  return (← Task.pollUntil policy .stopped (t.look present)).map
    (t.awaited present policy.timeoutMs)

end Target

end DeviceSuite
