import DeviceSuite.Codec.Choice
import DeviceSuite.Codec.Record

/-!
# Policies and step options

How often a call is repeated and how long a screen condition is awaited. A step's own options
override the policies of the engine field by field.
-/

namespace DeviceSuite

/-- How often a failing call is attempted, and the pause between two attempts. -/
structure RetryPolicy where
  maxAttempts : UInt32
  delayMs : UInt64
  deriving DecidableEq, Repr

/-- How long a condition is awaited, and the least distance between two looks. -/
structure PollPolicy where
  timeoutMs : UInt64
  intervalMs : UInt64
  deriving DecidableEq, Repr

/-- What a step may set for itself. -/
structure StepOptions where
  retryCount : Option UInt32
  retryDelay : Option UInt64
  timeout : Option UInt64
  interval : Option UInt64
  disabled : Bool
  maxVisits : Option UInt32
  deriving DecidableEq, Repr

namespace StepOptions

/-- A step that sets nothing. -/
def none : StepOptions := ⟨.none, .none, .none, .none, false, .none⟩

/-- The fields of step options. -/
abbrev fields : List Field :=
  [.optional "retryCount" .uint32, .optional "retryDelay" .uint64, .optional "timeout" .uint64,
    .optional "interval" .uint64, .defaulted "disabled" .bool false,
    .optional "maxVisits" .uint32]

/-- The codec of step options. -/
def codec : Codec StepOptions :=
  .record "StepOptions" fields
    (fun (retryCount, retryDelay, timeout, interval, disabled, maxVisits, ()) =>
      ⟨retryCount, retryDelay, timeout, interval, disabled, maxVisits⟩)
    (fun o => (o.retryCount, o.retryDelay, o.timeout, o.interval, o.disabled, o.maxVisits, ()))

end StepOptions

namespace RetryPolicy

/-- Three attempts, half a second apart. -/
def default : RetryPolicy := ⟨3, 500⟩

/-- The fields of a retry policy. -/
abbrev fields : List Field :=
  [.defaulted "max_attempts" .uint32 default.maxAttempts,
    .defaulted "delay_ms" .uint64 default.delayMs]

/-- The codec of retry policies. -/
def codec : Codec RetryPolicy :=
  .record "RetryPolicy" fields (fun (maxAttempts, delayMs, ()) => ⟨maxAttempts, delayMs⟩)
    (fun p => (p.maxAttempts, p.delayMs, ()))

/-- The policy with a step's own values in place. -/
def override (p : RetryPolicy) (o : StepOptions) : RetryPolicy :=
  ⟨o.retryCount.getD p.maxAttempts, o.retryDelay.getD p.delayMs⟩

/-- Even a policy of no attempts makes one. -/
def attempts (p : RetryPolicy) : Nat := max 1 p.maxAttempts.toNat

end RetryPolicy

namespace PollPolicy

/-- Ten seconds, with a look every half second. -/
def default : PollPolicy := ⟨10000, 500⟩

/-- The fields of a poll policy. -/
abbrev fields : List Field :=
  [.defaulted "timeout_ms" .uint64 default.timeoutMs,
    .defaulted "interval_ms" .uint64 default.intervalMs]

/-- The codec of poll policies. -/
def codec : Codec PollPolicy :=
  .record "PollPolicy" fields (fun (timeoutMs, intervalMs, ()) => ⟨timeoutMs, intervalMs⟩)
    (fun p => (p.timeoutMs, p.intervalMs, ()))

/-- The policy with a step's own values in place. -/
def override (p : PollPolicy) (o : StepOptions) : PollPolicy :=
  ⟨o.timeout.getD p.timeoutMs, o.interval.getD p.intervalMs⟩

end PollPolicy

end DeviceSuite
