import DeviceSuite.Task.Service

/-!
# Scripted operations

An operation that follows a script: its attempts take the entries one after the other, and those
past the end take the last. It writes down when it is attempted, and which failures it is told
will be followed by another attempt.
-/

namespace DeviceSuite

/-- What an attempt comes to, and how long it takes. -/
structure ScriptEntry (ε α : Type) where
  latency : Nat
  outcome : Except ε α

/-- An attempt, or the note that a failed one is to be followed by another. -/
inductive ScriptCall (ε : Type) where
  | attempt
  | note (number : Nat) (error : ε)

/-- What was written down. -/
structure ScriptLog (ε : Type) where
  times : List Nat
  notes : List (Nat × ε)

namespace ScriptCall

variable {ε α : Type}

/-- The reply to a call. -/
abbrev Reply (ε α : Type) : ScriptCall ε → Type
  | attempt => Except ε α
  | note _ _ => Unit

/-- The entry of an attempt, counted from zero. -/
def entryAt? (script : List (ScriptEntry ε α)) (n : Nat) : Option (ScriptEntry ε α) :=
  script[n]?.or script.getLast?

/-- A script as a service, which may raise the stop flag when a certain attempt begins. An attempt
without any entry crashes. -/
def service (script : List (ScriptEntry ε α)) (stopOn : Option Nat) :
    Service (Reply ε α) (ScriptLog ε) where
  accept now log
    | attempt =>
      { state := { log with times := log.times ++ [now] }
        latency := ((entryAt? script log.times.length).map ScriptEntry.latency).getD 0
        signals := if stopOn = some (log.times.length + 1) then [.stop] else [] }
    | note number error => ⟨{ log with notes := log.notes ++ [(number, error)] }, 0, []⟩
  answer _ log
    | attempt => (log, (entryAt? script (log.times.length - 1)).map ScriptEntry.outcome)
    | note _ _ => (log, some ())

end ScriptCall

end DeviceSuite
