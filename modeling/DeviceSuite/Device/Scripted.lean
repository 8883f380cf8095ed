import DeviceSuite.Device.Call
import DeviceSuite.Task.Service

/-!
# Scripted devices

A device without hardware: it answers as it was told beforehand. Every command succeeds and
nothing is on the screen unless the script says otherwise.
-/

namespace DeviceSuite

/-- A device that follows a script. Failures and outcomes of commands are used up one by one,
those of looks at the screen likewise; a target is present from the given look on. -/
structure ScriptedDevice where
  id : String
  latencyMs : Nat
  /-- The commands so far, by name. -/
  commands : List String
  failures : List (String × String)
  outcomes : List (String × Outcome)
  /-- The keys of the looks so far. -/
  looks : List String
  appearances : TextMap Nat
  lookFailures : List String
  screenshotError : Option String
  environmentError : Option String
  /-- The command that crashes. -/
  crashOn : Option String

namespace ScriptedDevice

/-- A device with an empty script. -/
def new (id : String) : ScriptedDevice where
  id := id
  latencyMs := 0
  commands := []
  failures := []
  outcomes := []
  looks := []
  appearances := .empty
  lookFailures := []
  screenshotError := none
  environmentError := none
  crashOn := none

/-- Take the first entry for a name out of a list. -/
def takeFor {α : Type} (name : String) : List (String × α) → Option (α × List (String × α))
  | [] => none
  | entry :: rest =>
    if entry.1 = name then some (entry.2, rest)
    else (takeFor name rest).map fun (a, rest) => (a, entry :: rest)

/-- What the device says of itself. -/
def environment (d : ScriptedDevice) : Environment where
  platform := "android"
  osVersion := "14"
  model := "scripted-" ++ d.id
  screenWidth := some 1080
  screenHeight := some 2400
  extra := .empty

/-- The first four bytes of a picture file. -/
def picture : List UInt8 := [0x89, 0x50, 0x4e, 0x47]

/-- Where an image is that is present: as good as sure, in the middle of the screen. -/
def place : ImageMatch := ⟨.ofRatio 95 100, 540, 1200⟩

/-- The end of a command. -/
def finish (d : ScriptedDevice) (c : Command) :
    ScriptedDevice × Option (Except DeviceError Outcome) :=
  if d.crashOn = some c.name then (d, none)
  else match takeFor c.name d.failures with
    | some (message, rest) => ({ d with failures := rest }, some (.error (.classify message)))
    | none => match takeFor c.name d.outcomes with
      | some (outcome, rest) => ({ d with outcomes := rest }, some (.ok outcome))
      | none => (d, some (.ok .ok))

/-- A look at the screen. -/
def look (d : ScriptedDevice) (t : Target) : ScriptedDevice × Except DeviceError Finding :=
  let d := { d with looks := t.key :: d.looks }
  match d.lookFailures with
  | message :: rest => ({ d with lookFailures := rest }, .error (.classify message))
  | [] =>
    if (d.appearances.get? t.key).any (· ≤ d.looks.count t.key) then
      (d, .ok (.present (match t with
        | .image _ => some place
        | _ => none)))
    else (d, .ok .absent)

/-- A message as the failure of a call that succeeds otherwise. -/
def failing {α : Type} (message : Option String) (a : α) : Except DeviceError α :=
  match message with
  | some message => .error (.classify message)
  | none => .ok a

/-- The device as a service: only commands take time. -/
def service : Service DeviceCall.Reply ScriptedDevice where
  accept _ d
    | .perform c => ⟨{ d with commands := d.commands ++ [c.name] }, d.latencyMs, []⟩
    | _ => ⟨d, 0, []⟩
  answer _ d
    | .environment => (d, some (failing d.environmentError d.environment))
    | .appInfo => (d, some (.ok none))
    | .perform c => d.finish c
    | .locate t => ((d.look t).1, some (d.look t).2)
    | .screenshot => (d, some (failing d.screenshotError picture))

end ScriptedDevice

end DeviceSuite
