import DeviceSuite.Proofs.Session.History

/-!
# Turns one after the other

Strands that take their turns in a given order, each when it is able, make a history. The sample is
a session of two devices that take no time, with one scenario of one action; its runs take four
turns: the lead begins, the two tours follow, and the lead closes the run. Only a recording takes
time to start.
-/

namespace DeviceSuite

namespace Session

variable {σ : Type}

/-- Let strands take their turns, one after the other. -/
def takeTurns (s : Session σ) (turns : List Nat) : Session σ := turns.foldl takeTurn s

/-- The calls that begin in these turns. -/
def callsOfTurns (s : Session σ) : List Nat → Calls
  | [] => []
  | i :: rest => s.callsOfTurn i ++ (s.takeTurn i).callsOfTurns rest

/-- Whether each of the strands is able to go on when its turn comes. -/
def areAble (s : Session σ) : List Nat → Bool
  | [] => true
  | i :: rest => s.pool.isAble s.host i && (s.takeTurn i).areAble rest

/-- Turns are a history. -/
theorem takeTurns_history {s : Session σ} {turns : List Nat} (h : s.areAble turns = true) :
    History s (s.callsOfTurns turns) (s.takeTurns turns) := by
  induction turns generalizing s with
  | nil => exact .refl s
  | cons i rest ih =>
    obtain ⟨able, hrest⟩ := Bool.and_eq_true_iff.1 h
    exact (Next.turn able).history.trans (ih hrest)

end Session

namespace Sample

/-- A device that describes itself as told, does everything, and sees nothing. -/
def service (environment : Except DeviceError Environment) : Service DeviceCall.Reply Unit where
  accept _ _ _ := ⟨(), 0, []⟩
  answer _ _
    | .environment => ((), some environment)
    | .appInfo => ((), some (.ok none))
    | .perform _ => ((), some (.ok .ok))
    | .locate _ => ((), some (.ok .absent))
    | .screenshot => ((), some (.ok []))

/-- A scenario with one action. -/
def scenario : Graph :=
  ⟨"g", "",
    [⟨"s", .start, none, .empty⟩,
      ⟨"t", .action, none, .ofList [("actionType", .text "tap"), ("x", .int 1), ("y", .int 2)]⟩],
    [⟨"s", "t", none⟩]⟩

/-- A recorder that takes time to start. -/
def recorder : Recorder := { Recorder.idle with startDelay := fun _ => 1 }

/-- Two devices with the scenario. -/
def plan (environment : Except DeviceError Environment) : SessionPlan Unit where
  service := service environment
  devices := [("d", ()), ("e", ())]
  scenarios := ⟨.ofList [("g", scenario)], .empty⟩
  suites := .empty
  archive := .empty
  readFault := none
  listFault := none
  desk := none
  recorder := recorder
  runId _ := "r"
  suiteId _ := "s"

/-- The session before its first run. -/
def session (environment : Except DeviceError Environment) : Session Unit where
  plan := plan environment
  settings := .default
  scenarios := (plan environment).scenarios
  connected := ["d", "e"]
  handles := []
  pool := .empty
    { now := 0
      registry := .empty
      crews := []
      devices := .ofList (plan environment).devices
      desk := none
      recorder := recorder
      archive := .empty
      events := []
      snapshots := [] }

/-- The answer of a device that describes itself. -/
def described : Except DeviceError Environment := .ok ⟨"", "", "", none, none, .empty⟩

/-- The answer of a device that cannot describe itself. -/
def offline : Except DeviceError Environment := .error (.fatal "device offline")

/-- A request for one run of the scenario. -/
def request (deviceIds : List String) : Request := .new deviceIds ["g"]

/-- A request that is to be recorded. -/
def filmed (deviceIds : List String) : Request := { request deviceIds with recordVideo := true }

/-- The session before its first run, with devices that take time to perform an action. -/
def laborious : Session Unit :=
  let service : Service DeviceCall.Reply Unit :=
    { service described with
      accept := fun _ _ c => match c with
        | .perform _ => ⟨(), 1, []⟩
        | _ => ⟨(), 0, []⟩ }
  { session described with plan := { plan described with service := service } }

/-- The session in which a run has just begun. -/
def launched (environment : Except DeviceError Environment) (request : Request) : Session Unit :=
  ((session environment).launch "s" "" request [scenario]).1

/-- The session of the sample can be opened. -/
theorem opened (environment : Except DeviceError Environment) :
    (session environment).Opened := by
  have h : Session.setUp (plan environment) (.given .default) = .ok (session environment) := rfl
  exact .setUp h

/-- The session with devices that take time can be opened. -/
theorem opened_laborious : laborious.Opened := by
  have h : Session.setUp laborious.plan (.given .default) = .ok laborious := rfl
  exact .setUp h

/-- The request of the sample is accepted. -/
theorem check_request (environment : Except DeviceError Environment) :
    (session environment).check (request ["d", "e"]) = .ok [scenario] := rfl

/-- The request that is to be recorded is accepted. -/
theorem check_filmed (environment : Except DeviceError Environment) :
    (session environment).check (filmed ["d", "e"]) = .ok [scenario] := rfl

/-- The request of one device twice is accepted. -/
theorem check_repeated (environment : Except DeviceError Environment) :
    (session environment).check (request ["d", "d"]) = .ok [scenario] := rfl

/-- The run of the sample under way, after some turns. -/
theorem underway {environment : Except DeviceError Environment} {request : Request}
    (hcheck : (session environment).check request = .ok [scenario]) {turns : List Nat}
    (h : (launched environment request).areAble turns = true) :
    ((launched environment request).takeTurns turns).Underway
      ((launched environment request).callsOfTurns turns) 0 request [scenario] :=
  (Session.Underway.launch "s" "" (opened environment) hcheck).history
    (Session.takeTurns_history h)

end Sample

end DeviceSuite
