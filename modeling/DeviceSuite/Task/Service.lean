import DeviceSuite.Task.Basic

/-!
# Services, and a task alone with one

A service takes calls and answers them after some time, with a state that it keeps between the
calls. A task that is alone with a service runs to its end in one go: the clock moves only while
it pauses or while a call is under way, and the stop flag is raised at an instant that may be
known beforehand or by the service.
-/

namespace DeviceSuite

/-- What a service may ask for while it takes a call: a look at the active runs, or that they
stop. -/
inductive Signal where
  | snapshot
  | stop
  deriving DecidableEq, Repr

/-- What a service does when a call begins: its new state, how long the call takes, and what it
asks for. -/
structure Accepted (σ : Type) where
  state : σ
  latency : Nat
  signals : List Signal

/-- A collaborator that takes calls at an instant and answers them at a later one. A call that is
not answered has crashed. -/
structure Service {C : Type} (R : C → Type) (σ : Type) where
  accept : Nat → σ → C → Accepted σ
  answer : Nat → σ → (c : C) → σ × Option (R c)

/-- The surroundings of a task that is alone: the time, the instant at which the stop flag is
raised, if it is, and the state of the service. -/
structure Moment (σ : Type) where
  now : Nat
  stopAt : Option Nat
  state : σ

namespace Moment

variable {σ : Type}

/-- The first moment. -/
def initial (stopAt : Option Nat) (state : σ) : Moment σ := ⟨0, stopAt, state⟩

/-- Whether the stop flag is raised. -/
def isStopped (m : Moment σ) : Bool := m.stopAt.any (· ≤ m.now)

/-- Raise the stop flag, unless it is raised already. -/
def stop (m : Moment σ) : Moment σ :=
  if m.isStopped then m else { m with stopAt := some m.now }

/-- Pause until the time is over or the stop flag is raised, whichever comes first. -/
def pause (m : Moment σ) (ms : Nat) : Bool × Moment σ :=
  if m.isStopped then (false, m)
  else match m.stopAt with
    | some t =>
      if t ≤ m.now + ms then (false, { m with now := t })
      else (true, { m with now := m.now + ms })
    | none => (true, { m with now := m.now + ms })

end Moment

/-- Make a call and wait for its answer. -/
def Service.exchange {C : Type} {R : C → Type} {σ : Type} (s : Service R σ) (m : Moment σ)
    (c : C) : Option (R c) × Moment σ :=
  let taken := s.accept m.now m.state c
  let m := if .stop ∈ taken.signals then m.stop else m
  let m := { m with now := m.now + taken.latency }
  let (state, reply) := s.answer m.now taken.state c
  (reply, { m with state := state })

/-- Run a task alone with a service. The result is missing when the task crashed. -/
def Task.runAlone {C : Type} {R : C → Type} {α σ : Type} (s : Service R σ) :
    Task R α → Moment σ → Option α × Moment σ
  | done a, m => (some a, m)
  | crash, m => (none, m)
  | clock next, m => (next m.now).runAlone s m
  | stopRequested next, m => (next m.isStopped).runAlone s m
  | pause ms next, m => (next (m.pause ms).1).runAlone s (m.pause ms).2
  | giveWay next, m => next.runAlone s m
  | call c next, m => (next (s.exchange m c).1).runAlone s (s.exchange m c).2

end DeviceSuite
