import DeviceSuite.Run.Call

/-!
# The tasks of a run

Runs are told by their numbers. The tasks of a run are its lead and a tour for each device.
-/

namespace DeviceSuite

/-- Which task it is. -/
inductive Role where
  | lead (run : Nat)
  | tour (run place : Nat) (deviceId : String)
  deriving DecidableEq, Repr

/-- The run of a task. -/
def Role.run : Role → Nat
  | lead run => run
  | tour run _ _ => run

/-- What a task ends with. -/
inductive RoleResult where
  | tour (result : TourResult)
  | lead (result : SuiteResult)

/-- The result of a tour; a task that crashed has none. -/
def RoleResult.tour? : Option RoleResult → Option TourResult
  | some (tour result) => some result
  | _ => none

/-- The result of a lead. -/
def RoleResult.lead? : Option RoleResult → Option SuiteResult
  | some (lead result) => some result
  | _ => none

/-- How far the tasks of a run have come: whether the run has begun, and what came of the tours
that have ended, by their places. -/
structure Crew where
  size : Nat
  begun : Bool
  reports : List (Nat × Option TourResult)
  result : Option SuiteResult

namespace Crew

/-- The crew of a run that has not begun. -/
def new (size : Nat) : Crew := ⟨size, false, [], none⟩

/-- Let the tours begin. -/
def start (c : Crew) : Crew := { c with begun := true }

/-- Write down what came of a tour. -/
def report (c : Crew) (place : Nat) (result : Option TourResult) : Crew :=
  { c with reports := c.reports ++ [(place, result)] }

/-- Whether all tours have ended. -/
def isComplete (c : Crew) : Bool := c.reports.length == c.size

/-- What came of the tours, in the order of their places. -/
def outcomes (c : Crew) : List (Option TourResult) :=
  (List.range c.size).map fun place => (c.reports.lookup place).join

/-- Close the crew with the result of the run. -/
def close (c : Crew) (result : Option SuiteResult) : Crew := { c with result := result }

end Crew

end DeviceSuite
