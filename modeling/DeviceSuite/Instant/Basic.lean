/-!
# Instants

An instant of universal time, counted in seconds and nanoseconds from the beginning of 1970. A
leap second is the second before it, with a thousand million nanoseconds more. Days and civil
dates are those of the proleptic Gregorian calendar.
-/

namespace DeviceSuite

/-- An instant of universal time. -/
structure Instant where
  seconds : Int
  nanos : Nat
  deriving DecidableEq, Inhabited, Repr

/-- A date of the Gregorian calendar. -/
structure CivilDate where
  year : Int
  month : Nat
  day : Nat
  deriving DecidableEq, Repr

namespace CivilDate

/-- Every fourth year is a leap year, save the centuries that four hundred does not divide. -/
def isLeapYear (year : Int) : Bool := year % 4 = 0 ∧ (year % 100 ≠ 0 ∨ year % 400 = 0)

/-- The number of days of a month. -/
def daysInMonth (year : Int) : Nat → Nat
  | 2 => if isLeapYear year then 29 else 28
  | 4 | 6 | 9 | 11 => 30
  | _ => 31

/-- Whether the day exists in its month. -/
def isValid (d : CivilDate) : Bool :=
  1 ≤ d.month ∧ d.month ≤ 12 ∧ 1 ≤ d.day ∧ d.day ≤ daysInMonth d.year d.month

/-- Days since the first of January 1970, counted in cycles of 400 years that begin in March. -/
def toDays (d : CivilDate) : Int :=
  let year := if d.month ≤ 2 then d.year - 1 else d.year
  let cycle := year / 400
  let yearOfCycle := year % 400
  let monthFromMarch : Int := (d.month + 9) % 12
  let dayOfYear := (153 * monthFromMarch + 2) / 5 + d.day - 1
  let dayOfCycle := yearOfCycle * 365 + yearOfCycle / 4 - yearOfCycle / 100 + dayOfYear
  cycle * 146097 + dayOfCycle - 719468

/-- The date of a day since the first of January 1970. -/
def ofDays (days : Int) : CivilDate :=
  let shifted := days + 719468
  let cycle := shifted / 146097
  let dayOfCycle := shifted % 146097
  let yearOfCycle :=
    (dayOfCycle - dayOfCycle / 1460 + dayOfCycle / 36524 - dayOfCycle / 146096) / 365
  let dayOfYear := dayOfCycle - (365 * yearOfCycle + yearOfCycle / 4 - yearOfCycle / 100)
  let monthFromMarch := (5 * dayOfYear + 2) / 153
  let day := dayOfYear - (153 * monthFromMarch + 2) / 5 + 1
  let month := if monthFromMarch < 10 then monthFromMarch + 3 else monthFromMarch - 9
  let year := yearOfCycle + cycle * 400
  ⟨if month ≤ 2 then year + 1 else year, month.toNat, day.toNat⟩

end CivilDate

namespace Instant

/-- The number of seconds of a day. -/
def secondsPerDay : Int := 86400

/-- The number of nanoseconds of a second. -/
def nanosPerSecond : Nat := 1000000000

/-- Earlier instants come first; a leap second lies between its neighbours. -/
def isBefore (a b : Instant) : Bool :=
  a.seconds < b.seconds ∨ (a.seconds = b.seconds ∧ a.nanos < b.nanos)

/-- The instant that many milliseconds after the beginning of 1970. -/
def ofMillis (ms : Nat) : Instant := ⟨ms / 1000, ms % 1000 * 1000000⟩

/-- The whole milliseconds since the beginning of 1970, and none before it. -/
def millis (t : Instant) : Nat := t.seconds.toNat * 1000 + t.nanos / 1000000

end Instant

end DeviceSuite
