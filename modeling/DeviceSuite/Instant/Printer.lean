import DeviceSuite.Instant.Basic

/-!
# Writing an instant

An instant is written in universal time with `Z`. The fraction has none, three, six or nine
digits, the fewest that lose nothing; a year outside `0` to `9999` has a sign.
-/

namespace DeviceSuite.Instant

/-- A number with zeros in front to a width. -/
def padded (width n : Nat) : List Char :=
  let digits := Nat.toDigits 10 n
  List.replicate (width - digits.length) '0' ++ digits

/-- The year of a date. -/
def yearText (year : Int) : List Char :=
  if 0 ≤ year ∧ year ≤ 9999 then padded 4 year.toNat
  else (if year < 0 then '-' else '+') :: padded 4 year.natAbs

/-- The fraction of a second. -/
def fractionText (nanos : Nat) : List Char :=
  if nanos = 0 then []
  else if nanos % 1000000 = 0 then '.' :: padded 3 (nanos / 1000000)
  else if nanos % 1000 = 0 then '.' :: padded 6 (nanos / 1000)
  else '.' :: padded 9 nanos

/-- The text of an instant. -/
def text (t : Instant) : String :=
  let date := CivilDate.ofDays (t.seconds / secondsPerDay)
  let ofDay := (t.seconds % secondsPerDay).toNat
  let leap := t.nanos / nanosPerSecond
  String.ofList (yearText date.year ++ '-' :: padded 2 date.month ++ '-' :: padded 2 date.day ++
    'T' :: padded 2 (ofDay / 3600) ++ ':' :: padded 2 (ofDay / 60 % 60) ++
    ':' :: padded 2 (ofDay % 60 + leap) ++ fractionText (t.nanos % nanosPerSecond) ++ ['Z'])

/-- An instant as a part of file names: date and time to the millisecond, without separators but
for one between them. -/
def stamp (t : Instant) : String :=
  let date := CivilDate.ofDays (t.seconds / secondsPerDay)
  let ofDay := (t.seconds % secondsPerDay).toNat
  let leap := t.nanos / nanosPerSecond
  String.ofList (yearText date.year ++ padded 2 date.month ++ padded 2 date.day ++
    'T' :: padded 2 (ofDay / 3600) ++ padded 2 (ofDay / 60 % 60) ++ padded 2 (ofDay % 60 + leap) ++
    padded 3 (t.nanos % nanosPerSecond / 1000000))

end DeviceSuite.Instant
