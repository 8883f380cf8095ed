import DeviceSuite.Instant.Basic
import DeviceSuite.Text.Blank

/-!
# Reading an instant

The text of an instant is a date, a separator, a time of day and an offset. The form of RFC 3339
is accepted with some freedom: fields need no padding, blanks may stand around them, a year with a
sign may have any length, and the zone may be written `UTC`.
-/

namespace DeviceSuite.Instant

/-- Why a text is no instant. -/
inductive ReadError where
  | outOfRange
  | impossible
  | invalid
  | tooShort
  | tooLong
  deriving DecidableEq, Repr

/-- The wording of an error. -/
def ReadError.message : ReadError → String
  | outOfRange => "input is out of range"
  | impossible => "no possible date and time matching input"
  | invalid => "input contains invalid characters"
  | tooShort => "premature end of input"
  | tooLong => "trailing input"

/-- A reader takes what it needs from the front of a text. -/
abbrev Reader (α : Type) := List Char → Except ReadError (α × List Char)

/-- At most `width` digits, at least one. -/
def digits (width : Nat) : Reader Nat := fun cs =>
  if cs.isEmpty then .error .tooShort
  else
    let taken := (cs.take width).takeWhile Char.isDigit
    if taken.isEmpty then .error .invalid
    else .ok (taken.foldl (fun n c => 10 * n + (c.toNat - '0'.toNat)) 0, cs.drop taken.length)

/-- The greatest year number that is read at all. -/
def greatestYearNumber : Nat := 0x7fffffff

/-- A year: four digits at most, or a sign and any number of digits. -/
def year : Reader Int := fun cs => do
  let (negative, width, cs) := match Text.dropBlanks cs with
    | '-' :: rest => (true, rest.length, rest)
    | '+' :: rest => (false, rest.length, rest)
    | rest => (false, 4, rest)
  let (n, cs) ← digits width cs
  if greatestYearNumber < n ∧ ¬ (negative ∧ n = greatestYearNumber + 1) then .error .outOfRange
  else .ok (if negative then -(n : Int) else n, cs)

/-- A field of two digits at most within bounds. -/
def field (least greatest : Nat) : Reader Nat := fun cs => do
  let (n, cs) ← digits 2 (Text.dropBlanks cs)
  if least ≤ n ∧ n ≤ greatest then .ok (n, cs) else .error .outOfRange

/-- A mark between fields, perhaps after blanks. -/
def mark (c : Char) : Reader Unit := fun cs =>
  match Text.dropBlanks cs with
  | [] => .error .tooShort
  | first :: rest => if first = c then .ok ((), rest) else .error .invalid

/-- The mark between the date and the time of day. -/
def separator : Reader Unit := fun cs =>
  match cs with
  | [] => .error .tooShort
  | c :: rest => if c = 't' ∨ c = 'T' ∨ c = ' ' then .ok ((), rest) else .error .invalid

/-- The fraction of a second in nanoseconds; digits beyond the ninth are dropped. -/
def fraction : Reader Nat := fun cs =>
  match cs with
  | '.' :: rest => do
    let (n, after) ← digits 9 rest
    .ok (n * Nat.pow 10 (9 - (rest.length - after.length)), after.dropWhile Char.isDigit)
  | _ => .ok (0, cs)

/-- Two digits that must be there. Anything of two bytes or more that is no digit is invalid. -/
def twoDigits : Reader (Nat × Nat) := fun cs =>
  match cs with
  | [] => .error .tooShort
  | [c] => if c.utf8Size < 2 then .error .tooShort else .error .invalid
  | a :: b :: rest =>
    if a.isDigit ∧ b.isDigit then .ok ((a.toNat - '0'.toNat, b.toNat - '0'.toNat), rest)
    else .error .invalid

/-- An offset in seconds: a sign, hours, and minutes behind any colons and blanks. -/
def signedOffset : Reader Int := fun cs => do
  let (negative, cs) ← match cs with
    | [] => .error .tooShort
    | '+' :: rest => .ok (false, rest)
    | '-' :: rest => .ok (true, rest)
    | '\u2212' :: rest => .ok (true, rest)
    | _ => .error .invalid
  let ((h1, h2), cs) ← twoDigits cs
  let ((m1, m2), cs) ← twoDigits (cs.dropWhile fun c => c = ':' || Text.isBlank c)
  if 6 ≤ m1 then .error .outOfRange
  else
    let total : Int := (10 * h1 + h2) * 3600 + (10 * m1 + m2) * 60
    .ok (if negative then -total else total, cs)

/-- The offset of a zone: `UTC` or `Z` in any case, or a signed one. -/
def zone : Reader Int := fun cs =>
  match Text.dropBlanks cs with
  | 'Z' :: rest | 'z' :: rest => .ok (0, rest)
  | a :: b :: c :: rest =>
    if a.toUpper = 'U' ∧ b.toUpper = 'T' ∧ c.toUpper = 'C' then .ok (0, rest)
    else signedOffset (a :: b :: c :: rest)
  | rest => signedOffset rest

/-- The years of the calendar. -/
def leastYear : Int := -262143

/-- The last year of the calendar. -/
def greatestYear : Int := 262142

/-- Put the fields of a text together. -/
def assemble (date : CivilDate) (hour minute second nanos : Nat) (offset : Int) :
    Except ReadError Instant :=
  if !(date.isValid && decide (leastYear ≤ date.year) && decide (date.year ≤ greatestYear)) then
    .error .outOfRange
  else if secondsPerDay ≤ offset.natAbs then .error .outOfRange
  else
    let ofDay : Nat := hour * 3600 + minute * 60 + Nat.min second 59
    let seconds := date.toDays * secondsPerDay + ofDay - offset
    let first := (CivilDate.mk leastYear 1 1).toDays * secondsPerDay
    let last := ((CivilDate.mk greatestYear 12 31).toDays + 1) * secondsPerDay
    if seconds < first ∨ last ≤ seconds then .error .impossible
    else .ok ⟨seconds, if second = 60 then nanos + nanosPerSecond else nanos⟩

/-- Read an instant. -/
def ofString (s : String) : Except ReadError Instant := do
  let (y, cs) ← year s.toList
  let (_, cs) ← mark '-' cs
  let (m, cs) ← field 1 12 cs
  let (_, cs) ← mark '-' cs
  let (d, cs) ← field 1 31 cs
  let (_, cs) ← separator cs
  let (hour, cs) ← field 0 23 cs
  let (_, cs) ← mark ':' cs
  let (minute, cs) ← field 0 59 cs
  let (_, cs) ← mark ':' cs
  let (second, cs) ← field 0 60 cs
  let (nanos, cs) ← fraction cs
  let (offset, cs) ← zone cs
  if !(Text.dropBlanks cs).isEmpty then .error .tooLong
  else assemble ⟨y, m, d⟩ hour minute second nanos offset

end DeviceSuite.Instant
