import DeviceSuite.Instant.Printer
import Mathlib.Algebra.Group.Int.Defs
import Mathlib.Algebra.Group.Nat.Defs
import Mathlib.Data.List.Basic

/-!
# The stamp of an instant

Days and dates correspond to each other, and so do numbers and their digits. Hence instants of
different milliseconds have different stamps; and no stamp has an underscore, so it is the last part
of a name that it ends.
-/

namespace DeviceSuite

namespace CivilDate

/-- The day of a year, counted from March on, lies within the year. -/
theorem dayOfYear_bounds {dayOfCycle year : Int} (hpos : 0 ≤ dayOfCycle) (hlt : dayOfCycle < 146097)
    (hyear : year =
      (dayOfCycle - dayOfCycle / 1460 + dayOfCycle / 36524 - dayOfCycle / 146096) / 365) :
    0 ≤ dayOfCycle - (365 * year + year / 4 - year / 100) ∧
      dayOfCycle - (365 * year + year / 4 - year / 100) ≤ 365 := by
  have hcentury : dayOfCycle / 36524 = 0 ∨ dayOfCycle / 36524 = 1 ∨ dayOfCycle / 36524 = 2 ∨
      dayOfCycle / 36524 = 3 ∨ dayOfCycle / 36524 = 4 := by omega
  -- The day may lie at the end of the four years that are counted, or one leap day behind it.
  have hfour : dayOfCycle / 1460 = year / 4 ∨ dayOfCycle / 1460 = year / 4 + 1 := by
    rcases hcentury with h | h | h | h | h <;> omega
  rcases hcentury with h | h | h | h | h <;> rcases hfour with h' | h' <;> omega

/-- A day lies in a cycle, in a year of it and on a day of this year, and these make its date. -/
theorem ofDays_eq (days : Int) : ∃ cycle year dayOfYear month : Int, 0 ≤ year ∧ year < 400 ∧
    0 ≤ dayOfYear ∧ dayOfYear ≤ 365 ∧ month = (5 * dayOfYear + 2) / 153 ∧
    days + 719468 = cycle * 146097 + (year * 365 + year / 4 - year / 100 + dayOfYear) ∧
    ofDays days =
      ⟨if (if month < 10 then month + 3 else month - 9) ≤ 2 then year + cycle * 400 + 1
        else year + cycle * 400, (if month < 10 then month + 3 else month - 9).toNat,
        (dayOfYear - (153 * month + 2) / 5 + 1).toNat⟩ := by
  have hpos : 0 ≤ (days + 719468) % 146097 := by omega
  have hlt : (days + 719468) % 146097 < 146097 := by omega
  obtain ⟨hfirst, hlast⟩ := dayOfYear_bounds hpos hlt rfl
  exact ⟨_, _, _, _, by omega, by omega, hfirst, hlast, rfl, by omega, rfl⟩

/-- The date of a day is that of this day, and its month and its day are small. -/
theorem ofDays_spec (days : Int) :
    (ofDays days).toDays = days ∧ (ofDays days).month ≤ 12 ∧ (ofDays days).day ≤ 31 := by
  obtain ⟨cycle, year, dayOfYear, month, hyear, hyears, hday, hdays, hmonth, hsum, heq⟩ :=
    ofDays_eq days
  have hquotient : (year + cycle * 400) / 400 = cycle := by omega
  have hremainder : (year + cycle * 400) % 400 = year := by omega
  rw [heq]
  by_cases hlate : month < 10
  · have hmarch : ¬ month + 3 ≤ 2 := by omega
    have hnat : ¬ (month + 3).toNat ≤ 2 := by omega
    have hback : (((month + 3).toNat : Int) + 9) % 12 = month := by omega
    simp only [toDays, hlate, hmarch, hnat, ↓reduceIte, hquotient, hremainder, hback]
    omega
  · have hmarch : month - 9 ≤ 2 := by omega
    have hnat : (month - 9).toNat ≤ 2 := by omega
    have hback : (((month - 9).toNat : Int) + 9) % 12 = month := by omega
    simp only [toDays, hlate, hmarch, hnat, ↓reduceIte, add_sub_cancel_right, hquotient,
      hremainder, hback]
    omega

/-- Different days have different dates. -/
theorem ofDays_injective : Function.Injective ofDays := by
  intro a b h
  rw [← (ofDays_spec a).1, ← (ofDays_spec b).1, h]

end CivilDate

namespace Instant

/-- A padded number consists of digits. -/
theorem isDigit_of_mem_padded {width n : Nat} {c : Char} (h : c ∈ padded width n) :
    c.isDigit = true := by
  rcases List.mem_append.1 h with hzero | hdigit
  · rw [List.eq_of_mem_replicate hzero]
    rfl
  · exact Nat.isDigit_of_mem_toDigits (by decide) (by decide) hdigit

/-- A padded number that fits has the given width. -/
theorem length_padded {width n : Nat} (hwidth : 0 < width) (hn : n < 10 ^ width) :
    (padded width n).length = width := by
  have hlength := (Nat.length_toDigits_le_iff (by decide) hwidth).2 hn
  rw [padded, List.length_append, List.length_replicate]
  omega

/-- The zeros in front of a number do not change it. -/
theorem padded_injective {width n n' : Nat} (h : padded width n = padded width n') : n = n' := by
  have hvalue (n : Nat) : Nat.ofDigitChars 10 (padded width n) 0 = n := by
    rw [padded, Nat.ofDigitChars_append, Nat.ofDigitChars_replicate_zero]
    simp
  rw [← hvalue n, h, hvalue n']

/-- The sign of a year that is not written with four digits. -/
def yearSign (year : Int) : Char := if year < 0 then '-' else '+'

/-- A year of four digits is written without a sign, and any other with one. -/
theorem yearText_eq (year : Int) : yearText year =
    if 0 ≤ year ∧ year ≤ 9999 then padded 4 year.toNat
    else yearSign year :: padded 4 year.natAbs := rfl

/-- The sign of a year is not a digit. -/
theorem isDigit_yearSign (year : Int) : (yearSign year).isDigit = false := by
  rw [yearSign]
  split <;> rfl

/-- A number without a sign is not written like one with a sign. -/
theorem padded_ne_signed {width n n' : Nat} (year : Int) :
    padded width n ≠ yearSign year :: padded width n' := by
  intro h
  have hmem : yearSign year ∈ padded width n := h ▸ List.mem_cons_self
  have hdigit := isDigit_of_mem_padded hmem
  rw [isDigit_yearSign] at hdigit
  cases hdigit

/-- Different years are written differently. -/
theorem yearText_injective {year year' : Int} (h : yearText year = yearText year') :
    year = year' := by
  rw [yearText_eq, yearText_eq] at h
  by_cases hshort : 0 ≤ year ∧ year ≤ 9999 <;> by_cases hshort' : 0 ≤ year' ∧ year' ≤ 9999
  · rw [if_pos hshort, if_pos hshort'] at h
    have := padded_injective h
    omega
  · rw [if_pos hshort, if_neg hshort'] at h
    exact absurd h (padded_ne_signed year')
  · rw [if_neg hshort, if_pos hshort'] at h
    exact absurd h.symm (padded_ne_signed year)
  · rw [if_neg hshort, if_neg hshort'] at h
    obtain ⟨hsign, hdigits⟩ := List.cons.inj h
    have habs := padded_injective hdigits
    have hneg : year < 0 ↔ year' < 0 := by
      by_cases hneg : year < 0 <;> by_cases hneg' : year' < 0 <;>
        simp [yearSign, hneg, hneg'] at hsign ⊢
    omega

/-- A year is written with digits, and with a sign. -/
theorem isDigit_or_sign_of_mem_yearText {year : Int} {c : Char} (h : c ∈ yearText year) :
    c.isDigit = true ∨ c = '-' ∨ c = '+' := by
  rw [yearText] at h
  split at h
  · exact .inl (isDigit_of_mem_padded h)
  · rcases List.mem_cons.1 h with rfl | hdigit
    · right
      split <;> simp
    · exact .inl (isDigit_of_mem_padded hdigit)

/-- The digits of a date in a stamp. -/
def dateDigits (d : CivilDate) : List Char := yearText d.year ++ padded 2 d.month ++ padded 2 d.day

/-- The digits of a time of day in a stamp. -/
def timeDigits (hour minute second millis : Nat) : List Char :=
  padded 2 hour ++ padded 2 minute ++ padded 2 second ++ padded 3 millis

/-- A time in milliseconds is made of days and of a time of day, and these make its stamp. -/
theorem stamp_eq (ms : Nat) : ∃ hour minute second millis : Nat, hour < 24 ∧ minute < 60 ∧
    second < 60 ∧ millis < 1000 ∧
    ms = ms / 86400000 * 86400000 + hour * 3600000 + minute * 60000 + second * 1000 + millis ∧
    (ofMillis ms).stamp = String.ofList (dateDigits (.ofDays ((ms / 86400000 : Nat) : Int)) ++
      'T' :: timeDigits hour minute second millis) := by
  have hdays : (ofMillis ms).seconds / secondsPerDay = ((ms / 86400000 : Nat) : Int) := by
    simp only [ofMillis, secondsPerDay]
    omega
  have hofDay : ((ofMillis ms).seconds % secondsPerDay).toNat = ms / 1000 % 86400 := by
    simp only [ofMillis, secondsPerDay]
    omega
  have hleap : (ofMillis ms).nanos / nanosPerSecond = 0 := by
    simp only [ofMillis, nanosPerSecond]
    omega
  have hmillis : (ofMillis ms).nanos % nanosPerSecond / 1000000 = ms % 1000 := by
    simp only [ofMillis, nanosPerSecond]
    omega
  refine ⟨ms / 1000 % 86400 / 3600, ms / 1000 % 86400 / 60 % 60, ms / 1000 % 86400 % 60, ms % 1000,
    by omega, by omega, by omega, by omega, by omega, ?_⟩
  rw [stamp, hdays, hofDay, hleap, hmillis, Nat.add_zero, dateDigits, timeDigits]
  simp only [List.append_assoc, List.cons_append]

/-- Different days are written differently. -/
theorem dateDigits_injective {days days' : Int}
    (h : dateDigits (.ofDays days) = dateDigits (.ofDays days')) : days = days' := by
  have hmonth (days : Int) : (padded 2 (CivilDate.ofDays days).month).length = 2 :=
    length_padded (by decide) (Nat.lt_of_le_of_lt (CivilDate.ofDays_spec days).2.1 (by decide))
  have hday (days : Int) : (padded 2 (CivilDate.ofDays days).day).length = 2 :=
    length_padded (by decide) (Nat.lt_of_le_of_lt (CivilDate.ofDays_spec days).2.2 (by decide))
  obtain ⟨hfront, hdays⟩ := List.append_inj' h ((hday days).trans (hday days').symm)
  obtain ⟨hyears, hmonths⟩ := List.append_inj' hfront ((hmonth days).trans (hmonth days').symm)
  apply CivilDate.ofDays_injective
  have heq (d d' : CivilDate) (hy : d.year = d'.year) (hm : d.month = d'.month)
      (hd : d.day = d'.day) : d = d' := by
    cases d
    cases d'
    cases hy
    cases hm
    cases hd
    rfl
  exact heq _ _ (yearText_injective hyears) (padded_injective hmonths) (padded_injective hdays)

/-- Different times of a day are written differently. -/
theorem timeDigits_injective {hour minute second millis hour' minute' second' millis' : Nat}
    (hminute : minute < 60) (hsecond : second < 60) (hmillis : millis < 1000)
    (hminute' : minute' < 60) (hsecond' : second' < 60) (hmillis' : millis' < 1000)
    (h : timeDigits hour minute second millis = timeDigits hour' minute' second' millis') :
    hour = hour' ∧ minute = minute' ∧ second = second' ∧ millis = millis' := by
  have htwo {n : Nat} (hn : n < 60) : (padded 2 n).length = 2 :=
    length_padded (by decide) (by omega)
  have hthree {n : Nat} (hn : n < 1000) : (padded 3 n).length = 3 := length_padded (by decide) hn
  obtain ⟨h, hm⟩ := List.append_inj' h ((hthree hmillis).trans (hthree hmillis').symm)
  obtain ⟨h, hs⟩ := List.append_inj' h ((htwo hsecond).trans (htwo hsecond').symm)
  obtain ⟨hh, hmin⟩ := List.append_inj' h ((htwo hminute).trans (htwo hminute').symm)
  exact ⟨padded_injective hh, padded_injective hmin, padded_injective hs, padded_injective hm⟩

/-- A time is written with digits. -/
theorem isDigit_of_mem_timeDigits {hour minute second millis : Nat} {c : Char}
    (h : c ∈ timeDigits hour minute second millis) : c.isDigit = true := by
  simp only [timeDigits, List.mem_append] at h
  rcases h with ((h | h) | h) | h <;> exact isDigit_of_mem_padded h

/-- A date is written with digits, and with a sign. -/
theorem isDigit_or_sign_of_mem_dateDigits {d : CivilDate} {c : Char} (h : c ∈ dateDigits d) :
    c.isDigit = true ∨ c = '-' ∨ c = '+' := by
  simp only [dateDigits, List.mem_append] at h
  rcases h with (h | h) | h
  · exact isDigit_or_sign_of_mem_yearText h
  · exact .inl (isDigit_of_mem_padded h)
  · exact .inl (isDigit_of_mem_padded h)

/-- Instants of different milliseconds have different stamps. -/
theorem stamp_ofMillis_inj {ms ms' : Nat} :
    (ofMillis ms).stamp = (ofMillis ms').stamp ↔ ms = ms' := by
  refine ⟨fun h => ?_, fun h => h ▸ rfl⟩
  obtain ⟨hour, minute, second, millis, -, hminute, hsecond, hmillis, hsum, hstamp⟩ := stamp_eq ms
  obtain ⟨hour', minute', second', millis', -, hminute', hsecond', hmillis', hsum', hstamp'⟩ :=
    stamp_eq ms'
  rw [hstamp, hstamp', String.ofList_inj] at h
  have hdate : 'T' ∉ dateDigits (.ofDays ((ms / 86400000 : Nat) : Int)) := fun hmem =>
    absurd (isDigit_or_sign_of_mem_dateDigits hmem) (by decide)
  have htime : 'T' ∉ timeDigits hour minute second millis := fun hmem =>
    absurd (isDigit_of_mem_timeDigits hmem) (by decide)
  obtain ⟨hdates, -, htimes⟩ := (List.append_cons_inj_of_notMem hdate htime).1 h
  have hdays := dateDigits_injective hdates
  obtain ⟨rfl, rfl, rfl, rfl⟩ :=
    timeDigits_injective hminute hsecond hmillis hminute' hsecond' hmillis' htimes
  omega

/-- No stamp has an underscore. -/
theorem underscore_notMem_stamp (ms : Nat) : '_' ∉ (ofMillis ms).stamp.toList := by
  obtain ⟨hour, minute, second, millis, -, -, -, -, -, hstamp⟩ := stamp_eq ms
  rw [hstamp, String.toList_ofList, List.mem_append, List.mem_cons]
  intro h
  rcases h with hdate | hmark | htime
  · exact absurd (isDigit_or_sign_of_mem_dateDigits hdate) (by decide)
  · exact absurd hmark (by decide)
  · exact absurd (isDigit_of_mem_timeDigits htime) (by decide)

end Instant

end DeviceSuite
