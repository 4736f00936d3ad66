import Mathlib.Data.Int.Basic
import Mathlib.Order.Monotone.Basic

/-!
# AmlService.Lib.Calendar

Broken-down times and time zones, as in `<time.h>`: `Zone` is what a program sees of
the local time zone, `Zone.fixed` a zone at a constant offset from UTC under the
proleptic Gregorian calendar.

Years are counted from March, so that the leap day ends the year and the length of
the months before a date is `(153 * m + 2) / 5` for every month `m`.
-/

/-- `struct tm`: years since 1900, months since January, weekdays since Sunday. -/
structure Tm where
  sec : Int
  min : Int
  hour : Int
  mday : Int
  mon : Int
  year : Int
  wday : Int
  isdst : Int
  gmtoff : Int
  deriving Repr, DecidableEq

/-- A time zone: `localtime_r`, and `mktime` with the fields it normalises. -/
structure Zone where
  localtime : Int → Tm
  mktime : Tm → Int × Tm

/-- `mktime` undoes `localtime_r` (daylight saving left to be determined). -/
def Zone.Inverse (zone : Zone) : Prop :=
  ∀ t, (zone.mktime { zone.localtime t with isdst := -1 }).1 = t

namespace Calendar

/-! ### Dates and day numbers -/

/-- Day number of the first of March of year `y`, from the first of March of year 0. -/
def yearStart (y : Int) : Int := 365 * y + y / 4 - y / 100 + y / 400

/-- Days from the first of March to the first of the month `m` months later. -/
def monthStart (m : Int) : Int := (153 * m + 2) / 5

/-- Days from 0000-03-01 to 1970-01-01. -/
abbrev epochDay : Int := 719468

/-- Days since 1970-01-01 of a year, month (from 0 for January) and day of the month,
none of which has to be in its usual range. -/
def daysOfCivil (year month day : Int) : Int :=
  let y := year + month / 12
  let m := month % 12
  yearStart (if m < 2 then y - 1 else y) + monthStart ((m + 10) % 12) + (day - 1) - epochDay

/-- Position of a day in its 400-year cycle: year from March, and day of that year. -/
def yearOfCycle (day : Int) : Int × Int :=
  -- the fourth century of a cycle, and the fourth year of four, have a day more
  let century := if 3 < day / 36524 then 3 else day / 36524
  let day := day - 36524 * century
  let quad := day / 1461
  let day := day % 1461
  let year := if 3 < day / 365 then 3 else day / 365
  (100 * century + 4 * quad + year, day - 365 * year)

/-- Year, month (from 0 for January) and day of the month of a day number. -/
def civilOfDays (days : Int) : Int × Int × Int :=
  let cycle := (days + epochDay) / 146097
  let (year, day) := yearOfCycle ((days + epochDay) % 146097)
  let m := (5 * day + 2) / 153
  (400 * cycle + year + (if 10 ≤ m then 1 else 0), (m + 2) % 12, day - monthStart m + 1)

theorem yearStart_parts {c q a : Int} (hc : 0 ≤ c) (hc3 : c ≤ 3) (hq : 0 ≤ q) (hq24 : q ≤ 24)
    (ha : 0 ≤ a) (ha3 : a ≤ 3) :
    yearStart (100 * c + 4 * q + a) = 36524 * c + 1461 * q + 365 * a := by
  have h4 : (100 * c + 4 * q + a) / 4 = 25 * c + q := by omega
  have h100 : (100 * c + 4 * q + a) / 100 = c := by omega
  have h400 : (100 * c + 4 * q + a) / 400 = 0 := by omega
  rw [yearStart, h4, h100, h400]
  omega

/-- The year found holds the day. -/
theorem yearOfCycle_spec {day : Int} (h0 : 0 ≤ day) (h : day < 146097) :
    let (y, d) := yearOfCycle day
    0 ≤ y ∧ y < 400 ∧ 0 ≤ d ∧ d < 366 ∧ yearStart y + d = day := by
  unfold yearOfCycle
  dsimp only
  generalize hc : (if 3 < day / 36524 then 3 else day / 36524) = c
  have hcb : 0 ≤ c ∧ c ≤ 3 ∧ 0 ≤ day - 36524 * c ∧ day - 36524 * c < 36525 := by
    rw [← hc]; split <;> omega
  generalize hr : day - 36524 * c = r at hcb
  have hqb : 0 ≤ r / 1461 ∧ r / 1461 ≤ 24 := by omega
  generalize ha : (if 3 < r % 1461 / 365 then 3 else r % 1461 / 365) = a
  have hab : 0 ≤ a ∧ a ≤ 3 ∧ 0 ≤ r % 1461 - 365 * a ∧ r % 1461 - 365 * a < 366 := by
    rw [← ha]; split <;> omega
  have hstart := yearStart_parts hcb.1 hcb.2.1 hqb.1 hqb.2 hab.1 hab.2.1
  refine ⟨by omega, by omega, hab.2.2.1, hab.2.2.2, ?_⟩
  rw [hstart]
  omega

/-- Whole cycles of 400 years. -/
theorem yearStart_cycle (cycle y : Int) :
    yearStart (400 * cycle + y) = 146097 * cycle + yearStart y := by
  simp only [yearStart]
  omega

/-- The date of a day has this day number. -/
theorem daysOfCivil_civilOfDays (days : Int) :
    daysOfCivil (civilOfDays days).1 (civilOfDays days).2.1 (civilOfDays days).2.2 = days := by
  have hspec := yearOfCycle_spec (Int.emod_nonneg (days + epochDay) (by decide))
    (Int.emod_lt_of_pos (days + epochDay) (by decide : (0 : Int) < 146097))
  rcases hy : yearOfCycle ((days + epochDay) % 146097) with ⟨y, d⟩
  rw [hy] at hspec
  obtain ⟨-, -, hd0, hd, hday⟩ := hspec
  have hm : 0 ≤ (5 * d + 2) / 153 ∧ (5 * d + 2) / 153 ≤ 11 := by omega
  simp only [civilOfDays, hy, daysOfCivil]
  generalize (5 * d + 2) / 153 = m at hm
  generalize hcycle : (days + epochDay) / 146097 = cycle
  -- January and February belong to the year before, counted from March
  have hcarry : (m + 2) % 12 / 12 = 0 := by omega
  have hmonth : ((m + 2) % 12 % 12 + 10) % 12 = m := by omega
  have hmarch : (if (m + 2) % 12 % 12 < 2
      then 400 * cycle + y + (if 10 ≤ m then 1 else 0) + (m + 2) % 12 / 12 - 1
      else 400 * cycle + y + (if 10 ≤ m then 1 else 0) + (m + 2) % 12 / 12) =
      400 * cycle + y := by
    rw [hcarry]
    split <;> split <;> omega
  rw [hmonth, hmarch, yearStart_cycle]
  omega

/-! ### Times in a zone at a fixed offset -/

/-- `localtime_r` at `offset` seconds from UTC. -/
def localtimeAt (offset t : Int) : Tm :=
  let days := (t + offset) / 86400
  let second := (t + offset) % 86400
  let (year, month, day) := civilOfDays days
  { sec := second % 60, min := second / 60 % 60, hour := second / 3600,
    mday := day, mon := month, year := year - 1900, wday := (days + 4) % 7,
    isdst := 0, gmtoff := offset }

/-- The instant a broken-down time designates at `offset` seconds from UTC. -/
def instantAt (offset : Int) (tm : Tm) : Int :=
  86400 * daysOfCivil (tm.year + 1900) tm.mon tm.mday + 3600 * tm.hour + 60 * tm.min + tm.sec
    - offset

theorem daysOfCivil_add (year month day k : Int) :
    daysOfCivil year month (day + k) = daysOfCivil year month day + k := by
  simp only [daysOfCivil]
  omega

/-- A time of the day, some days from an instant. -/
theorem instantAt_day (offset t k hour min sec isdst : Int) :
    instantAt offset { localtimeAt offset t with mday := (localtimeAt offset t).mday + k, hour, min, sec, isdst } =
      86400 * ((t + offset) / 86400 + k) + 3600 * hour + 60 * min + sec - offset := by
  have hdays := daysOfCivil_civilOfDays ((t + offset) / 86400)
  simp only [instantAt, localtimeAt, daysOfCivil_add, Int.sub_add_cancel, hdays]

/-- When the clock shows a time of the day. -/
theorem localtimeAt_time {offset t hour min sec : Int} (hmin : 0 ≤ min ∧ min ≤ 59) (hsec : 0 ≤ sec ∧ sec ≤ 59) :
    (localtimeAt offset t).hour = hour ∧ (localtimeAt offset t).min = min ∧ (localtimeAt offset t).sec = sec ↔
      (t + offset) % 86400 = 3600 * hour + 60 * min + sec := by
  show (t + offset) % 86400 / 3600 = hour ∧ (t + offset) % 86400 / 60 % 60 = min ∧
    (t + offset) % 86400 % 60 = sec ↔ _
  omega

/-! ### Dates that exist -/

def leapYear (y : Int) : Bool := y % 4 == 0 && (y % 100 != 0 || y % 400 == 0)

/-- Days of a month, from 0 for January. -/
def daysInMonth (year month : Int) : Int :=
  if month = 1 then if leapYear year then 29 else 28
  else if month = 3 ∨ month = 5 ∨ month = 8 ∨ month = 10 then 30
  else 31

/-- A date of the Gregorian calendar. -/
def DateExists (year month day : Int) : Prop :=
  0 ≤ month ∧ month ≤ 11 ∧ 1 ≤ day ∧ day ≤ daysInMonth year month

theorem leapYear_cycle (cycle y : Int) : leapYear (400 * cycle + y) = leapYear y := by
  have h4 : (400 * cycle + y) % 4 = y % 4 := by omega
  have h100 : (400 * cycle + y) % 100 = y % 100 := by omega
  have h400 : (400 * cycle + y) % 400 = y % 400 := by omega
  simp only [leapYear, h4, h100, h400]

theorem yearStart_succ (y : Int) :
    yearStart (y + 1) = yearStart y + if leapYear (y + 1) then 366 else 365 := by
  simp only [yearStart, leapYear, Bool.and_eq_true, Bool.or_eq_true, beq_iff_eq, bne_iff_ne]
  split <;> omega

/-- The months follow one another. -/
theorem daysOfCivil_succ_month {year month : Int} (h : 0 ≤ month ∧ month ≤ 11) :
    daysOfCivil year (month + 1) 1 = daysOfCivil year month 1 + daysInMonth year month := by
  obtain ⟨h0, h11⟩ := h
  by_cases hfebruary : month = 1
  · subst hfebruary
    have hyear := yearStart_succ (year - 1)
    rw [Int.sub_add_cancel] at hyear
    simp only [daysInMonth, if_true]
    split at hyear <;> next hleap => simp [daysOfCivil, monthStart, hleap]; omega
  · -- no leap day between the two
    have hmonth : month = 0 ∨ month = 2 ∨ month = 3 ∨ month = 4 ∨ month = 5 ∨ month = 6 ∨ month = 7 ∨
        month = 8 ∨ month = 9 ∨ month = 10 ∨ month = 11 := by omega
    rcases hmonth with rfl | rfl | rfl | rfl | rfl | rfl | rfl | rfl | rfl | rfl | rfl <;>
      simp [daysOfCivil, daysInMonth, monthStart] <;> omega

theorem daysInMonth_pos (year month : Int) : 28 ≤ daysInMonth year month ∧ daysInMonth year month ≤ 31 := by
  unfold daysInMonth
  repeat' split
  all_goals omega

/-- The first day of a month, months being counted from January of year 0. -/
def firstOfMonth (k : Int) : Int := daysOfCivil 0 k 1

theorem daysOfCivil_eq (year month day : Int) :
    daysOfCivil year month day = firstOfMonth (12 * year + month) + (day - 1) := by
  have hyear : (12 * year + month) / 12 = year + month / 12 := by omega
  have hmonth : (12 * year + month) % 12 = month % 12 := by omega
  simp only [firstOfMonth, daysOfCivil, hyear, hmonth, Int.zero_add]
  omega

theorem firstOfMonth_succ (k : Int) : firstOfMonth (k + 1) = firstOfMonth k + daysInMonth (k / 12) (k % 12) := by
  have hsucc := @daysOfCivil_succ_month (k / 12) (k % 12) (by omega)
  rw [daysOfCivil_eq, daysOfCivil_eq (k / 12)] at hsucc
  have hk : 12 * (k / 12) + k % 12 = k := by omega
  rw [← Int.add_assoc, hk] at hsucc
  omega

theorem firstOfMonth_lt_iff {j k : Int} : firstOfMonth j < firstOfMonth k ↔ j < k := by
  refine StrictMono.lt_iff_lt (strictMono_int_of_lt_succ fun k => ?_)
  have hlength := (daysInMonth_pos (k / 12) (k % 12)).1
  rw [firstOfMonth_succ]
  omega

/-- A day is in one month only. -/
theorem month_unique {j k n : Int} (hj : firstOfMonth j ≤ n ∧ n < firstOfMonth (j + 1))
    (hk : firstOfMonth k ≤ n ∧ n < firstOfMonth (k + 1)) : j = k := by
  have hjk : j < k + 1 := firstOfMonth_lt_iff.mp (by omega)
  have hkj : k < j + 1 := firstOfMonth_lt_iff.mp (by omega)
  omega

/-- The day found is in the year found. -/
theorem yearOfCycle_lt {day : Int} (h0 : 0 ≤ day) (h : day < 146097) :
    day < yearStart ((yearOfCycle day).1 + 1) := by
  unfold yearOfCycle
  dsimp only
  generalize hc : (if 3 < day / 36524 then 3 else day / 36524) = c
  have hcb : 0 ≤ c ∧ c ≤ 3 ∧ 0 ≤ day - 36524 * c ∧ day - 36524 * c < 36525 ∧
      (c < 3 → day - 36524 * c < 36524) := by
    rw [← hc]; split <;> omega
  generalize hr : day - 36524 * c = r at hcb
  have hqb : 0 ≤ r / 1461 ∧ r / 1461 ≤ 24 := by omega
  generalize ha : (if 3 < r % 1461 / 365 then 3 else r % 1461 / 365) = a
  have hab : 0 ≤ a ∧ a ≤ 3 ∧ (a < 3 → r % 1461 < 365 * (a + 1)) := by
    rw [← ha]; split <;> omega
  -- the year after is in the same four years, in the next four, or in the next century
  by_cases hyear : a < 3
  · have hnext := yearStart_parts hcb.1 hcb.2.1 hqb.1 hqb.2 (a := a + 1) (by omega) (by omega)
    rw [show 100 * c + 4 * (r / 1461) + a + 1 = 100 * c + 4 * (r / 1461) + (a + 1) by omega, hnext]
    omega
  · obtain rfl : a = 3 := by omega
    by_cases hquad : r / 1461 < 24
    · have hnext := yearStart_parts hcb.1 hcb.2.1 (q := r / 1461 + 1) (a := 0) (by omega) (by omega)
        (by omega) (by omega)
      rw [show 100 * c + 4 * (r / 1461) + 3 + 1 = 100 * c + 4 * (r / 1461 + 1) + 0 by omega, hnext]
      omega
    · by_cases hcentury : c < 3
      · have hnext := yearStart_parts (c := c + 1) (q := 0) (a := 0) (by omega) (by omega) (by omega)
          (by omega) (by omega) (by omega)
        rw [show 100 * c + 4 * (r / 1461) + 3 + 1 = 100 * (c + 1) + 4 * 0 + 0 by omega, hnext]
        omega
      · obtain rfl : c = 3 := by omega
        rw [show 100 * 3 + 4 * (r / 1461) + 3 + 1 = 400 * 1 + 0 by omega, yearStart_cycle]
        exact h

/-- A day number is that of a date. -/
theorem civilOfDays_exists (days : Int) :
    DateExists (civilOfDays days).1 (civilOfDays days).2.1 (civilOfDays days).2.2 := by
  have hpos := Int.emod_nonneg (days + epochDay) (by decide : (146097 : Int) ≠ 0)
  have hlt := Int.emod_lt_of_pos (days + epochDay) (by decide : (0 : Int) < 146097)
  have hspec := yearOfCycle_spec hpos hlt
  have hnext := yearOfCycle_lt hpos hlt
  rcases hy : yearOfCycle ((days + epochDay) % 146097) with ⟨y, d⟩
  rw [hy] at hspec hnext
  obtain ⟨-, -, hd0, hd, hday⟩ := hspec
  dsimp only at hnext hday
  have hyear := yearStart_succ y
  have hcycle := leapYear_cycle ((days + epochDay) / 146097) (y + 1)
  simp only [civilOfDays, hy]
  generalize (days + epochDay) / 146097 = cycle at hcycle
  rw [← Int.add_assoc] at hcycle
  have hlength : d < 365 ∨ d < 366 ∧ leapYear (400 * cycle + y + 1) = true := by
    rw [hcycle]
    split at hyear
    · next hleap => exact .inr ⟨by omega, hleap⟩
    · exact .inl (by omega)
  unfold DateExists
  by_cases hfebruary : (5 * d + 2) / 153 = 11
  · rcases hlength with hshort | ⟨hlong, hleap⟩
    · have hlast := (daysInMonth_pos (400 * cycle + y + 1) 1).1
      simp [hfebruary, monthStart]
      omega
    · simp [hfebruary, monthStart, daysInMonth, hleap]
      omega
  · have hm : (5 * d + 2) / 153 = 0 ∨ (5 * d + 2) / 153 = 1 ∨ (5 * d + 2) / 153 = 2 ∨ (5 * d + 2) / 153 = 3 ∨
        (5 * d + 2) / 153 = 4 ∨ (5 * d + 2) / 153 = 5 ∨ (5 * d + 2) / 153 = 6 ∨ (5 * d + 2) / 153 = 7 ∨
        (5 * d + 2) / 153 = 8 ∨ (5 * d + 2) / 153 = 9 ∨ (5 * d + 2) / 153 = 10 := by
      omega
    rcases hm with h | h | h | h | h | h | h | h | h | h | h <;> simp [h, monthStart, daysInMonth] <;> omega

theorem DateExists.month {year month day : Int} (h : DateExists year month day) :
    firstOfMonth (12 * year + month) ≤ daysOfCivil year month day ∧
      daysOfCivil year month day < firstOfMonth (12 * year + month + 1) := by
  obtain ⟨h0, h11, hday, hlast⟩ := h
  have hyear : (12 * year + month) / 12 = year := by omega
  have hmonth : (12 * year + month) % 12 = month := by omega
  rw [firstOfMonth_succ, hyear, hmonth, daysOfCivil_eq]
  omega

/-- **The date of the day of a date** is that date. -/
theorem civilOfDays_daysOfCivil {year month day : Int} (h : DateExists year month day) :
    civilOfDays (daysOfCivil year month day) = (year, month, day) := by
  have hexists := civilOfDays_exists (daysOfCivil year month day)
  have hsame := daysOfCivil_civilOfDays (daysOfCivil year month day)
  rcases hdate : civilOfDays (daysOfCivil year month day) with ⟨y, m, d⟩
  rw [hdate] at hexists hsame
  dsimp only at hexists hsame
  have hmonth := month_unique (hsame ▸ hexists.month) h.month
  rw [daysOfCivil_eq, daysOfCivil_eq year] at hsame
  obtain ⟨h0, h11, -⟩ := h
  obtain ⟨h0', h11', -⟩ := hexists
  obtain ⟨rfl, rfl⟩ : y = year ∧ m = month := by omega
  rw [show d = day by omega]

/-- A year begins before all its dates. -/
theorem DateExists.year_le {first year month day : Int} (h : DateExists year month day) (hyear : first ≤ year) :
    daysOfCivil first 0 1 ≤ daysOfCivil year month day := by
  obtain ⟨h0, -, hday, -⟩ := h
  have hmonth : ¬ firstOfMonth (12 * year + month) < firstOfMonth (12 * first + 0) := by
    rw [firstOfMonth_lt_iff]
    omega
  rw [daysOfCivil_eq, daysOfCivil_eq year]
  omega

/-- Day of the week of a date, from 0 for Sunday. -/
def weekday (year month day : Int) : Int := (daysOfCivil year month day + 4) % 7

/-- **What the clock shows** on a date and at a time of the day. -/
theorem localtimeAt_civil (offset : Int) {year month day hour min sec : Int} (hdate : DateExists year month day)
    (hhour : 0 ≤ hour ∧ hour ≤ 23) (hmin : 0 ≤ min ∧ min ≤ 59) (hsec : 0 ≤ sec ∧ sec ≤ 59) :
    localtimeAt offset (86400 * daysOfCivil year month day + 3600 * hour + 60 * min + sec - offset) =
      { sec, min, hour, mday := day, mon := month, year := year - 1900, wday := weekday year month day,
        isdst := 0, gmtoff := offset } := by
  have hday : (86400 * daysOfCivil year month day + 3600 * hour + 60 * min + sec - offset + offset) / 86400 =
      daysOfCivil year month day := by omega
  have htime : (86400 * daysOfCivil year month day + 3600 * hour + 60 * min + sec - offset + offset) % 86400 =
      3600 * hour + 60 * min + sec := by omega
  obtain ⟨hh, hm, hs⟩ := (localtimeAt_time hmin hsec).mpr htime
  simp only [localtimeAt, hday, civilOfDays_daysOfCivil hdate] at hh hm hs ⊢
  rw [hh, hm, hs]
  rfl

/-- **A date that does not exist** is taken for another day, or another month. -/
theorem dateExists_iff {year month day : Int} (hmonth : 0 ≤ month ∧ month ≤ 11) :
    (civilOfDays (daysOfCivil year month day)).2 = (month, day) ↔ DateExists year month day := by
  constructor
  · intro hsame
    have hexists := civilOfDays_exists (daysOfCivil year month day)
    have hdays := daysOfCivil_civilOfDays (daysOfCivil year month day)
    rcases hdate : civilOfDays (daysOfCivil year month day) with ⟨y, m, d⟩
    rw [hdate] at hsame hexists hdays
    dsimp only at hsame hexists hdays
    obtain ⟨rfl, rfl⟩ := Prod.mk.inj hsame
    -- in the same month of another year, it would be another day
    rw [daysOfCivil_eq, daysOfCivil_eq year] at hdays
    have hbefore := @firstOfMonth_lt_iff (12 * y + m) (12 * year + m)
    have hafter := @firstOfMonth_lt_iff (12 * year + m) (12 * y + m)
    rwa [show y = year by omega] at hexists
  · intro h
    rw [civilOfDays_daysOfCivil h]

end Calendar

open Calendar in
/-- The zone at a fixed offset, in seconds, from UTC. -/
def Zone.fixed (offset : Int) : Zone where
  localtime := localtimeAt offset
  mktime tm := (instantAt offset tm, localtimeAt offset (instantAt offset tm))

open Calendar in
theorem Zone.fixed_inverse (offset : Int) : (Zone.fixed offset).Inverse := by
  intro t
  have hdays := daysOfCivil_civilOfDays ((t + offset) / 86400)
  simp only [Zone.fixed, instantAt, localtimeAt, Int.sub_add_cancel, hdays]
  omega

example : (Zone.fixed 7200).localtime 1791781200 =
    { sec := 0, min := 0, hour := 7, mday := 12, mon := 9, year := 126, wday := 1,
      isdst := 0, gmtoff := 7200 } := by decide
