import Mathlib.Data.Nat.Basic
import Mathlib.Order.Basic
import Mathlib.Tactic.Common
import Mathlib.Tactic.NormNum

set_option autoImplicit false

/-! # The proleptic Gregorian calendar

Dates of the years 1 to 9999, clock times to the microsecond, and their two sides: the fields a text
shows and the count arithmetic works on. A date is a day number from 0001-01-01
(`CivilDate.ofDayNumber` and `CivilDate.dayNumber` are inverse to each other and keep the order), a
date with a clock time is a count of microseconds (`NaiveDateTime.ofMicros?` and
`NaiveDateTime.micros`); a count before the first or after the last date has no date-time.

The fields carry the proof that they are those of a date or of a clock time, and both sides are made
by functions that compute. Going from a count to fields is by arithmetic on the cycle of 400 years,
with one estimate that is corrected by a comparison (`yearOfDay`, `monthOfDay`); what makes it right
is that days before a year and before a month are known sums. Adding seconds goes by way of the
count, and fails exactly when the result is outside of the calendar. -/

namespace AstroPassport

/-! ## Years and months -/

/-- The Gregorian leap years. -/
def isLeap (year : ℕ) : Bool :=
  decide (year % 4 = 0) && (decide (year % 100 ≠ 0) || decide (year % 400 = 0))

/-- The days of the years from 1 up to but not including this one. -/
def daysBeforeYear (year : ℕ) : ℕ :=
  (year - 1) * 365 + (year - 1) / 4 - (year - 1) / 100 + (year - 1) / 400

/-- The days of a year. -/
def daysInYear (leap : Bool) : ℕ := if leap then 366 else 365

/-- The days before a year from its place in the cycles of 400, 100, 4 and 1 years. -/
theorem daysBeforeYear_cycles {a b c d : ℕ} (hb : b ≤ 3) (hc : c ≤ 24) (hd : d ≤ 3) :
    daysBeforeYear (a * 400 + b * 100 + c * 4 + d + 1) =
      a * 146097 + b * 36524 + c * 1461 + d * 365 := by
  have h4 : (a * 400 + b * 100 + c * 4 + d) / 4 = a * 100 + b * 25 + c := by omega
  have h100 : (a * 400 + b * 100 + c * 4 + d) / 100 = a * 4 + b := by omega
  have h400 : (a * 400 + b * 100 + c * 4 + d) / 400 = a := by omega
  simp only [daysBeforeYear, Nat.add_sub_cancel, h4, h100, h400]
  omega

theorem daysBeforeYear_succ {year : ℕ} (h : 1 ≤ year) :
    daysBeforeYear (year + 1) = daysBeforeYear year + daysInYear (isLeap year) := by
  obtain ⟨p, rfl⟩ : ∃ p, year = p + 1 := ⟨year - 1, by omega⟩
  have h4 := Nat.succ_div (a := p) (b := 4)
  have h100 := Nat.succ_div (a := p) (b := 100)
  have h400 := Nat.succ_div (a := p) (b := 400)
  simp only [Nat.dvd_iff_mod_eq_zero] at h4 h100 h400
  simp only [daysBeforeYear, daysInYear, isLeap, Nat.add_sub_cancel, Bool.and_eq_true,
    Bool.or_eq_true, decide_eq_true_eq, h4, h100, h400]
  have hle : p / 100 ≤ p / 4 := Nat.div_le_div_left (by norm_num) (by norm_num)
  split_ifs <;> omega

theorem daysBeforeYear_mono {y z : ℕ} (h : y ≤ z) : daysBeforeYear y ≤ daysBeforeYear z := by
  induction z, h using Nat.le_induction with
  | base => exact le_rfl
  | succ z hyz ih =>
      rcases Nat.eq_zero_or_pos z with rfl | hpos
      · exact ih
      · rw [daysBeforeYear_succ hpos]
        omega

/-- The days of a month. -/
def daysInMonth (leap : Bool) : ℕ → ℕ
  | 2 => if leap then 29 else 28
  | 4 | 6 | 9 | 11 => 30
  | _ => 31

/-- The days of the months before this one. -/
def daysBeforeMonth (leap : Bool) (month : ℕ) : ℕ :=
  ((List.range (month - 1)).map fun m => daysInMonth leap (m + 1)).sum

/-- The month of a day of the year, both counted from the start of the year. -/
def monthOfDay (leap : Bool) (day : ℕ) : ℕ :=
  if daysBeforeMonth leap ((day + 50) / 32) ≤ day then (day + 50) / 32 else (day + 50) / 32 - 1

theorem monthOfDay_spec {leap : Bool} {day : ℕ} (h : day < daysInYear leap) :
    1 ≤ monthOfDay leap day ∧ monthOfDay leap day ≤ 12 ∧
      daysBeforeMonth leap (monthOfDay leap day) ≤ day ∧
      day < daysBeforeMonth leap (monthOfDay leap day) +
        daysInMonth leap (monthOfDay leap day) := by
  have hall : ∀ leap, ∀ day < daysInYear leap,
      1 ≤ monthOfDay leap day ∧ monthOfDay leap day ≤ 12 ∧
        daysBeforeMonth leap (monthOfDay leap day) ≤ day ∧
        day < daysBeforeMonth leap (monthOfDay leap day) +
          daysInMonth leap (monthOfDay leap day) := by
    decide +kernel
  exact hall leap day h

theorem daysBeforeMonth_succ {leap : Bool} {month : ℕ} (h : 1 ≤ month) :
    daysBeforeMonth leap (month + 1) = daysBeforeMonth leap month + daysInMonth leap month := by
  obtain ⟨m, rfl⟩ : ∃ m, month = m + 1 := ⟨month - 1, by omega⟩
  simp [daysBeforeMonth, List.range_succ]

theorem daysBeforeMonth_mono {leap : Bool} {m n : ℕ} (h : m ≤ n) :
    daysBeforeMonth leap m ≤ daysBeforeMonth leap n := by
  induction n, h using Nat.le_induction with
  | base => exact le_rfl
  | succ n hmn ih =>
      rcases Nat.eq_zero_or_pos n with rfl | hpos
      · exact ih
      · rw [daysBeforeMonth_succ hpos]
        omega

theorem daysBeforeMonth_thirteen (leap : Bool) : daysBeforeMonth leap 13 = daysInYear leap := by
  cases leap <;> rfl

/-! ## Dates -/

/-- A date of the years 1 to 9999. -/
structure CivilDate where
  year : ℕ
  month : ℕ
  day : ℕ
  year_pos : 1 ≤ year
  year_le : year ≤ 9999
  month_pos : 1 ≤ month
  month_le : month ≤ 12
  day_pos : 1 ≤ day
  day_le : day ≤ daysInMonth (isLeap year) month
  deriving DecidableEq, Repr

/-- The date with these fields, when there is one. -/
def CivilDate.mk? (year month day : ℕ) : Option CivilDate :=
  if h : (1 ≤ year ∧ year ≤ 9999) ∧ (1 ≤ month ∧ month ≤ 12) ∧ 1 ≤ day ∧
      day ≤ daysInMonth (isLeap year) month then
    some ⟨year, month, day, h.1.1, h.1.2, h.2.1.1, h.2.1.2, h.2.2.1, h.2.2.2⟩
  else none

/-- A given date. -/
def CivilDate.of (year month day : ℕ) (h : (mk? year month day).isSome = true) : CivilDate :=
  (mk? year month day).get h

/-- The number of days there are dates for. -/
def dayCount : ℕ := 3652059

namespace CivilDate

@[simp]
theorem mk?_fields (d : CivilDate) : mk? d.year d.month d.day = some d :=
  dif_pos ⟨⟨d.year_pos, d.year_le⟩, ⟨d.month_pos, d.month_le⟩, d.day_pos, d.day_le⟩

theorem mk?_eq_some {year month day : ℕ} {d : CivilDate} :
    mk? year month day = some d ↔ d.year = year ∧ d.month = month ∧ d.day = day := by
  constructor
  · intro h
    unfold mk? at h
    split at h <;> cases h
    exact ⟨rfl, rfl, rfl⟩
  · rintro ⟨rfl, rfl, rfl⟩
    exact d.mk?_fields

theorem day_lt (d : CivilDate) : d.day < 100 := by
  have hmonth : daysInMonth (isLeap d.year) d.month ≤ 31 := by
    unfold daysInMonth
    split
    · split <;> norm_num
    all_goals norm_num
  have := d.day_le
  omega

/-- The days from 0001-01-01 to this date. -/
def dayNumber (d : CivilDate) : ℕ :=
  daysBeforeYear d.year + daysBeforeMonth (isLeap d.year) d.month + (d.day - 1)

theorem dayNumber_lt_succ_year (d : CivilDate) : d.dayNumber < daysBeforeYear (d.year + 1) := by
  have hmonth := @daysBeforeMonth_succ (isLeap d.year) _ d.month_pos
  have hyear := @daysBeforeMonth_mono (isLeap d.year) _ _ (Nat.succ_le_succ d.month_le)
  rw [daysBeforeMonth_thirteen] at hyear
  rw [daysBeforeYear_succ d.year_pos]
  have := d.day_pos
  have := d.day_le
  unfold dayNumber
  simp only [Nat.succ_eq_add_one] at hyear
  omega

theorem daysBeforeYear_le_dayNumber (d : CivilDate) : daysBeforeYear d.year ≤ d.dayNumber := by
  unfold dayNumber
  omega

theorem dayNumber_lt (d : CivilDate) : d.dayNumber < dayCount := by
  have hlt := d.dayNumber_lt_succ_year
  have hle : daysBeforeYear (d.year + 1) ≤ daysBeforeYear 10000 :=
    daysBeforeYear_mono (Nat.succ_le_succ d.year_le)
  have hmax : daysBeforeYear 10000 = dayCount := by decide
  omega

/-- A bound on the year is a bound on the day number. -/
theorem le_year_iff {d : CivilDate} {year : ℕ} :
    year ≤ d.year ↔ daysBeforeYear year ≤ d.dayNumber := by
  constructor
  · intro hle
    exact (daysBeforeYear_mono hle).trans d.daysBeforeYear_le_dayNumber
  · intro hle
    by_contra hlt
    have hmono : daysBeforeYear (d.year + 1) ≤ daysBeforeYear year := daysBeforeYear_mono (by omega)
    have := d.dayNumber_lt_succ_year
    omega

theorem dayNumber_injective {d e : CivilDate} (h : d.dayNumber = e.dayNumber) : d = e := by
  have hyear : d.year = e.year := by
    apply le_antisymm
    · rw [le_year_iff, ← h]
      exact d.daysBeforeYear_le_dayNumber
    · rw [le_year_iff, h]
      exact e.daysBeforeYear_le_dayNumber
  obtain ⟨y, m, n, _, _, hm, _, hn, hn'⟩ := d
  obtain ⟨y', m', n', _, _, hm', _, hk, hk'⟩ := e
  obtain rfl : y = y' := hyear
  simp only [dayNumber] at h
  -- a later month starts after the last day of an earlier one
  have hlater : ∀ {m m' n : ℕ} (n' : ℕ), 1 ≤ m → m < m' → 1 ≤ n → n ≤ daysInMonth (isLeap y) m →
      daysBeforeMonth (isLeap y) m + (n - 1) < daysBeforeMonth (isLeap y) m' + (n' - 1) := by
    intro m m' n n' hm hlt _ _
    have hmono := @daysBeforeMonth_mono (isLeap y) _ _ (Nat.succ_le_of_lt hlt)
    rw [Nat.succ_eq_add_one, daysBeforeMonth_succ hm] at hmono
    omega
  rcases lt_trichotomy m m' with hlt | rfl | hlt
  · have := hlater n' hm hlt hn hn'
    omega
  · obtain rfl : n = n' := by omega
    rfl
  · have := hlater n hm' hlt hk hk'
    omega

/-- The year whose days contain a day number: whole cycles of 400, 100, 4 and 1 years, the last
    century and the last year of a cycle taking its extra day. -/
def yearOfDay (n : ℕ) : ℕ :=
  let century := min 3 (n % 146097 / 36524)
  let inCentury := n % 146097 - century * 36524
  let year := min 3 (inCentury % 1461 / 365)
  n / 146097 * 400 + century * 100 + inCentury / 1461 * 4 + year + 1

theorem yearOfDay_spec (n : ℕ) :
    1 ≤ yearOfDay n ∧ daysBeforeYear (yearOfDay n) ≤ n ∧ n < daysBeforeYear (yearOfDay n + 1) := by
  have hcentury : min 3 (n % 146097 / 36524) ≤ 3 := min_le_left _ _
  have hcenturyDays : min 3 (n % 146097 / 36524) * 36524 ≤ n % 146097 ∧
      (min 3 (n % 146097 / 36524) < 3 →
        n % 146097 - min 3 (n % 146097 / 36524) * 36524 < 36524) := by omega
  have hmod : n % 146097 < 146097 := Nat.mod_lt _ (by norm_num)
  unfold yearOfDay
  simp only
  generalize min 3 (n % 146097 / 36524) = b at *
  obtain ⟨hbegin, hshort⟩ := hcenturyDays
  have hrest : n % 146097 - b * 36524 ≤ 36524 := by omega
  have hsplit : n = n / 146097 * 146097 + b * 36524 + (n % 146097 - b * 36524) := by omega
  generalize n % 146097 - b * 36524 = inCentury at *
  generalize n / 146097 = a at *
  have hc : inCentury / 1461 ≤ 24 := by omega
  have hd : min 3 (inCentury % 1461 / 365) ≤ 3 := min_le_left _ _
  have hyearDays : min 3 (inCentury % 1461 / 365) * 365 ≤ inCentury % 1461 ∧
      (min 3 (inCentury % 1461 / 365) < 3 →
        inCentury % 1461 - min 3 (inCentury % 1461 / 365) * 365 < 365) := by omega
  generalize min 3 (inCentury % 1461 / 365) = d at *
  obtain ⟨hstart, hyear⟩ := hyearDays
  have hdays := daysBeforeYear_cycles (a := a) hcentury hc hd
  refine ⟨by omega, by omega, ?_⟩
  rw [daysBeforeYear_succ (by omega), hdays]
  -- only the last year of four is leap, but for the centuries that are not a fourth one
  by_cases hlast : d = 3 ∧ (inCentury / 1461 = 24 → b = 3)
  · have hleap : isLeap (a * 400 + b * 100 + inCentury / 1461 * 4 + d + 1) = true := by
      simp only [isLeap, Bool.and_eq_true, Bool.or_eq_true, decide_eq_true_eq]
      omega
    simp only [hleap, daysInYear, if_true]
    omega
  · have hshortYear : inCentury % 1461 - d * 365 < 365 := by omega
    unfold daysInYear
    split <;> omega

/-- The date of a day number. -/
def ofDayNumber (n : ℕ) (_h : n < dayCount) : CivilDate :=
  have hyear := yearOfDay_spec n
  have hin : n - daysBeforeYear (yearOfDay n) < daysInYear (isLeap (yearOfDay n)) := by
    have := daysBeforeYear_succ hyear.1
    omega
  have hmonth := monthOfDay_spec hin
  { year := yearOfDay n
    month := monthOfDay (isLeap (yearOfDay n)) (n - daysBeforeYear (yearOfDay n))
    day := n - daysBeforeYear (yearOfDay n) - daysBeforeMonth (isLeap (yearOfDay n))
      (monthOfDay (isLeap (yearOfDay n)) (n - daysBeforeYear (yearOfDay n))) + 1
    year_pos := hyear.1
    year_le := by
      by_contra hlt
      have hmono : daysBeforeYear 10000 ≤ daysBeforeYear (yearOfDay n) :=
        daysBeforeYear_mono (by omega)
      have hmax : daysBeforeYear 10000 = dayCount := by decide
      omega
    month_pos := hmonth.1
    month_le := hmonth.2.1
    day_pos := by omega
    day_le := by omega }

@[simp]
theorem dayNumber_ofDayNumber {n : ℕ} (h : n < dayCount) : (ofDayNumber n h).dayNumber = n := by
  have hyear := yearOfDay_spec n
  have hin : n - daysBeforeYear (yearOfDay n) < daysInYear (isLeap (yearOfDay n)) := by
    have := daysBeforeYear_succ hyear.1
    omega
  have hmonth := monthOfDay_spec hin
  simp only [dayNumber, ofDayNumber]
  omega

@[simp]
theorem ofDayNumber_dayNumber (d : CivilDate) : ofDayNumber d.dayNumber d.dayNumber_lt = d :=
  dayNumber_injective (dayNumber_ofDayNumber d.dayNumber_lt)

end CivilDate

/-! ## Clock times -/

/-- A time of day; there is no leap second. -/
structure ClockTime where
  hour : ℕ
  minute : ℕ
  second : ℕ
  microsecond : ℕ
  hour_lt : hour < 24
  minute_lt : minute < 60
  second_lt : second < 60
  microsecond_lt : microsecond < 1000000
  deriving DecidableEq, Repr

/-- The microseconds of a second. -/
def microsPerSecond : ℕ := 1000000

/-- The microseconds of a day. -/
def microsPerDay : ℕ := 86400000000

namespace ClockTime

/-- The time with these fields, when there is one. -/
def mk? (hour minute second microsecond : ℕ) : Option ClockTime :=
  if h : hour < 24 ∧ minute < 60 ∧ second < 60 ∧ microsecond < 1000000 then
    some ⟨hour, minute, second, microsecond, h.1, h.2.1, h.2.2.1, h.2.2.2⟩
  else none

/-- A given time. -/
def of (hour minute second microsecond : ℕ)
    (h : (mk? hour minute second microsecond).isSome = true) : ClockTime :=
  (mk? hour minute second microsecond).get h

@[simp]
theorem mk?_fields (t : ClockTime) : mk? t.hour t.minute t.second t.microsecond = some t :=
  dif_pos ⟨t.hour_lt, t.minute_lt, t.second_lt, t.microsecond_lt⟩

theorem mk?_eq_some {hour minute second microsecond : ℕ} {t : ClockTime} :
    mk? hour minute second microsecond = some t ↔ t.hour = hour ∧ t.minute = minute ∧
      t.second = second ∧ t.microsecond = microsecond := by
  constructor
  · intro h
    unfold mk? at h
    split at h <;> cases h
    exact ⟨rfl, rfl, rfl, rfl⟩
  · rintro ⟨rfl, rfl, rfl, rfl⟩
    exact t.mk?_fields

/-- The microseconds since midnight. -/
def micros (t : ClockTime) : ℕ :=
  ((t.hour * 60 + t.minute) * 60 + t.second) * 1000000 + t.microsecond

theorem micros_lt (t : ClockTime) : t.micros < microsPerDay := by
  obtain ⟨h, m, s, u, hh, hm, hs, hu⟩ := t
  simp only [micros, microsPerDay]
  omega

/-- The time so many microseconds after midnight. -/
def ofMicros (n : ℕ) (h : n < microsPerDay) : ClockTime where
  hour := n / 3600000000
  minute := n / 60000000 % 60
  second := n / 1000000 % 60
  microsecond := n % 1000000
  hour_lt := by
    simp only [microsPerDay] at h
    omega
  minute_lt := Nat.mod_lt _ (by norm_num)
  second_lt := Nat.mod_lt _ (by norm_num)
  microsecond_lt := Nat.mod_lt _ (by norm_num)

@[simp]
theorem micros_ofMicros {n : ℕ} (h : n < microsPerDay) : (ofMicros n h).micros = n := by
  simp only [micros, ofMicros]
  omega

theorem micros_injective {t u : ClockTime} (heq : t.micros = u.micros) : t = u := by
  obtain ⟨h, m, s, us, _, hm, hs, hu⟩ := t
  obtain ⟨h', m', s', us', _, hm', hs', hu'⟩ := u
  simp only [micros] at heq
  obtain ⟨rfl, rfl, rfl, rfl⟩ : h = h' ∧ m = m' ∧ s = s' ∧ us = us' := by omega
  rfl

end ClockTime

/-! ## Date-times -/

/-- A date with a clock time, in no zone. -/
structure NaiveDateTime where
  date : CivilDate
  time : ClockTime
  deriving DecidableEq, Repr

namespace NaiveDateTime

/-- The microseconds since the start of 0001-01-01. -/
def micros (d : NaiveDateTime) : ℤ := (d.date.dayNumber * microsPerDay + d.time.micros : ℕ)

theorem micros_nonneg (d : NaiveDateTime) : 0 ≤ d.micros := Int.natCast_nonneg _

theorem micros_lt (d : NaiveDateTime) : d.micros < (dayCount * microsPerDay : ℕ) := by
  have hday := d.date.dayNumber_lt
  have htime := d.time.micros_lt
  simp only [micros, microsPerDay, dayCount] at *
  omega

theorem micros_injective {d e : NaiveDateTime} (h : d.micros = e.micros) : d = e := by
  have hd := d.time.micros_lt
  have he := e.time.micros_lt
  simp only [micros, microsPerDay] at *
  have hday : d.date.dayNumber = e.date.dayNumber := by omega
  have htime : d.time.micros = e.time.micros := by omega
  obtain ⟨date, time⟩ := d
  obtain ⟨date', time'⟩ := e
  obtain rfl : date = date' := CivilDate.dayNumber_injective hday
  obtain rfl : time = time' := ClockTime.micros_injective htime
  rfl

/-- The date-time of a count of microseconds within the calendar. -/
def ofMicros (n : ℤ) (h : 0 ≤ n ∧ n < (dayCount * microsPerDay : ℕ)) : NaiveDateTime where
  date := .ofDayNumber (n.toNat / microsPerDay) (by
    rw [Nat.div_lt_iff_lt_mul (by norm_num [microsPerDay])]
    omega)
  time := .ofMicros (n.toNat % microsPerDay) (Nat.mod_lt _ (by norm_num [microsPerDay]))

@[simp]
theorem micros_ofMicros {n : ℤ} (h : 0 ≤ n ∧ n < (dayCount * microsPerDay : ℕ)) :
    (ofMicros n h).micros = n := by
  have := Nat.div_add_mod' n.toNat microsPerDay
  simp only [micros, ofMicros, CivilDate.dayNumber_ofDayNumber, ClockTime.micros_ofMicros]
  omega

/-- The date-time of a count of microseconds, where the calendar has one. -/
def ofMicros? (n : ℤ) : Option NaiveDateTime :=
  if h : 0 ≤ n ∧ n < (dayCount * microsPerDay : ℕ) then some (ofMicros n h) else none

theorem ofMicros?_eq_some {n : ℤ} {d : NaiveDateTime} : ofMicros? n = some d ↔ d.micros = n := by
  constructor
  · intro h
    unfold ofMicros? at h
    split at h <;> cases h
    exact micros_ofMicros _
  · rintro rfl
    have hrange : 0 ≤ d.micros ∧ d.micros < (dayCount * microsPerDay : ℕ) :=
      ⟨d.micros_nonneg, d.micros_lt⟩
    rw [ofMicros?, dif_pos hrange, Option.some.injEq]
    exact micros_injective (micros_ofMicros hrange)

theorem ofMicros?_eq_none {n : ℤ} :
    ofMicros? n = none ↔ n < 0 ∨ (dayCount * microsPerDay : ℕ) ≤ n := by
  unfold ofMicros?
  split
  · next h => simp only [reduceCtorEq, false_iff]; omega
  · next h => simp only [true_iff]; omega

/-- The date-time so many seconds later; there is none outside the calendar. -/
def addSeconds (d : NaiveDateTime) (seconds : ℤ) : Option NaiveDateTime :=
  ofMicros? (d.micros + seconds * microsPerSecond)

theorem addSeconds_eq_some {d e : NaiveDateTime} {seconds : ℤ} :
    d.addSeconds seconds = some e ↔ e.micros = d.micros + seconds * microsPerSecond :=
  ofMicros?_eq_some

/-- The midnight a year starts with. -/
def yearStart (year : ℕ) : ℤ := daysBeforeYear year * microsPerDay

theorem le_year_iff {d : NaiveDateTime} {year : ℕ} :
    year ≤ d.date.year ↔ yearStart year ≤ d.micros := by
  have htime := d.time.micros_lt
  rw [CivilDate.le_year_iff]
  simp only [yearStart, micros, microsPerDay] at *
  omega

end NaiveDateTime

end AstroPassport
