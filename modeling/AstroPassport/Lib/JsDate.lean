import AstroPassport.Lib.Calendar

set_option autoImplicit false

/-! # Dates of JavaScript

The arithmetic behind `Date`. A time value counts milliseconds from the start of 1970. It is made
from any integers: months and days beyond their range roll over into the years and months around
them, and the years 0 to 99 are taken for those of the twentieth century. Its fields are always
those of a date (`exists_mk?_of_fields`), and the fields of a date come back unchanged
(`yearFromTime_timeValue` and the lemmas after it).

The definitions follow the language standard, which computes with days and years that may be
negative. They are compared with the calendar of the other module by the cycle of 400 years: within
a cycle the two have the same days before a year, and a cycle more or less moves both by the same
number of days. So a program that makes a time value from fields and reads the fields again gets
them back when they are those of a date, and never when the year is below 100
(`yearFromTime_of_short`). -/

namespace AstroPassport

/-! ## Time values -/

/-- The milliseconds of a day. -/
def msPerDay : ℤ := 86400000

/-- The day number of 1970-01-01. -/
def epochDay : ℤ := 719162

/-- `DayFromYear`. -/
def dayFromYear (year : ℤ) : ℤ :=
  365 * (year - 1970) + (year - 1969) / 4 - (year - 1901) / 100 + (year - 1601) / 400

/-- The leap years repeat every 400 years. -/
def isLeapYear (year : ℤ) : Bool := isLeap (year % 400).toNat

/-- `MakeDay`; the months are counted from 0. -/
def makeDay (year month day : ℤ) : ℤ :=
  dayFromYear (year + month / 12) +
    daysBeforeMonth (isLeapYear (year + month / 12)) ((month % 12).toNat + 1) + (day - 1)

/-- `MakeTime`, without milliseconds. -/
def makeTime (hour minute second : ℤ) : ℤ := ((hour * 60 + minute) * 60 + second) * 1000

/-- `MakeFullYear`. -/
def makeFullYear (year : ℤ) : ℤ := if 0 ≤ year ∧ year ≤ 99 then 1900 + year else year

/-- `TimeClip`; there is no time value where it is `NaN`. -/
def timeClip (t : ℤ) : Option ℤ :=
  if -8640000000000000 ≤ t ∧ t ≤ 8640000000000000 then some t else none

/-- `Date.UTC`. -/
def dateUtc (year month day hour minute second : ℤ) : Option ℤ :=
  timeClip (makeDay (makeFullYear year) month day * msPerDay + makeTime hour minute second)

/-! ## Fields -/

/-- The day of a time value within its cycle of 400 years. -/
def cycleDay (t : ℤ) : ℕ := ((t / msPerDay + epochDay) % 146097).toNat

/-- The year of a time value within its cycle. -/
def cycleYear (t : ℤ) : ℕ := CivilDate.yearOfDay (cycleDay t)

/-- `DayWithinYear`. -/
def dayWithinYear (t : ℤ) : ℕ := cycleDay t - daysBeforeYear (cycleYear t)

/-- `getUTCFullYear`. -/
def yearFromTime (t : ℤ) : ℤ := (t / msPerDay + epochDay) / 146097 * 400 + cycleYear t

/-- `getUTCMonth`. -/
def monthFromTime (t : ℤ) : ℤ := monthOfDay (isLeap (cycleYear t)) (dayWithinYear t) - 1

/-- `getUTCDate`. -/
def dateFromTime (t : ℤ) : ℤ :=
  dayWithinYear t - daysBeforeMonth (isLeap (cycleYear t))
    (monthOfDay (isLeap (cycleYear t)) (dayWithinYear t)) + 1

/-- `getUTCHours`. -/
def hourFromTime (t : ℤ) : ℤ := t / 3600000 % 24

/-- `getUTCMinutes`. -/
def minFromTime (t : ℤ) : ℤ := t / 60000 % 60

/-- `getUTCSeconds`. -/
def secFromTime (t : ℤ) : ℤ := t / 1000 % 60

/-! ## The fields of any time value are those of a date -/

theorem dayWithinYear_lt (t : ℤ) : dayWithinYear t < daysInYear (isLeap (cycleYear t)) := by
  have hyear := CivilDate.yearOfDay_spec (cycleDay t)
  have hsucc := daysBeforeYear_succ hyear.1
  unfold dayWithinYear cycleYear
  omega

theorem isLeap_add_cycles (year cycles : ℕ) : isLeap (cycles * 400 + year) = isLeap year := by
  have h4 : (cycles * 400 + year) % 4 = year % 4 := by omega
  have h100 : (cycles * 400 + year) % 100 = year % 100 := by omega
  have h400 : (cycles * 400 + year) % 400 = year % 400 := by omega
  simp only [isLeap, h4, h100, h400]

theorem exists_mk?_of_fields {t : ℤ} {year month day : ℕ} (hpos : 1 ≤ year) (hle : year ≤ 9999)
    (hyear : yearFromTime t = year) (hmonth : monthFromTime t = month - 1)
    (hday : dateFromTime t = day) : ∃ date, CivilDate.mk? year month day = some date := by
  have hspec := monthOfDay_spec (dayWithinYear_lt t)
  have hcycle : 1 ≤ cycleYear t := (CivilDate.yearOfDay_spec (cycleDay t)).1
  -- the year in the cycle and the year itself differ by whole cycles of 400
  have hleap : isLeap year = isLeap (cycleYear t) := by
    have hfirst : cycleYear t ≤ 400 := by
      have hlt : cycleDay t < 146097 := by
        unfold cycleDay
        omega
      have hlater := (CivilDate.yearOfDay_spec (cycleDay t)).2.1
      by_contra hgt
      have hmono : daysBeforeYear 401 ≤ daysBeforeYear (cycleYear t) :=
        daysBeforeYear_mono (by omega)
      have hmax : daysBeforeYear 401 = 146097 := by decide
      unfold cycleYear at hmono
      omega
    obtain ⟨cycles, hcycles⟩ : ∃ cycles : ℕ, (t / msPerDay + epochDay) / 146097 = cycles :=
      Int.eq_ofNat_of_zero_le (by
        unfold yearFromTime at hyear
        omega)
    have hsum : year = cycles * 400 + cycleYear t := by
      unfold yearFromTime at hyear
      rw [hcycles] at hyear
      omega
    rw [hsum, isLeap_add_cycles]
  unfold monthFromTime at hmonth
  unfold dateFromTime at hday
  have hm : month = monthOfDay (isLeap (cycleYear t)) (dayWithinYear t) := by omega
  have hvalid : (1 ≤ year ∧ year ≤ 9999) ∧ (1 ≤ month ∧ month ≤ 12) ∧ 1 ≤ day ∧
      day ≤ daysInMonth (isLeap year) month := by
    rw [hleap, hm]
    refine ⟨⟨hpos, hle⟩, ⟨hspec.1, hspec.2.1⟩, ?_, ?_⟩ <;> omega
  exact ⟨_, dif_pos hvalid⟩

theorem exists_clock_of_fields {t : ℤ} {hour minute second : ℕ} (microsecond : ℕ)
    (hmicro : microsecond < 1000000) (hhour : hourFromTime t = hour)
    (hminute : minFromTime t = minute) (hsecond : secFromTime t = second) :
    ∃ time, ClockTime.mk? hour minute second microsecond = some time := by
  unfold hourFromTime at hhour
  unfold minFromTime at hminute
  unfold secFromTime at hsecond
  exact ⟨_, dif_pos ⟨by omega, by omega, by omega, hmicro⟩⟩

/-! ## The fields of a date come back -/

theorem dayFromYear_eq {year : ℕ} (h : 1 ≤ year) :
    dayFromYear year = daysBeforeYear year - epochDay := by
  obtain ⟨p, rfl⟩ : ∃ p, year = p + 1 := ⟨year - 1, by omega⟩
  have hle : p / 100 ≤ p / 4 := Nat.div_le_div_left (by norm_num) (by norm_num)
  have h4 : (((p + 1 : ℕ) : ℤ) - 1969) / 4 = p / 4 - 492 := by omega
  have h100 : (((p + 1 : ℕ) : ℤ) - 1901) / 100 = p / 100 - 19 := by omega
  have h400 : (((p + 1 : ℕ) : ℤ) - 1601) / 400 = p / 400 - 4 := by omega
  simp only [dayFromYear, daysBeforeYear, epochDay, Nat.add_sub_cancel, h4, h100, h400]
  omega

theorem isLeapYear_natCast (year : ℕ) : isLeapYear year = isLeap year := by
  have hmod : ((year : ℤ) % 400).toNat = year % 400 := by omega
  rw [isLeapYear, hmod, ← isLeap_add_cycles (year % 400) (year / 400), Nat.div_add_mod']

/-- Nothing rolls over. -/
theorem makeDay_date (d : CivilDate) :
    makeDay d.year (d.month - 1) d.day = d.dayNumber - epochDay := by
  have hpos := d.month_pos
  have hle := d.month_le
  have hdiv : ((d.month : ℤ) - 1) / 12 = 0 := by omega
  have hmod : (((d.month : ℤ) - 1) % 12).toNat + 1 = d.month := by omega
  have hday := d.day_pos
  rw [makeDay, hdiv, hmod, add_zero, dayFromYear_eq d.year_pos, isLeapYear_natCast,
    CivilDate.dayNumber]
  push_cast [hday]
  omega

/-- The time value of a date and a clock time, their microseconds left out. -/
def timeValue (u : NaiveDateTime) : ℤ :=
  (u.date.dayNumber - epochDay) * msPerDay + makeTime u.time.hour u.time.minute u.time.second

theorem micros_eq_timeValue (u : NaiveDateTime) :
    u.micros = timeValue u * 1000 + epochDay * microsPerDay + u.time.microsecond := by
  simp only [NaiveDateTime.micros, ClockTime.micros, timeValue, makeTime, msPerDay, microsPerDay]
  push_cast
  omega

theorem timeValue_div (u : NaiveDateTime) : timeValue u / msPerDay + epochDay = u.date.dayNumber := by
  have hhour := u.time.hour_lt
  have hminute := u.time.minute_lt
  have hsecond := u.time.second_lt
  simp only [timeValue, makeTime, msPerDay]
  omega

theorem yearOfDay_cycles (n : ℕ) :
    CivilDate.yearOfDay n = n / 146097 * 400 + CivilDate.yearOfDay (n % 146097) := by
  have hdiv : n % 146097 / 146097 = 0 := Nat.div_eq_of_lt (Nat.mod_lt _ (by norm_num))
  simp only [CivilDate.yearOfDay, Nat.mod_mod, hdiv]
  omega

theorem daysBeforeYear_add_cycles {year : ℕ} (h : 1 ≤ year) (cycles : ℕ) :
    daysBeforeYear (cycles * 400 + year) = cycles * 146097 + daysBeforeYear year := by
  obtain ⟨p, rfl⟩ : ∃ p, year = p + 1 := ⟨year - 1, by omega⟩
  have hle : p / 100 ≤ p / 4 := Nat.div_le_div_left (by norm_num) (by norm_num)
  simp only [daysBeforeYear]
  omega

section Fields

variable (u : NaiveDateTime)

theorem cycleDay_timeValue : cycleDay (timeValue u) = u.date.dayNumber % 146097 := by
  rw [cycleDay, timeValue_div]
  omega

theorem yearOfDay_dayNumber (d : CivilDate) : CivilDate.yearOfDay d.dayNumber = d.year :=
  congrArg CivilDate.year d.ofDayNumber_dayNumber

theorem year_eq_cycleYear :
    u.date.year = u.date.dayNumber / 146097 * 400 + cycleYear (timeValue u) := by
  rw [cycleYear, cycleDay_timeValue, ← yearOfDay_cycles, yearOfDay_dayNumber]

theorem yearFromTime_timeValue : yearFromTime (timeValue u) = u.date.year := by
  rw [yearFromTime, timeValue_div, year_eq_cycleYear u]
  push_cast
  rfl

theorem isLeap_cycleYear : isLeap (cycleYear (timeValue u)) = isLeap u.date.year := by
  rw [year_eq_cycleYear u, isLeap_add_cycles]

theorem dayWithinYear_timeValue :
    dayWithinYear (timeValue u) = u.date.dayNumber - daysBeforeYear u.date.year := by
  have hpos : 1 ≤ cycleYear (timeValue u) := (CivilDate.yearOfDay_spec _).1
  have hdays := daysBeforeYear_add_cycles hpos (u.date.dayNumber / 146097)
  rw [← year_eq_cycleYear] at hdays
  rw [dayWithinYear, cycleDay_timeValue, hdays]
  omega

theorem monthOfDay_dayNumber (d : CivilDate) :
    monthOfDay (isLeap d.year) (d.dayNumber - daysBeforeYear d.year) = d.month := by
  have h := congrArg CivilDate.month d.ofDayNumber_dayNumber
  simp only [CivilDate.ofDayNumber, yearOfDay_dayNumber] at h
  exact h

theorem monthFromTime_timeValue : monthFromTime (timeValue u) = u.date.month - 1 := by
  rw [monthFromTime, isLeap_cycleYear, dayWithinYear_timeValue, monthOfDay_dayNumber]

theorem dateFromTime_timeValue : dateFromTime (timeValue u) = u.date.day := by
  have hday := u.date.day_pos
  rw [dateFromTime, isLeap_cycleYear, dayWithinYear_timeValue, monthOfDay_dayNumber,
    CivilDate.dayNumber]
  omega

theorem hourFromTime_timeValue : hourFromTime (timeValue u) = u.time.hour := by
  have hhour := u.time.hour_lt
  have hminute := u.time.minute_lt
  have hsecond := u.time.second_lt
  simp only [hourFromTime, timeValue, makeTime, msPerDay]
  omega

theorem minFromTime_timeValue : minFromTime (timeValue u) = u.time.minute := by
  have hminute := u.time.minute_lt
  have hsecond := u.time.second_lt
  simp only [minFromTime, timeValue, makeTime, msPerDay]
  omega

theorem secFromTime_timeValue : secFromTime (timeValue u) = u.time.second := by
  have hsecond := u.time.second_lt
  simp only [secFromTime, timeValue, makeTime, msPerDay]
  omega

end Fields

/-- `Date.UTC` of the fields of a date, but for the years it takes for others. -/
theorem dateUtc_of_date (u : NaiveDateTime) (h : 100 ≤ u.date.year) :
    dateUtc u.date.year (u.date.month - 1) u.date.day u.time.hour u.time.minute u.time.second =
      some (timeValue u) := by
  have hyear : makeFullYear u.date.year = u.date.year := if_neg (by omega)
  have hbound := u.date.dayNumber_lt
  have hhour := u.time.hour_lt
  have hminute := u.time.minute_lt
  have hsecond := u.time.second_lt
  rw [dateUtc, hyear, makeDay_date]
  unfold timeClip
  rw [if_pos (by simp only [makeTime, msPerDay, epochDay, dayCount] at *; omega)]
  rfl

/-- A time value of the years before 100 lies before them. -/
theorem div_lt_of_yearFromTime {t : ℤ} (h : yearFromTime t ≤ 99) :
    t / msPerDay + epochDay < daysBeforeYear 100 := by
  have hspec := CivilDate.yearOfDay_spec (cycleDay t)
  have hmax : daysBeforeYear 100 = 36159 := by decide
  rw [hmax]
  by_contra hge
  have hcycle : (t / msPerDay + epochDay) / 146097 = 0 := by
    unfold yearFromTime at h
    omega
  rw [yearFromTime, hcycle] at h
  have hmono : daysBeforeYear (cycleYear t + 1) ≤ daysBeforeYear 100 :=
    daysBeforeYear_mono (by omega)
  unfold cycleYear cycleDay at *
  omega

/-- The years 0 to 99 never come back: what they are taken for is later. -/
theorem yearFromTime_of_short {year month day hour minute second : ℕ} {t : ℤ} (h : year ≤ 99)
    (ht : dateUtc year (month - 1) day hour minute second = some t) : yearFromTime t ≠ year := by
  have hyear : makeFullYear year = 1900 + year := if_pos (by omega)
  rw [dateUtc, hyear] at ht
  unfold timeClip at ht
  split at ht
  · cases ht
    intro hback
    have hlt := div_lt_of_yearFromTime (hback.trans_le (by omega))
    have hmax : daysBeforeYear 100 = 36159 := by decide
    rw [hmax] at hlt
    simp only [makeDay, dayFromYear, makeTime, msPerDay, epochDay] at hlt
    omega
  · cases ht

end AstroPassport
