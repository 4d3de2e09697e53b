import AstroPassport.Lib.Calendar
import AstroPassport.Lib.Digits

set_option autoImplicit false

/-! # ISO 8601 texts

The extended ISO texts of dates, clock times and UTC date-times. A text is first taken apart into
its fields, which is all that a pattern looks at, and then the fields into a date or a time. The
texts with six fraction digits are read back as what they were written for: `dateFromIso_isoDate`,
`clockFromIso_isoTime` and `utcFromIso_isoUtc`.

A pattern (`isDateText`, `isClockText`, `isUtcText`) accepts texts whose fields are out of range,
such as the thirtieth of February, and the reader refuses them; programs use both, so both are here,
over one function that takes the fields apart. The fraction of a second has one to six digits where
it is written at all. The last section is the other spelling of an instant in UTC, with a numeric
offset at its end and without a fraction that is zero; read back, the fraction is filled up and the
offset made a `Z`. -/

namespace AstroPassport

/-! ## Writing -/

/-- `date.isoformat()`. -/
def isoDate (d : CivilDate) : List Char :=
  padded 4 d.year ++ '-' :: (padded 2 d.month ++ '-' :: padded 2 d.day)

/-- `time.isoformat(timespec="microseconds")`. -/
def isoTime (t : ClockTime) : List Char :=
  padded 2 t.hour ++ ':' :: (padded 2 t.minute ++ ':' ::
    (padded 2 t.second ++ '.' :: padded 6 t.microsecond))

/-- `isoformat(timespec="microseconds")` of a UTC date-time, its offset written `Z`. -/
def isoUtc (d : NaiveDateTime) : List Char := isoDate d.date ++ 'T' :: (isoTime d.time ++ ['Z'])

@[simp]
theorem length_isoTime (t : ClockTime) : (isoTime t).length = 15 := by simp [isoTime]

/-! ## Fields -/

/-- Reading one given character. -/
def readChar (c : Char) : List Char → Option (List Char)
  | [] => none
  | d :: cs => if d = c then some cs else none

@[simp]
theorem readChar_cons (c : Char) (cs : List Char) : readChar c (c :: cs) = some cs := if_pos rfl

theorem eq_cons_of_readChar {c : Char} {cs rest : List Char} (h : readChar c cs = some rest) :
    cs = c :: rest := by
  cases cs with
  | nil => cases h
  | cons d cs =>
      simp only [readChar] at h
      split at h
      · next heq =>
          cases h
          rw [heq]
      · cases h

/-- Year, month and day of `YYYY-MM-DD` at the front of a text. -/
def dateFields (cs : List Char) : Option ((ℕ × ℕ × ℕ) × List Char) := do
  let (year, cs) ← readDigits 4 0 cs
  let cs ← readChar '-' cs
  let (month, cs) ← readDigits 2 0 cs
  let cs ← readChar '-' cs
  let (day, cs) ← readDigits 2 0 cs
  some ((year, month, day), cs)

/-- The microseconds of one to six fraction digits. -/
def fractionField (cs : List Char) : Option ℕ :=
  if 1 ≤ cs.length ∧ cs.length ≤ 6 then
    (readDigits cs.length 0 cs).map fun n => n.1 * 10 ^ (6 - cs.length)
  else none

/-- Seconds and microseconds of `SS` or `SS.f`. -/
def secondFields (cs : List Char) : Option (ℕ × ℕ) := do
  let (second, cs) ← readDigits 2 0 cs
  match cs with
  | [] => some (second, 0)
  | '.' :: fraction => (fractionField fraction).map (second, ·)
  | _ => none

/-- Hour, minute, second and microsecond of `HH:MM`, `HH:MM:SS` or `HH:MM:SS.f`. -/
def clockFields (cs : List Char) : Option (ℕ × ℕ × ℕ × ℕ) := do
  let (hour, cs) ← readDigits 2 0 cs
  let cs ← readChar ':' cs
  let (minute, cs) ← readDigits 2 0 cs
  match cs with
  | [] => some (hour, minute, 0, 0)
  | ':' :: cs => (secondFields cs).map fun s => (hour, minute, s)
  | _ => none

/-- The date and the clock text of `YYYY-MM-DDT…Z`. -/
def splitUtc (cs : List Char) : Option ((ℕ × ℕ × ℕ) × List Char) :=
  match dateFields cs with
  | some (date, 'T' :: rest) =>
    if rest.getLast? = some 'Z' then some (date, rest.dropLast) else none
  | _ => none

/-! ## Patterns and values -/

/-- `^[0-9]{4}-[0-9]{2}-[0-9]{2}$`. -/
def isDateText (cs : List Char) : Bool :=
  match dateFields cs with
  | some (_, []) => true
  | _ => false

/-- `^[0-9]{2}:[0-9]{2}(?::[0-9]{2}(?:\.[0-9]{1,6})?)?$`. -/
def isClockText (cs : List Char) : Bool := (clockFields cs).isSome

/-- `^[0-9]{4}-[0-9]{2}-[0-9]{2}T[0-9]{2}:[0-9]{2}:[0-9]{2}\.[0-9]{6}Z$`: of the clocks, those with
    all six fraction digits. -/
def isUtcText (cs : List Char) : Bool :=
  match splitUtc cs with
  | some (_, clock) => decide (clock.length = 15) && isClockText clock
  | none => false

/-- `date.fromisoformat`, of a text that matches its pattern. -/
def dateFromIso (cs : List Char) : Option CivilDate :=
  match dateFields cs with
  | some ((year, month, day), []) => CivilDate.mk? year month day
  | _ => none

/-- `time.fromisoformat`, of a text that matches its pattern. -/
def clockFromIso (cs : List Char) : Option ClockTime := do
  let (hour, minute, second, microsecond) ← clockFields cs
  ClockTime.mk? hour minute second microsecond

/-- `datetime.fromisoformat` without its zone, of a UTC text. -/
def utcFromIso (cs : List Char) : Option NaiveDateTime := do
  let ((year, month, day), clock) ← splitUtc cs
  let date ← CivilDate.mk? year month day
  let time ← clockFromIso clock
  some ⟨date, time⟩

/-! ## Round trips -/

theorem dateFields_isoDate (d : CivilDate) (rest : List Char) :
    dateFields (isoDate d ++ rest) = some ((d.year, d.month, d.day), rest) := by
  have hyear : d.year < 10 ^ 4 := d.year_le.trans_lt (by norm_num)
  have hmonth : d.month < 10 ^ 2 := d.month_le.trans_lt (by norm_num)
  have hday : d.day < 10 ^ 2 := d.day_lt
  simp only [dateFields, isoDate, List.append_assoc, List.cons_append, readDigits_padded hyear,
    readDigits_padded hmonth, readDigits_padded hday, readChar_cons, Option.bind_eq_bind,
    Option.bind_some]

@[simp]
theorem isDateText_isoDate (d : CivilDate) : isDateText (isoDate d) = true := by
  have h := dateFields_isoDate d []
  rw [List.append_nil] at h
  simp only [isDateText, h]

@[simp]
theorem dateFromIso_isoDate (d : CivilDate) : dateFromIso (isoDate d) = some d := by
  have h := dateFields_isoDate d []
  rw [List.append_nil] at h
  simp only [dateFromIso, h, CivilDate.mk?_fields]

theorem clockFields_isoTime (t : ClockTime) :
    clockFields (isoTime t) = some (t.hour, t.minute, t.second, t.microsecond) := by
  have hhour : t.hour < 10 ^ 2 := t.hour_lt.trans (by norm_num)
  have hminute : t.minute < 10 ^ 2 := t.minute_lt.trans (by norm_num)
  have hsecond : t.second < 10 ^ 2 := t.second_lt.trans (by norm_num)
  have hmicro := readDigits_padded (w := 6) (n := t.microsecond) t.microsecond_lt []
  rw [List.append_nil] at hmicro
  have hfraction : fractionField (padded 6 t.microsecond) = some t.microsecond := by
    simp [fractionField, hmicro]
  simp only [clockFields, isoTime, secondFields, readDigits_padded hhour,
    readDigits_padded hminute, readDigits_padded hsecond, readChar_cons, Option.bind_eq_bind,
    Option.bind_some, hfraction, Option.map_some]

@[simp]
theorem isClockText_isoTime (t : ClockTime) : isClockText (isoTime t) = true := by
  rw [isClockText, clockFields_isoTime]
  rfl

@[simp]
theorem clockFromIso_isoTime (t : ClockTime) : clockFromIso (isoTime t) = some t := by
  simp only [clockFromIso, clockFields_isoTime, Option.bind_eq_bind, Option.bind_some,
    ClockTime.mk?_fields]

theorem splitUtc_isoUtc (d : NaiveDateTime) :
    splitUtc (isoUtc d) = some ((d.date.year, d.date.month, d.date.day), isoTime d.time) := by
  simp only [splitUtc, isoUtc, dateFields_isoDate]
  simp

@[simp]
theorem isUtcText_isoUtc (d : NaiveDateTime) : isUtcText (isoUtc d) = true := by
  simp [isUtcText, splitUtc_isoUtc]

@[simp]
theorem utcFromIso_isoUtc (d : NaiveDateTime) : utcFromIso (isoUtc d) = some d := by
  simp [utcFromIso, splitUtc_isoUtc]

/-! ## Instants with a numeric offset -/

/-- `datetime.isoformat()` of a UTC date-time: a fraction only when there is one, the offset at the
    end. -/
def isoInstant (d : NaiveDateTime) : List Char :=
  isoDate d.date ++ 'T' :: (padded 2 d.time.hour ++ ':' :: (padded 2 d.time.minute ++ ':' ::
    (padded 2 d.time.second ++
      ((if d.time.microsecond = 0 then [] else '.' :: padded 6 d.time.microsecond) ++
        "+00:00".toList))))

theorem length_isoInstant_le (d : NaiveDateTime) : (isoInstant d).length ≤ 32 := by
  unfold isoInstant isoDate
  split_ifs <;> simp

/-- Reading such a text: the fraction is filled up and the offset made a `Z`. -/
def instantFromIso (cs : List Char) : Option NaiveDateTime :=
  let civil := cs.take (cs.length - 6)
  if cs.drop (cs.length - 6) = "+00:00".toList then
    utcFromIso ((if civil.length = 19 then civil ++ ".000000".toList else civil) ++ ['Z'])
  else none

theorem instantFromIso_isoInstant (d : NaiveDateTime) : instantFromIso (isoInstant d) = some d := by
  let clock := padded 2 d.time.hour ++ ':' :: (padded 2 d.time.minute ++ ':' ::
    padded 2 d.time.second)
  let fraction := if d.time.microsecond = 0 then [] else '.' :: padded 6 d.time.microsecond
  have hinstant : isoInstant d = (isoDate d.date ++ 'T' :: (clock ++ fraction)) ++ "+00:00".toList := by
    simp [isoInstant, clock, fraction]
  have hlength : (isoInstant d).length - 6 = (isoDate d.date ++ 'T' :: (clock ++ fraction)).length := by
    rw [hinstant, List.length_append]
    exact Nat.add_sub_cancel _ 6
  have hcivil : (isoInstant d).take ((isoInstant d).length - 6) =
      isoDate d.date ++ 'T' :: (clock ++ fraction) := by
    rw [hlength, hinstant, List.take_left]
  have hoffset : (isoInstant d).drop ((isoInstant d).length - 6) = "+00:00".toList := by
    rw [hlength, hinstant, List.drop_left]
  simp only [instantFromIso, hcivil, hoffset, if_true]
  -- with or without a fraction the text becomes the one with six digits
  by_cases hmicro : d.time.microsecond = 0
  · have htext : (isoDate d.date ++ 'T' :: (clock ++ fraction)).length = 19 := by
      simp [fraction, hmicro, clock, isoDate]
    have hzeros : padded 6 0 = "000000".toList := by decide
    rw [if_pos htext, ← utcFromIso_isoUtc d]
    simp [isoUtc, isoTime, clock, fraction, hmicro, hzeros]
  · have htext : (isoDate d.date ++ 'T' :: (clock ++ fraction)).length ≠ 19 := by
      simp [fraction, hmicro, clock, isoDate]
    rw [if_neg htext, ← utcFromIso_isoUtc d]
    simp [isoUtc, isoTime, clock, fraction, hmicro]

end AstroPassport
