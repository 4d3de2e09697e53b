import AstroPassport.Canonical.Scaled
import AstroPassport.Lib.JsDate

set_option autoImplicit false

/-! # `timestamp`, in Python and in Node

`timestamp` of `app/canonical.py` parses an ISO text, `timestamp` of `conformance/acep1.mjs` rolls
the fields through `Date.UTC` and compares them with what comes back. Both patterns take the texts
`timestampText`, whose fields either parse or come back exactly when they are those of a date and a
clock time.

The texts of the pattern are parametrised by their fields, and no other text passes either pattern
(`exists_of_isTimestampText`, `exists_of_utcGroups`). Both functions are then computed on such a
text: the one through the date-time with these fields, where there is one (`instant?`), the other
through the fields that come back from a day number (`fields_come_back`); the supported years are
the last check of both. The sections at the end relate the texts to instants: a text denotes one
instant at most (`DenotesUtc.unique`), and later instants have larger texts (`isoUtc_lt_iff`). -/

namespace AstroPassport

/-! ## Any string -/

/-- `timestamp` of any `str`; a surrogate is outside the pattern. -/
def pyTimestamp (text : List CodePoint) : Checked (List Char) :=
  match scalars? text with
  | some cs => timestamp cs
  | none => .valueError

/-! ## `timestamp` of `acep1.mjs` -/

/-- What it throws. -/
inductive NodeTimestampError where
  | utc
  | utcRange
  deriving DecidableEq, Repr

/-- `(?:\.([0-9]{1,6}))?Z$`. -/
def fractionGroup : List Char → Option (List Char)
  | '.' :: cs =>
    if cs.getLast? = some 'Z' ∧ (fractionField cs.dropLast).isSome then some cs.dropLast else none
  | ['Z'] => some []
  | _ => none

/-- `^([0-9]{4})-([0-9]{2})-([0-9]{2})T([0-9]{2}):([0-9]{2}):([0-9]{2})(?:\.([0-9]{1,6}))?Z$`, the
    first six groups as numbers. -/
def utcGroups (cs : List Char) : Option ((ℕ × ℕ × ℕ) × (ℕ × ℕ × ℕ) × List Char) := do
  let (date, cs) ← dateFields cs
  let cs ← readChar 'T' cs
  let (hour, cs) ← readDigits 2 0 cs
  let cs ← readChar ':' cs
  let (minute, cs) ← readDigits 2 0 cs
  let cs ← readChar ':' cs
  let (second, cs) ← readDigits 2 0 cs
  let fraction ← fractionGroup cs
  some (date, (hour, minute, second), fraction)

/-- `padEnd`. -/
def padEnd (width : ℕ) (c : Char) (cs : List Char) : List Char :=
  cs ++ List.replicate (width - cs.length) c

/-- `new Date('1899-12-31T00:00:00Z')`. -/
def nodeFirst : ℤ := makeDay 1899 11 31 * msPerDay

/-- `new Date('2101-01-02T00:00:00Z')`. -/
def nodeEnd : ℤ := makeDay 2101 0 2 * msPerDay

/-- `timestamp`. -/
def nodeTimestamp (text : JsString) : Except NodeTimestampError JsString :=
  match (jsAscii? text).bind utcGroups with
  | none => .error .utc
  | some ((y, mo, d), (h, mi, s), fraction) =>
    match dateUtc y (mo - 1) d h mi s with
    -- the fields of an invalid date are `NaN`, which is different from every number
    | none => .error .utcRange
    | some t =>
      if yearFromTime t ≠ y ∨ monthFromTime t ≠ mo - 1 ∨ dateFromTime t ≠ d ∨ hourFromTime t ≠ h ∨
          minFromTime t ≠ mi ∨ secFromTime t ≠ s ∨ t < nodeFirst ∨ nodeEnd ≤ t then
        .error .utcRange
      else .ok (text.take 19 ++ jsText ('.' :: (padEnd 6 '0' fraction ++ ['Z'])))

/-! ## The texts of the pattern -/

/-- A fraction of `w` digits, its point with it; none when there are no digits. -/
def fractionText (w n : ℕ) : List Char := if w = 0 then [] else '.' :: padded w n

/-- `HH:MM:SS[.f]`. -/
def clockText (hour minute second w n : ℕ) : List Char :=
  padded 2 hour ++ ':' :: (padded 2 minute ++ ':' :: (padded 2 second ++ fractionText w n))

/-- `YYYY-MM-DDTHH:MM:SS[.f]Z`. -/
def timestampText (date : ℕ × ℕ × ℕ) (hour minute second w n : ℕ) : List Char :=
  padded 4 date.1 ++ '-' :: (padded 2 date.2.1 ++ '-' :: (padded 2 date.2.2 ++
    'T' :: (clockText hour minute second w n ++ ['Z'])))

/-- The fields are as wide as the pattern has them, and the fraction has at most six digits. -/
structure FieldBounds (date : ℕ × ℕ × ℕ) (hour minute second w n : ℕ) : Prop where
  year : date.1 < 10 ^ 4
  month : date.2.1 < 10 ^ 2
  day : date.2.2 < 10 ^ 2
  hour : hour < 10 ^ 2
  minute : minute < 10 ^ 2
  second : second < 10 ^ 2
  width : w ≤ 6
  fraction : n < 10 ^ w

section Reading

variable {date : ℕ × ℕ × ℕ} {hour minute second w n : ℕ}

theorem dateFields_padded {rest : List Char} (hyear : date.1 < 10 ^ 4) (hmonth : date.2.1 < 10 ^ 2)
    (hday : date.2.2 < 10 ^ 2) :
    dateFields (padded 4 date.1 ++ '-' :: (padded 2 date.2.1 ++ '-' :: (padded 2 date.2.2 ++ rest))) =
      some (date, rest) := by
  simp only [dateFields, readDigits_padded hyear, readDigits_padded hmonth, readDigits_padded hday,
    readChar_cons, Option.bind_eq_bind, Option.bind_some]

/-- What the date of a text is read from. -/
theorem exists_of_dateFields {cs rest : List Char} (h : dateFields cs = some (date, rest)) :
    date.1 < 10 ^ 4 ∧ date.2.1 < 10 ^ 2 ∧ date.2.2 < 10 ^ 2 ∧
      cs = padded 4 date.1 ++ '-' :: (padded 2 date.2.1 ++ '-' :: (padded 2 date.2.2 ++ rest)) := by
  simp only [dateFields, Option.bind_eq_bind, Option.bind_eq_some_iff, Option.some.injEq,
    Prod.mk.injEq, Prod.exists] at h
  obtain ⟨_, _, hyear, _, hdash, _, _, hmonth, _, hdash', _, _, hday, rfl, rfl⟩ := h
  obtain ⟨hy, rfl⟩ := eq_padded_of_readDigits hyear
  obtain rfl := eq_cons_of_readChar hdash
  obtain ⟨hm, rfl⟩ := eq_padded_of_readDigits hmonth
  obtain rfl := eq_cons_of_readChar hdash'
  obtain ⟨hd, rfl⟩ := eq_padded_of_readDigits hday
  exact ⟨hy, hm, hd, rfl⟩

theorem fractionField_padded (hpos : 1 ≤ w) (hwidth : w ≤ 6) (hn : n < 10 ^ w) :
    fractionField (padded w n) = some (n * 10 ^ (6 - w)) := by
  have hread := readDigits_padded hn []
  rw [List.append_nil] at hread
  rw [fractionField, length_padded, if_pos ⟨hpos, hwidth⟩, hread]
  rfl

theorem eq_padded_of_fractionField {cs : List Char} {us : ℕ} (h : fractionField cs = some us) :
    ∃ w n, 1 ≤ w ∧ w ≤ 6 ∧ n < 10 ^ w ∧ cs = padded w n ∧ us = n * 10 ^ (6 - w) := by
  unfold fractionField at h
  split at h
  · next hlength =>
      obtain ⟨⟨n, rest⟩, hread, rfl⟩ := Option.map_eq_some_iff.mp h
      obtain ⟨hn, hcs⟩ := eq_padded_of_readDigits hread
      have hrest : rest = [] := by
        have hlen := congrArg List.length hcs
        rw [List.length_append, length_padded] at hlen
        exact List.length_eq_zero_iff.mp (by omega)
      rw [hrest, List.append_nil] at hcs
      exact ⟨cs.length, n, hlength.1, hlength.2, hn, hcs, rfl⟩
  · cases h

/-- What a clock text is read as. -/
theorem clockFields_clockText (hhour : hour < 10 ^ 2) (hminute : minute < 10 ^ 2)
    (hsecond : second < 10 ^ 2) (hwidth : w ≤ 6) (hn : n < 10 ^ w) :
    clockFields (clockText hour minute second w n) =
      some (hour, minute, second, n * 10 ^ (6 - w)) := by
  have hseconds : secondFields (padded 2 second ++ fractionText w n) =
      some (second, n * 10 ^ (6 - w)) := by
    rw [secondFields, readDigits_padded hsecond]
    rcases Nat.eq_zero_or_pos w with rfl | hpos
    · obtain rfl : n = 0 := by simpa using hn
      rfl
    · rw [fractionText, if_neg hpos.ne']
      simp only [Option.bind_eq_bind, Option.bind_some, fractionField_padded hpos hwidth hn,
        Option.map_some]
  simp only [clockFields, clockText, readDigits_padded hhour, readDigits_padded hminute,
    readChar_cons, Option.bind_eq_bind, Option.bind_some, hseconds, Option.map_some]

theorem splitUtc_timestampText (h : FieldBounds date hour minute second w n) :
    splitUtc (timestampText date hour minute second w n) =
      some (date, clockText hour minute second w n) := by
  unfold splitUtc timestampText
  rw [dateFields_padded h.year h.month h.day]
  simp only [List.getLast?_append, List.getLast?_singleton, Option.some_or, if_true,
    List.dropLast_concat]

theorem isTimestampText_timestampText (h : FieldBounds date hour minute second w n) :
    isTimestampText (timestampText date hour minute second w n) = true := by
  have hlong : 8 ≤ (clockText hour minute second w n).length := by
    simp only [clockText, List.length_append, List.length_cons, length_padded]
    omega
  simp only [isTimestampText, splitUtc_timestampText h, isClockText,
    clockFields_clockText h.hour h.minute h.second h.width h.fraction, hlong]
  rfl

theorem utcGroups_timestampText (h : FieldBounds date hour minute second w n) :
    utcGroups (timestampText date hour minute second w n) =
      some (date, (hour, minute, second), padded w n) := by
  have hgroup : fractionGroup (fractionText w n ++ ['Z']) = some (padded w n) := by
    rcases Nat.eq_zero_or_pos w with rfl | hpos
    · rfl
    · rw [fractionText, if_neg hpos.ne', List.cons_append]
      simp only [fractionGroup, List.dropLast_concat, fractionField_padded hpos h.width h.fraction,
        List.getLast?_append, List.getLast?_singleton, Option.some_or, Option.isSome_some, and_self,
        if_true]
  unfold utcGroups timestampText clockText
  simp only [dateFields_padded h.year h.month h.day, List.append_assoc, List.cons_append,
    readDigits_padded h.hour, readDigits_padded h.minute, readDigits_padded h.second, readChar_cons,
    Option.bind_eq_bind, Option.bind_some, hgroup]

end Reading

/-! ## The patterns take no other texts -/

theorem exists_of_splitUtc {cs clock : List Char} {date : ℕ × ℕ × ℕ}
    (h : splitUtc cs = some (date, clock)) :
    date.1 < 10 ^ 4 ∧ date.2.1 < 10 ^ 2 ∧ date.2.2 < 10 ^ 2 ∧
      cs = padded 4 date.1 ++ '-' :: (padded 2 date.2.1 ++ '-' :: (padded 2 date.2.2 ++
        'T' :: (clock ++ ['Z']))) := by
  unfold splitUtc at h
  split at h
  · next fields rest hfields =>
      split at h
      · next hlast =>
          cases h
          obtain ⟨hyear, hmonth, hday, htext⟩ := exists_of_dateFields hfields
          have hrest : rest = rest.dropLast ++ ['Z'] :=
            (List.dropLast_append_getLast? 'Z' hlast).symm
          refine ⟨hyear, hmonth, hday, ?_⟩
          rw [htext, ← hrest]
      · cases h
  · cases h

/-- A clock text of eight characters or more has its seconds. -/
theorem exists_of_clockFields {clock : List Char} {hour minute second us : ℕ}
    (h : clockFields clock = some (hour, minute, second, us)) (hlong : 8 ≤ clock.length) :
    ∃ w n, (hour < 10 ^ 2 ∧ minute < 10 ^ 2 ∧ second < 10 ^ 2) ∧ w ≤ 6 ∧ n < 10 ^ w ∧
      clock = clockText hour minute second w n := by
  simp only [clockFields, Option.bind_eq_bind, Option.bind_eq_some_iff, Prod.exists] at h
  obtain ⟨_, _, hhour, _, hcolon, _, rest, hminute, h⟩ := h
  obtain ⟨hh, rfl⟩ := eq_padded_of_readDigits hhour
  obtain rfl := eq_cons_of_readChar hcolon
  obtain ⟨hm, rfl⟩ := eq_padded_of_readDigits hminute
  simp only [List.length_append, List.length_cons, length_padded] at hlong
  -- nothing after the minute, the seconds, or another character
  split at h
  · simp only [List.length_nil] at hlong
    omega
  · next seconds =>
      simp only [secondFields, Option.bind_eq_bind, Option.map_eq_some_iff,
        Option.bind_eq_some_iff, Prod.exists, Prod.mk.injEq] at h
      obtain ⟨_, _, ⟨_, tail, hsecond, h⟩, rfl, rfl, rfl, rfl⟩ := h
      obtain ⟨hs, rfl⟩ := eq_padded_of_readDigits hsecond
      split at h
      · cases h
        exact ⟨0, 0, ⟨hh, hm, hs⟩, by norm_num, by norm_num, rfl⟩
      · next fraction =>
          simp only [Option.map_eq_some_iff, Prod.mk.injEq] at h
          obtain ⟨_, h, rfl, rfl⟩ := h
          obtain ⟨w, n, hpos, hwidth, hn, rfl, -⟩ := eq_padded_of_fractionField h
          refine ⟨w, n, ⟨hh, hm, hs⟩, hwidth, hn, ?_⟩
          rw [clockText, fractionText, if_neg (by omega)]
      · cases h
  · cases h

theorem exists_of_isTimestampText {cs : List Char} (h : isTimestampText cs = true) :
    ∃ date hour minute second w n, FieldBounds date hour minute second w n ∧
      cs = timestampText date hour minute second w n := by
  unfold isTimestampText at h
  split at h
  · next date clock hsplit =>
      obtain ⟨hyear, hmonth, hday, rfl⟩ := exists_of_splitUtc hsplit
      simp only [Bool.and_eq_true, decide_eq_true_eq, isClockText, Option.isSome_iff_exists,
        Prod.exists] at h
      obtain ⟨hlong, hour, minute, second, us, hclock⟩ := h
      obtain ⟨w, n, ⟨hh, hm, hs⟩, hwidth, hn, rfl⟩ := exists_of_clockFields hclock hlong
      exact ⟨date, hour, minute, second, w, n, ⟨hyear, hmonth, hday, hh, hm, hs, hwidth, hn⟩, rfl⟩
  · cases h

theorem exists_of_fractionGroup {cs fraction : List Char} (h : fractionGroup cs = some fraction) :
    ∃ w n, w ≤ 6 ∧ n < 10 ^ w ∧ cs = fractionText w n ++ ['Z'] ∧ fraction = padded w n := by
  unfold fractionGroup at h
  split at h
  · next digits =>
      split at h
      · next hcond =>
          cases h
          obtain ⟨us, hus⟩ := Option.isSome_iff_exists.mp hcond.2
          obtain ⟨w, n, hpos, hwidth, hn, hdigits, -⟩ := eq_padded_of_fractionField hus
          refine ⟨w, n, hwidth, hn, ?_, hdigits⟩
          rw [fractionText, if_neg (by omega), List.cons_append, ← hdigits]
          exact congrArg ('.' :: ·) (List.dropLast_append_getLast? 'Z' hcond.1).symm
      · cases h
  · cases h
    exact ⟨0, 0, by norm_num, by norm_num, rfl, rfl⟩
  · cases h

theorem exists_of_utcGroups {cs fraction : List Char} {date clock : ℕ × ℕ × ℕ}
    (h : utcGroups cs = some (date, clock, fraction)) :
    ∃ w n, FieldBounds date clock.1 clock.2.1 clock.2.2 w n ∧
      cs = timestampText date clock.1 clock.2.1 clock.2.2 w n ∧ fraction = padded w n := by
  simp only [utcGroups, Option.bind_eq_bind, Option.bind_eq_some_iff, Option.some.injEq,
    Prod.mk.injEq, Prod.exists] at h
  obtain ⟨_, _, _, _, hdate, _, hT, _, _, hhour, _, hcolon, _, _, hminute, _, hcolon', _, _, hsecond,
    _, hgroup, rfl, rfl, rfl⟩ := h
  obtain ⟨hyear, hmonth, hday, rfl⟩ := exists_of_dateFields hdate
  obtain rfl := eq_cons_of_readChar hT
  obtain ⟨hh, rfl⟩ := eq_padded_of_readDigits hhour
  obtain rfl := eq_cons_of_readChar hcolon
  obtain ⟨hm, rfl⟩ := eq_padded_of_readDigits hminute
  obtain rfl := eq_cons_of_readChar hcolon'
  obtain ⟨hs, rfl⟩ := eq_padded_of_readDigits hsecond
  obtain ⟨w, n, hwidth, hn, rfl, rfl⟩ := exists_of_fractionGroup hgroup
  refine ⟨w, n, ⟨hyear, hmonth, hday, hh, hm, hs, hwidth, hn⟩, ?_, rfl⟩
  simp only [timestampText, clockText, List.append_assoc, List.cons_append]

/-! ## What the two functions make of a text of the pattern -/

/-- The date-time with these fields, where there is one. -/
def instant? (date : ℕ × ℕ × ℕ) (hour minute second w n : ℕ) : Option NaiveDateTime := do
  let d ← CivilDate.mk? date.1 date.2.1 date.2.2
  let t ← ClockTime.mk? hour minute second (n * 10 ^ (6 - w))
  some ⟨d, t⟩

theorem utcFromIso_timestampText {date : ℕ × ℕ × ℕ} {hour minute second w n : ℕ}
    (h : FieldBounds date hour minute second w n) :
    utcFromIso (timestampText date hour minute second w n) =
      instant? date hour minute second w n := by
  simp only [utcFromIso, splitUtc_timestampText h, clockFromIso,
    clockFields_clockText h.hour h.minute h.second h.width h.fraction, instant?,
    Option.bind_eq_bind, Option.bind_some]

/-- A value that is checked, and then written. -/
theorem Checked.require_filter {α β : Type} (x : Option α) (p : α → Bool) (f : α → β) :
    (do
      Checked.require true
      let a ← Checked.ofOption x
      Checked.require (p a)
      pure (f a)) = Checked.ofOption ((x.filter p).map f) := by
  rcases x with _ | a
  · rfl
  · rw [Option.filter]
    simp only [Checked.require, Checked.ofOption, if_true, Checked.ok_bind]
    rcases p a with _ | _ <;> rfl

theorem timestamp_timestampText {date : ℕ × ℕ × ℕ} {hour minute second w n : ℕ}
    (h : FieldBounds date hour minute second w n) :
    timestamp (timestampText date hour minute second w n) =
      Checked.ofOption (((instant? date hour minute second w n).filter supportedUtc).map isoUtc) := by
  rw [timestamp, isTimestampText_timestampText h, utcFromIso_timestampText h]
  exact Checked.require_filter _ supportedUtc isoUtc

/-- A zero more is a place more. -/
theorem padded_append_zeros {w : ℕ} (n k : ℕ) :
    padded w n ++ List.replicate k '0' = padded (w + k) (n * 10 ^ k) := by
  induction k with
  | zero => simp
  | succ k ih =>
      have hmul : n * 10 ^ (k + 1) = 10 * (n * 10 ^ k) := by ring
      have hdiv : n * 10 ^ (k + 1) / 10 = n * 10 ^ k := by omega
      have hmod : n * 10 ^ (k + 1) % 10 = 0 := by omega
      rw [List.replicate_succ', ← List.append_assoc, ih, ← Nat.add_assoc, padded, hdiv, hmod]
      rfl

theorem length_jsText {cs : List Char} (h : IsAscii cs) : (jsText cs).length = cs.length := by
  induction cs with
  | nil => rfl
  | cons c cs ih =>
      obtain ⟨hc, hcs⟩ := isAscii_cons.1 h
      have hunit : (utf16 (scalar c)).length = 1 := by
        have hlt : (scalar c).val < 0x10000 := lt_trans (show (scalar c).val < 128 from hc) (by norm_num)
        simp only [utf16, hlt, dif_pos, List.length_singleton]
      have htail := ih hcs
      unfold jsText at htail ⊢
      rw [List.map_cons, utf16Encode_cons, List.length_append, htail, hunit, List.length_cons]
      omega

theorem isAscii_timestampText (date : ℕ × ℕ × ℕ) (hour minute second w n : ℕ) :
    IsAscii (timestampText date hour minute second w n) := by
  have hfraction : IsAscii (fractionText w n) := by
    unfold fractionText
    split
    · exact List.forall_mem_nil _
    · exact isAscii_cons.2 ⟨by decide, isAscii_padded w n⟩
  have hnil : IsAscii [] := List.forall_mem_nil _
  simp only [timestampText, clockText, isAscii_append, isAscii_cons, isAscii_padded, hfraction, hnil,
    true_and, and_true]
  decide

theorem nodeFirst_eq : nodeFirst * 1000 + epochDay * microsPerDay = firstUtc.micros := by decide

theorem nodeEnd_eq : nodeEnd * 1000 + epochDay * microsPerDay = endUtc.micros := by decide

/-- The two ranges are one: their ends are whole seconds. -/
theorem supportedUtc_iff (u : NaiveDateTime) :
    supportedUtc u = true ↔ nodeFirst ≤ timeValue u ∧ timeValue u < nodeEnd := by
  have hmicro := u.time.microsecond_lt
  rw [supportedUtc, decide_eq_true_eq, ← nodeFirst_eq, ← nodeEnd_eq, micros_eq_timeValue]
  have hseconds : timeValue u % 1000 = 0 := by
    simp only [timeValue, makeTime, msPerDay]
    omega
  have hfirst : nodeFirst % 1000 = 0 := by decide
  have hend : nodeEnd % 1000 = 0 := by decide
  omega

/-- A supported year is not one that `Date.UTC` takes for another. -/
theorem year_of_supportedUtc {u : NaiveDateTime} (h : supportedUtc u = true) :
    100 ≤ u.date.year := by
  have hstart : NaiveDateTime.yearStart 100 ≤ firstUtc.micros := by decide
  rw [supportedUtc, decide_eq_true_eq] at h
  exact NaiveDateTime.le_year_iff.2 (hstart.trans h.1)

/-- The fields of a text come back from `Date.UTC` within the range exactly when they are those of a
    supported date-time. -/
theorem fields_come_back {date : ℕ × ℕ × ℕ} {hour minute second w n : ℕ} {t : ℤ}
    (hbounds : FieldBounds date hour minute second w n)
    (ht : dateUtc date.1 (date.2.1 - 1) date.2.2 hour minute second = some t)
    (hyear : yearFromTime t = date.1) (hmonth : monthFromTime t = date.2.1 - 1)
    (hday : dateFromTime t = date.2.2) (hhour : hourFromTime t = hour)
    (hminute : minFromTime t = minute) (hsecond : secFromTime t = second) :
    ∃ u, instant? date hour minute second w n = some u ∧ t = timeValue u := by
  have hlate : 100 ≤ date.1 := by
    by_contra hshort
    exact yearFromTime_of_short (by omega) ht hyear
  have hmicro : n * 10 ^ (6 - w) < 1000000 := by
    calc n * 10 ^ (6 - w) < 10 ^ w * 10 ^ (6 - w) :=
          Nat.mul_lt_mul_of_pos_right hbounds.fraction (by positivity)
      _ = 10 ^ 6 := by rw [← pow_add, Nat.add_sub_of_le hbounds.width]
  have hmax := hbounds.year
  obtain ⟨d, hd⟩ := exists_mk?_of_fields (by omega) (by omega) hyear hmonth hday
  obtain ⟨c, hc⟩ := exists_clock_of_fields _ hmicro hhour hminute hsecond
  refine ⟨⟨d, c⟩, by simp only [instant?, hd, hc, Option.bind_eq_bind, Option.bind_some], ?_⟩
  obtain ⟨hdy, hdm, hdd⟩ := CivilDate.mk?_eq_some.1 hd
  obtain ⟨hch, hcm, hcs, -⟩ := ClockTime.mk?_eq_some.1 hc
  have hvalue := dateUtc_of_date ⟨d, c⟩ (hlate.trans_eq hdy.symm)
  simp only [hdy, hdm, hdd, hch, hcm, hcs] at hvalue
  exact Option.some.inj (ht.symm.trans hvalue)

/-- What stands before the fraction. -/
theorem timestampText_eq {date : ℕ × ℕ × ℕ} {hour minute second w n : ℕ} {u : NaiveDateTime}
    (h : instant? date hour minute second w n = some u) (hwidth : w ≤ 6) :
    ∃ front : List Char, IsAscii front ∧ front.length = 19 ∧
      timestampText date hour minute second w n = front ++ (fractionText w n ++ ['Z']) ∧
      isoUtc u = front ++ '.' :: (padEnd 6 '0' (padded w n) ++ ['Z']) := by
  simp only [instant?, Option.bind_eq_bind, Option.bind_eq_some_iff, Option.some.injEq] at h
  obtain ⟨d, hd, c, hc, rfl⟩ := h
  obtain ⟨hdy, hdm, hdd⟩ := CivilDate.mk?_eq_some.1 hd
  obtain ⟨hch, hcm, hcs, hcu⟩ := ClockTime.mk?_eq_some.1 hc
  have hpad : padEnd 6 '0' (padded w n) = padded 6 (n * 10 ^ (6 - w)) := by
    rw [padEnd, length_padded, padded_append_zeros, Nat.add_sub_of_le hwidth]
  have hnil : IsAscii [] := List.forall_mem_nil _
  refine ⟨padded 4 date.1 ++ '-' :: (padded 2 date.2.1 ++ '-' :: (padded 2 date.2.2 ++ 'T' ::
    (padded 2 hour ++ ':' :: (padded 2 minute ++ ':' :: padded 2 second)))), ?_, ?_, ?_, ?_⟩
  · simp only [isAscii_append, isAscii_cons, isAscii_padded, true_and, and_true]
    decide
  · simp only [List.length_append, List.length_cons, length_padded]
  · simp only [timestampText, clockText, List.append_assoc, List.cons_append]
  · rw [hpad]
    simp only [isoUtc, isoDate, isoTime, hdy, hdm, hdd, hch, hcm, hcs, hcu, List.append_assoc,
      List.cons_append]

theorem nodeTimestamp_timestampText {date : ℕ × ℕ × ℕ} {hour minute second w n : ℕ}
    (h : FieldBounds date hour minute second w n) :
    nodeTimestamp (jsText (timestampText date hour minute second w n)) =
      ((instant? date hour minute second w n).filter supportedUtc).elim (.error .utcRange)
        fun u => .ok (jsText (isoUtc u)) := by
  have hgroups : (jsAscii? (jsText (timestampText date hour minute second w n))).bind utcGroups =
      some (date, (hour, minute, second), padded w n) := by
    rw [jsText, jsAscii?_eq_some.2 ⟨isAscii_timestampText date hour minute second w n, rfl⟩, Option.bind_some,
      utcGroups_timestampText h]
  rw [nodeTimestamp, hgroups]
  simp only
  rcases hinstant : (instant? date hour minute second w n).filter supportedUtc with _ | u
  · -- no supported date-time has these fields, so they do not come back
    simp only [Option.filter_eq_none_iff] at hinstant
    split
    · rfl
    · next t ht =>
        split
        · rfl
        · next hback =>
            push Not at hback
            obtain ⟨hy, hmo, hd, hh, hmi, hs, hlow, hhigh⟩ := hback
            obtain ⟨u, hu, rfl⟩ := fields_come_back h ht hy hmo hd hh hmi hs
            exact absurd ((supportedUtc_iff u).mpr ⟨hlow, hhigh⟩) (hinstant u hu)
  · obtain ⟨hu, hsupported⟩ := Option.filter_eq_some_iff.mp hinstant
    obtain ⟨front, hfront, hlength, htext, hiso⟩ := timestampText_eq hu h.width
    simp only [instant?, Option.bind_eq_bind, Option.bind_eq_some_iff, Option.some.injEq] at hu
    obtain ⟨d, hd, c, hc, rfl⟩ := hu
    obtain ⟨hdy, hdm, hdd⟩ := CivilDate.mk?_eq_some.1 hd
    obtain ⟨hch, hcm, hcs, -⟩ := ClockTime.mk?_eq_some.1 hc
    have ht := dateUtc_of_date ⟨d, c⟩ (year_of_supportedUtc hsupported)
    obtain ⟨hlow, hhigh⟩ := (supportedUtc_iff _).mp hsupported
    have hy := yearFromTime_timeValue ⟨d, c⟩
    have hmo := monthFromTime_timeValue ⟨d, c⟩
    have hday := dateFromTime_timeValue ⟨d, c⟩
    have hh := hourFromTime_timeValue ⟨d, c⟩
    have hmi := minFromTime_timeValue ⟨d, c⟩
    have hs := secFromTime_timeValue ⟨d, c⟩
    simp only [hdy, hdm, hdd, hch, hcm, hcs] at ht hy hmo hday hh hmi hs
    have htake : (jsText (timestampText date hour minute second w n)).take 19 = jsText front := by
      rw [htext, jsText_append, List.take_left' ((length_jsText hfront).trans hlength)]
    simp only [ht, htake, Option.elim_some, hiso, jsText_append, hy, hmo, hday, hh, hmi, hs, ne_eq, not_true, false_or, not_lt.mpr hlow,
      not_le.mpr hhigh, if_false]

/-! ## The order of the texts -/

theorem digitChar_lt_iff {d e : ℕ} (hd : d < 10) (he : e < 10) :
    Nat.digitChar d < Nat.digitChar e ↔ d < e := by
  have hall : ∀ d < 10, ∀ e < 10, Nat.digitChar d < Nat.digitChar e ↔ d < e := by decide
  exact hall d hd e he

theorem digitChar_inj {d e : ℕ} (hd : d < 10) (he : e < 10) :
    Nat.digitChar d = Nat.digitChar e ↔ d = e := by
  have hall : ∀ d < 10, ∀ e < 10, Nat.digitChar d = Nat.digitChar e ↔ d = e := by decide
  exact hall d hd e he

/-- Fields of one width are in the order of their numbers. -/
theorem padded_append_lt {w m n : ℕ} (hm : m < 10 ^ w) (hn : n < 10 ^ w) (r s : List Char) :
    padded w m ++ r < padded w n ++ s ↔ m < n ∨ m = n ∧ r < s := by
  induction w generalizing m n with
  | zero =>
      obtain rfl : m = 0 := by simpa using hm
      obtain rfl : n = 0 := by simpa using hn
      simp [padded]
  | succ w ih =>
      have hpos : 0 < 10 ^ w := by positivity
      have hhead : ∀ {k : ℕ}, k < 10 ^ (w + 1) → k / 10 ^ w % 10 = k / 10 ^ w ∧ k / 10 ^ w < 10 := by
        intro k hk
        have hlt : k / 10 ^ w < 10 := by
          rw [Nat.div_lt_iff_lt_mul hpos]
          rwa [pow_succ'] at hk
        exact ⟨Nat.mod_eq_of_lt hlt, hlt⟩
      have htail : ∀ k : ℕ, padded w k = padded w (k % 10 ^ w) := by
        intro k
        rw [← padded_of_lt (k / 10 ^ w) (Nat.mod_lt k hpos), Nat.div_add_mod']
      rw [padded_succ, padded_succ, (hhead hm).1, (hhead hn).1, List.cons_append, List.cons_append,
        List.cons_lt_cons_iff, digitChar_lt_iff (hhead hm).2 (hhead hn).2,
        digitChar_inj (hhead hm).2 (hhead hn).2, htail m, htail n,
        ih (Nat.mod_lt m hpos) (Nat.mod_lt n hpos)]
      have hm' := Nat.div_add_mod m (10 ^ w)
      have hn' := Nat.div_add_mod n (10 ^ w)
      rcases lt_trichotomy (m / 10 ^ w) (n / 10 ^ w) with h | h | h
      · have hlt : m < n := by
          by_contra hge
          exact absurd (Nat.div_le_div_right (not_lt.mp hge)) (not_le.mpr h)
        simp only [h, hlt, true_or]
      · rw [h] at hm'
        have hlt : m % 10 ^ w < n % 10 ^ w ↔ m < n := by omega
        have heq : m % 10 ^ w = n % 10 ^ w ↔ m = n := by omega
        simp only [h, lt_irrefl, false_or, true_and, hlt, heq]
      · have hlt : n < m := by
          by_contra hge
          exact absurd (Nat.div_le_div_right (not_lt.mp hge)) (not_le.mpr h)
        simp only [not_lt.mpr h.le, h.ne', not_lt.mpr hlt.le, hlt.ne', false_and, or_self]

/-- A date is before another when its fields are. -/
theorem CivilDate.dayNumber_lt_iff {d e : CivilDate} :
    d.dayNumber < e.dayNumber ↔
      d.year < e.year ∨ d.year = e.year ∧ (d.month < e.month ∨ d.month = e.month ∧ d.day < e.day) := by
  -- earlier fields are an earlier day, and of two dates with different fields one has the earlier
  have hlater : ∀ {d e : CivilDate}, (d.year < e.year ∨ d.year = e.year ∧
      (d.month < e.month ∨ d.month = e.month ∧ d.day < e.day)) → d.dayNumber < e.dayNumber := by
    rintro d e (hyear | ⟨hyear, hmonth | ⟨hmonth, hday⟩⟩)
    · exact d.dayNumber_lt_succ_year.trans_le (CivilDate.le_year_iff.1 hyear)
    · have hmono := @daysBeforeMonth_mono (isLeap e.year) _ _ (Nat.succ_le_of_lt hmonth)
      have hd := d.day_le
      have hpos := d.day_pos
      rw [Nat.succ_eq_add_one, daysBeforeMonth_succ d.month_pos] at hmono
      rw [hyear] at hd
      rw [dayNumber, dayNumber, hyear]
      omega
    · have hpos := d.day_pos
      rw [dayNumber, dayNumber, hyear, hmonth]
      omega
  constructor
  · intro h
    by_contra hfields
    have hcases : d.dayNumber = e.dayNumber ∨ e.dayNumber < d.dayNumber := by
      by_cases hsame : d.year = e.year ∧ d.month = e.month ∧ d.day = e.day
      · obtain ⟨hyear, hmonth, hday⟩ := hsame
        rw [dayNumber, dayNumber, hyear, hmonth, hday]
        exact .inl rfl
      · exact .inr (hlater (by omega))
    omega
  · exact hlater

theorem ClockTime.micros_lt_iff {t u : ClockTime} :
    t.micros < u.micros ↔ t.hour < u.hour ∨ t.hour = u.hour ∧ (t.minute < u.minute ∨
      t.minute = u.minute ∧ (t.second < u.second ∨
        t.second = u.second ∧ t.microsecond < u.microsecond)) := by
  have ht := t.minute_lt
  have hu := u.minute_lt
  have ht' := t.second_lt
  have hu' := u.second_lt
  have ht'' := t.microsecond_lt
  have hu'' := u.microsecond_lt
  simp only [micros]
  omega

/-- The texts are in the order of the instants. -/
theorem isoUtc_lt_iff {u v : NaiveDateTime} : isoUtc u < isoUtc v ↔ u.micros < v.micros := by
  have hyear : ∀ d : CivilDate, d.year < 10 ^ 4 := fun d => d.year_le.trans_lt (by norm_num)
  have hmonth : ∀ d : CivilDate, d.month < 10 ^ 2 := fun d => d.month_le.trans_lt (by norm_num)
  have hday : ∀ d : CivilDate, d.day < 10 ^ 2 := CivilDate.day_lt
  have hhour : ∀ t : ClockTime, t.hour < 10 ^ 2 := fun t => t.hour_lt.trans (by norm_num)
  have hminute : ∀ t : ClockTime, t.minute < 10 ^ 2 := fun t => t.minute_lt.trans (by norm_num)
  have hsecond : ∀ t : ClockTime, t.second < 10 ^ 2 := fun t => t.second_lt.trans (by norm_num)
  have hmicro : ∀ t : ClockTime, t.microsecond < 10 ^ 6 := ClockTime.microsecond_lt
  -- the micros are ordered by day and then within the day
  have hcount : u.micros < v.micros ↔ u.date.dayNumber < v.date.dayNumber ∨
      u.date.dayNumber = v.date.dayNumber ∧ u.time.micros < v.time.micros := by
    have hu := u.time.micros_lt
    have hv := v.time.micros_lt
    simp only [NaiveDateTime.micros, microsPerDay] at *
    omega
  have hdate : u.date.dayNumber = v.date.dayNumber ↔ u.date.year = v.date.year ∧
      u.date.month = v.date.month ∧ u.date.day = v.date.day := by
    constructor
    · intro h
      rw [CivilDate.dayNumber_injective h]
      exact ⟨rfl, rfl, rfl⟩
    · rintro ⟨hy, hm, hd⟩
      rw [CivilDate.dayNumber, CivilDate.dayNumber, hy, hm, hd]
  rw [hcount, hdate, CivilDate.dayNumber_lt_iff, ClockTime.micros_lt_iff]
  -- fields of fixed width compare as their numbers, the first difference decides
  simp only [isoUtc, isoDate, isoTime, List.append_assoc, List.cons_append,
    padded_append_lt (hyear _) (hyear _), padded_append_lt (hmonth _) (hmonth _),
    padded_append_lt (hday _) (hday _), padded_append_lt (hhour _) (hhour _),
    padded_append_lt (hminute _) (hminute _), padded_append_lt (hsecond _) (hsecond _),
    padded_append_lt (hmicro _) (hmicro _), List.cons_lt_cons_iff, lt_irrefl, false_or, true_and,
    and_false, or_false]
  simp only [and_or_left, or_assoc, and_assoc]

/-! ## The result -/

/-- A text `YYYY-MM-DDTHH:MM:SS[.f]Z`, its fraction of up to six digits, with the fields of a
    date-time. -/
def DenotesUtc (text : List CodePoint) (u : NaiveDateTime) : Prop :=
  ∃ w n, w ≤ 6 ∧ n < 10 ^ w ∧ u.time.microsecond = n * 10 ^ (6 - w) ∧
    text = (timestampText (u.date.year, u.date.month, u.date.day) u.time.hour u.time.minute
      u.time.second w n).map scalar

theorem instant?_eq_some {date : ℕ × ℕ × ℕ} {hour minute second w n : ℕ} {u : NaiveDateTime} :
    instant? date hour minute second w n = some u ↔
      (date = (u.date.year, u.date.month, u.date.day) ∧ hour = u.time.hour ∧
        minute = u.time.minute ∧ second = u.time.second) ∧
      u.time.microsecond = n * 10 ^ (6 - w) := by
  obtain ⟨year, month, day⟩ := date
  simp only [instant?, Option.bind_eq_bind, Option.bind_eq_some_iff, Option.some.injEq,
    Prod.mk.injEq]
  constructor
  · rintro ⟨d, hd, c, hc, rfl⟩
    obtain ⟨rfl, rfl, rfl⟩ := CivilDate.mk?_eq_some.1 hd
    obtain ⟨rfl, rfl, rfl, hmicro⟩ := ClockTime.mk?_eq_some.1 hc
    exact ⟨⟨⟨rfl, rfl, rfl⟩, rfl, rfl, rfl⟩, hmicro⟩
  · rintro ⟨⟨⟨rfl, rfl, rfl⟩, rfl, rfl, rfl⟩, hmicro⟩
    exact ⟨u.date, u.date.mk?_fields, u.time,
      ClockTime.mk?_eq_some.2 ⟨rfl, rfl, rfl, hmicro⟩, rfl⟩

theorem DenotesUtc.bounds {text : List CodePoint} {u : NaiveDateTime} (h : DenotesUtc text u) :
    ∃ w n, FieldBounds (u.date.year, u.date.month, u.date.day) u.time.hour u.time.minute
        u.time.second w n ∧
      instant? (u.date.year, u.date.month, u.date.day) u.time.hour u.time.minute u.time.second w n =
        some u ∧
      text = (timestampText (u.date.year, u.date.month, u.date.day) u.time.hour u.time.minute
        u.time.second w n).map scalar := by
  obtain ⟨w, n, hwidth, hn, hmicro, htext⟩ := h
  refine ⟨w, n, ⟨u.date.year_le.trans_lt (by norm_num), u.date.month_le.trans_lt (by norm_num),
    u.date.day_lt, u.time.hour_lt.trans (by norm_num), u.time.minute_lt.trans (by norm_num),
    u.time.second_lt.trans (by norm_num), hwidth, hn⟩, ?_, htext⟩
  exact instant?_eq_some.2 ⟨⟨rfl, rfl, rfl, rfl⟩, hmicro⟩

/-- A text denotes one date-time. -/
theorem DenotesUtc.unique {text : List CodePoint} {u v : NaiveDateTime} (hu : DenotesUtc text u)
    (hv : DenotesUtc text v) : u = v := by
  obtain ⟨w, n, hbounds, hsome, rfl⟩ := hu.bounds
  obtain ⟨w', n', hbounds', hsome', htext⟩ := hv.bounds
  rw [← utcFromIso_timestampText hbounds, map_scalar_injective htext,
    utcFromIso_timestampText hbounds', hsome'] at hsome
  exact (Option.some.inj hsome).symm

/-- A string outside the pattern is refused twice. -/
theorem timestamps_of_no_text {text : List CodePoint}
    (h : ∀ date hour minute second w n, FieldBounds date hour minute second w n →
      text ≠ (timestampText date hour minute second w n).map scalar) :
    pyTimestamp text = .valueError ∧ nodeTimestamp (utf16Encode text) = .error .utc := by
  constructor
  · unfold pyTimestamp
    split
    · next cs hcs =>
        have hpattern : isTimestampText cs = false := by
          by_contra hne
          obtain ⟨date, hour, minute, second, w, n, hbounds, rfl⟩ :=
            exists_of_isTimestampText (Bool.of_not_eq_false hne)
          exact h _ _ _ _ _ _ hbounds (map_scalar_of_scalars? hcs).symm
        rw [timestamp, hpattern]
        rfl
    · rfl
  · have hgroups : (jsAscii? (utf16Encode text)).bind utcGroups = none := by
      by_contra hne
      obtain ⟨⟨date, clock, fraction⟩, hsome⟩ := Option.ne_none_iff_exists'.mp hne
      obtain ⟨cs, hcs, hread⟩ := Option.bind_eq_some_iff.mp hsome
      obtain ⟨w, n, hbounds, rfl, -⟩ := exists_of_utcGroups hread
      exact h _ _ _ _ _ _ hbounds (jsAscii?_eq_some.1 hcs).2
    rw [nodeTimestamp, hgroups]

/-- Whatever the string, both functions give the text of the supported date-time it denotes, or both
    refuse it because it denotes none. -/
theorem timestamps_agree (text : List CodePoint) :
    (∃ u, DenotesUtc text u ∧ supportedUtc u = true ∧ pyTimestamp text = .ok (isoUtc u) ∧
      nodeTimestamp (utf16Encode text) = .ok (jsText (isoUtc u))) ∨
    ((∀ u, DenotesUtc text u → supportedUtc u = false) ∧ pyTimestamp text = .valueError ∧
      ∃ e, nodeTimestamp (utf16Encode text) = .error e) := by
  -- both implementations match the same pattern first
  by_cases hpattern : ∃ date hour minute second w n, FieldBounds date hour minute second w n ∧
      text = (timestampText date hour minute second w n).map scalar
  · obtain ⟨date, hour, minute, second, w, n, hbounds, rfl⟩ := hpattern
    have hpython := timestamp_timestampText hbounds
    have hnode := nodeTimestamp_timestampText hbounds
    rw [pyTimestamp, scalars?_map_scalar]
    rcases hinstant : (instant? date hour minute second w n).filter supportedUtc with _ | u
    · rw [hinstant] at hpython hnode
      refine .inr ⟨fun u hu => ?_, hpython, _, hnode⟩
      obtain ⟨w', n', hbounds', hsome, htext⟩ := hu.bounds
      rw [← utcFromIso_timestampText hbounds', ← map_scalar_injective htext,
        utcFromIso_timestampText hbounds] at hsome
      simpa [hsome] using hinstant
    · rw [hinstant] at hpython hnode
      obtain ⟨hsome, hsupported⟩ := Option.filter_eq_some_iff.mp hinstant
      obtain ⟨⟨rfl, rfl, rfl, rfl⟩, hmicro⟩ := instant?_eq_some.1 hsome
      exact .inl ⟨u, ⟨w, n, hbounds.width, hbounds.fraction, hmicro, rfl⟩, hsupported, hpython, hnode⟩
  · have hnone : ∀ date hour minute second w n, FieldBounds date hour minute second w n →
        text ≠ (timestampText date hour minute second w n).map scalar :=
      fun date hour minute second w n hbounds htext =>
        hpattern ⟨date, hour, minute, second, w, n, hbounds, htext⟩
    obtain ⟨hpython, hnode⟩ := timestamps_of_no_text hnone
    refine .inr ⟨fun u hu => ?_, hpython, _, hnode⟩
    obtain ⟨w, n, hbounds, -, htext⟩ := hu.bounds
    exact absurd ⟨_, _, _, _, w, n, hbounds, htext⟩ hpattern

theorem denotesUtc_isoUtc (u : NaiveDateTime) : DenotesUtc ((isoUtc u).map scalar) u := by
  refine ⟨6, u.time.microsecond, le_rfl, u.time.microsecond_lt, by simp, ?_⟩
  simp [isoUtc, isoDate, isoTime, timestampText, clockText, fractionText]

/-- **The two implementations of `timestamp` take the supported instants, and agree on them.** Every
    string is refused by both, or is taken by both as the one supported date-time it denotes and
    rewritten to the text of that. The texts are equal for equal instants only, are sorted as the
    instants are, and are rewritten to themselves. -/
theorem timestamp_exact :
    (∀ text out, pyTimestamp text = .ok out ↔
      ∃ u, DenotesUtc text u ∧ supportedUtc u = true ∧ out = isoUtc u) ∧
    (∀ text out, nodeTimestamp (utf16Encode text) = .ok out ↔
      ∃ s, pyTimestamp text = .ok s ∧ out = jsText s) ∧
    (∀ text, (∃ s, pyTimestamp text = .ok s) ∨
      pyTimestamp text = .valueError ∧ ∃ e, nodeTimestamp (utf16Encode text) = .error e) ∧
    (∀ text text' u v s t, DenotesUtc text u → DenotesUtc text' v → pyTimestamp text = .ok s →
      pyTimestamp text' = .ok t →
      (s = t ↔ u.micros = v.micros) ∧ (s < t ↔ u.micros < v.micros)) ∧
    (∀ text s, pyTimestamp text = .ok s → pyTimestamp (s.map scalar) = .ok s) := by
  have hpython : ∀ text out, pyTimestamp text = .ok out ↔
      ∃ u, DenotesUtc text u ∧ supportedUtc u = true ∧ out = isoUtc u := by
    intro text out
    rcases timestamps_agree text with ⟨u, hu, hsupported, hok, -⟩ | ⟨hnone, herror, -⟩
    · constructor
      · intro h
        exact ⟨u, hu, hsupported, Checked.ok.inj (h.symm.trans hok)⟩
      · rintro ⟨v, hv, -, rfl⟩
        rw [hok, hu.unique hv]
    · constructor
      · intro h
        rw [herror] at h
        cases h
      · rintro ⟨v, hv, hsupported, -⟩
        rw [hnone v hv] at hsupported
        cases hsupported
  have hdenoted : ∀ {text u s}, DenotesUtc text u → pyTimestamp text = .ok s → s = isoUtc u := by
    intro text u s hu hs
    obtain ⟨v, hv, -, rfl⟩ := (hpython text s).mp hs
    rw [hu.unique hv]
  refine ⟨hpython, ?_, ?_, ?_, ?_⟩
  · intro text out
    rcases timestamps_agree text with ⟨u, -, -, hok, hnode⟩ | ⟨-, herror, e, hnode⟩
    · rw [hok, hnode]
      simp [eq_comm]
    · rw [herror, hnode]
      simp
  · intro text
    rcases timestamps_agree text with ⟨u, -, -, hok, -⟩ | ⟨-, herror, hnode⟩
    · exact .inl ⟨_, hok⟩
    · exact .inr ⟨herror, hnode⟩
  · intro text text' u v s t hu hv hs ht
    obtain rfl := hdenoted hu hs
    obtain rfl := hdenoted hv ht
    exact ⟨isoUtc_eq_iff, isoUtc_lt_iff⟩
  · intro text s hs
    obtain ⟨u, -, hsupported, rfl⟩ := (hpython text s).mp hs
    exact (hpython _ _).mpr ⟨u, denotesUtc_isoUtc u, hsupported, rfl⟩

end AstroPassport
