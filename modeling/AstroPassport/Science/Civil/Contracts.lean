import AstroPassport.Lib.Calendar
import AstroPassport.Lib.Except
import AstroPassport.Science.Boundary

set_option autoImplicit false

/-! # Civil-time records

`RawBirthInput` of `raw_input.py` and `ResolvedCivilTime` of `civil/contracts.py`, with the order in
which their validators look at a value and what each of them raises. As for boundary facts, a value
is any value of the class; a single-literal field is left out. The one exception that is not a
`ValueError` is the `OverflowError` of adding the offset to the UTC.

A clock time and an instant are those of Python: the time has a fold and may have a zone attached,
which the validators refuse, and an instant has an offset that they want to be zero. Validation is
split into the fields, the source, and the comparison of the instant with the local clock
(`validFields`, `validSource`, `coherentWith`), since the addition stands between the second and the
third. `modelValidate_eq_error` says which exception a value leads to. -/

namespace AstroPassport

/-! ## Python values -/

/-- A `datetime.time`. -/
structure PyTime where
  clock : ClockTime
  fold : Bool
  aware : Bool
  deriving DecidableEq

/-- A `datetime.datetime` with its `utcoffset()` in microseconds, which is `None` for a naive
    one. -/
structure PyDateTime where
  naive : NaiveDateTime
  utcoffset : Option ℤ
  fold : Bool
  deriving DecidableEq

/-- `datetime(..., tzinfo=UTC)`. -/
def PyDateTime.utc (d : NaiveDateTime) : PyDateTime := ⟨d, some 0, false⟩

/-- A `datetime.time` without a zone. -/
def PyTime.naive (t : ClockTime) : PyTime := ⟨t, false, false⟩

/-- `CivilTimeFailure`. -/
inductive CivilTimeFailure where
  | invalidInput
  | unresolvedZone
  | invalidFold
  | ambiguousLocalTime
  | nonexistentLocalTime
  | artifactUnavailable
  | artifactIntegrity
  | artifactInvalid
  | unsupportedRuntime
  deriving DecidableEq, Repr

/-- What the civil code raises; a `ValidationError` of the models is a `ValueError`. -/
inductive CivilRaise where
  | civilTime (category : CivilTimeFailure)
  | valueError
  | overflowError
  deriving DecidableEq, Repr

/-! ## Raw input -/

/-- `RawBirthInput`. -/
structure RawBirthInput where
  date : CivilDate
  time : PyTime
  placeQuery : String
  deriving DecidableEq

/-- `str.isspace` of one character. -/
def isPySpace (c : Char) : Bool :=
  (9 ≤ c.toNat && c.toNat ≤ 13) || (28 ≤ c.toNat && c.toNat ≤ 32) ||
    [0x85, 0xa0, 0x1680, 0x2028, 0x2029, 0x202f, 0x205f, 0x3000].contains c.toNat ||
    (0x2000 ≤ c.toNat && c.toNat ≤ 0x200a)

/-- `str.strip()`. -/
def pyStrip (s : List Char) : List Char :=
  ((s.dropWhile isPySpace).reverse.dropWhile isPySpace).reverse

/-- `MAX_PLACE_QUERY_LENGTH`. -/
def maxPlaceQueryLength : ℕ := 256

namespace RawBirthInput

/-- `require_naive_local_time`. -/
def requireNaiveLocalTime (t : PyTime) : Bool := !t.aware && !t.fold

/-- `trim_place_query`, then the length. -/
def trimPlaceQuery (s : String) : Option String :=
  let trimmed := pyStrip s.toList
  if 1 ≤ trimmed.length ∧ trimmed.length ≤ maxPlaceQueryLength then some (String.ofList trimmed)
  else none

/-- `RawBirthInput.model_validate` of the value's own dump. -/
def modelValidate (raw : RawBirthInput) : Except CivilRaise RawBirthInput :=
  match trimPlaceQuery raw.placeQuery with
  | none => .error .valueError
  | some placeQuery =>
    if requireNaiveLocalTime raw.time then .ok { raw with placeQuery } else .error .valueError

theorem modelValidate_eq_ok {raw checked : RawBirthInput} (h : raw.modelValidate = .ok checked) :
    checked.date = raw.date ∧ checked.time = raw.time ∧
      requireNaiveLocalTime raw.time = true := by
  unfold modelValidate at h
  split at h
  · cases h
  · split at h
    · next htime =>
        cases h
        exact ⟨rfl, rfl, htime⟩
    · cases h

end RawBirthInput

/-! ## Limitations -/

/-- `dt.date(1970, 1, 1)`. -/
def recordsBegin : CivilDate :=
  ⟨1970, 1, 1, by decide, by decide, by decide, by decide, by decide, by decide⟩

/-- `dt.date(2026, 7, 8)`. -/
def rulesReleased : CivilDate :=
  ⟨2026, 7, 8, by decide, by decide, by decide, by decide, by decide, by decide⟩

/-- `limitations_for`. -/
def limitationsFor (date : CivilDate) : List String :=
  ["modern-geography-not-date-specific-jurisdiction"] ++
    (if date.dayNumber < recordsBegin.dayNumber then
      ["pre1970-records-have-limited-assurance"] else []) ++
    (if rulesReleased.dayNumber < date.dayNumber then
      ["post-release-rules-are-not-a-prediction-guarantee"] else [])

/-! ## The resolved record -/

/-- `CivilTimeProvenance`, less its literals. -/
structure CivilTimeProvenance where
  archiveSha256 : String
  tzdataSourceSha256 : String
  tzcodeSourceSha256 : String
  tzifSha256 : String
  deriving DecidableEq

/-- The four digests. -/
def CivilTimeProvenance.valid (p : CivilTimeProvenance) : Bool :=
  isDigest p.archiveSha256 && isDigest p.tzdataSourceSha256 && isDigest p.tzcodeSourceSha256 &&
    isDigest p.tzifSha256

/-- `resolution`. -/
inductive Resolution where
  | unique
  | explicitFold
  deriving DecidableEq, Repr

/-- `ResolvedCivilTime`, less the literal of its schema. -/
structure ResolvedCivilTime where
  localDate : CivilDate
  localTime : PyTime
  boundary : TimezoneBoundaryResult
  utc : PyDateTime
  offsetSeconds : ℤ
  resolution : Resolution
  foldChoice : Option ℤ
  provenance : CivilTimeProvenance
  limitations : List String
  deriving DecidableEq

namespace ResolvedCivilTime

/-- `datetime.combine(self.local_date, self.local_time)`, of a time without a zone. -/
def localDateTime (v : ResolvedCivilTime) : NaiveDateTime := ⟨v.localDate, v.localTime.clock⟩

/-- The checks of the single fields. -/
def validFields (v : ResolvedCivilTime) : Bool :=
  v.boundary.valid && decide (-86400 < v.offsetSeconds ∧ v.offsetSeconds < 86400) &&
    (v.foldChoice.all fun fold => decide (0 ≤ fold ∧ fold ≤ 1)) && v.provenance.valid

/-- `coherent` up to the addition of the offset. -/
def validSource (v : ResolvedCivilTime) : Bool :=
  RawBirthInput.requireNaiveLocalTime v.localTime &&
    decide (1900 ≤ v.localDate.year ∧ v.localDate.year ≤ 2100) && v.boundary.status == .resolved &&
    v.utc.utcoffset == some 0 && !v.utc.fold

/-- `coherent` from there on, given the sum. -/
def coherentWith (v : ResolvedCivilTime) (shifted : NaiveDateTime) : Bool :=
  decide (shifted = v.localDateTime) &&
    ((v.resolution == .unique) == v.foldChoice.isNone) &&
    decide (v.limitations = limitationsFor v.localDate)

/-- `ResolvedCivilTime.model_validate` of the value's own dump, and the constructor. -/
def modelValidate (v : ResolvedCivilTime) : Except CivilRaise ResolvedCivilTime :=
  if v.validFields && v.validSource then
    match v.utc.naive.addSeconds v.offsetSeconds with
    | none => .error .overflowError
    | some shifted => if v.coherentWith shifted then .ok v else .error .valueError
  else .error .valueError

theorem modelValidate_eq_ok {v w : ResolvedCivilTime} :
    v.modelValidate = .ok w ↔ v = w ∧ v.validFields = true ∧ v.validSource = true ∧
      ∃ shifted, v.utc.naive.addSeconds v.offsetSeconds = some shifted ∧
        v.coherentWith shifted = true := by
  constructor
  · intro h
    unfold modelValidate at h
    split at h
    · next hvalid =>
        rw [Bool.and_eq_true] at hvalid
        split at h
        · cases h
        · next shifted hshifted =>
            split at h
            · next hcoherent =>
                cases h
                exact ⟨rfl, hvalid.1, hvalid.2, shifted, hshifted, hcoherent⟩
            · cases h
    · cases h
  · rintro ⟨rfl, hfields, hsource, shifted, hshifted, hcoherent⟩
    simp only [modelValidate, hfields, hsource, Bool.and_self, if_true, hshifted, hcoherent]

end ResolvedCivilTime

end AstroPassport
