import AstroPassport.Lib.ZoneRule
import AstroPassport.Science.Civil.Contracts

set_option autoImplicit false

/-! # The civil-time resolver

`PinnedCivilTimeResolver` of `civil/tzdb.py` over the zones its archive holds. A zone is what
`ZoneInfo` makes of a TZif file: a rule of whole-second offsets below a day, and its reading of
local times. The main result is that `resolve` gives back exactly the instants the rule maps to the
local time, and fails with the category that says how many there are.

The code attaches the zone with either fold, converts to UTC, and keeps the results that convert
back to the local time (`utcCandidates`); that this finds every instant is the theorem on displaced
clocks, applied to the rule, within the window of the calendar where the conversions do not overflow
(`InWindow`). With the candidates known, the choice by the fold and the record made of the chosen
instant are computed (`Resolvable.resolve_eq`, `record_ok`). The cases are none, one or two
instants, each with and without a fold, and an overlap in Sydney is one with two. -/

namespace AstroPassport

/-! ## Zones -/

/-- A zone: UTC offsets in microseconds by the microseconds since 0001-01-01, and the reading of
    local times. -/
structure Zone where
  rule : ZoneRule
  reading : ZoneReading rule
  bound_le : rule.bound ≤ microsPerDay
  wholeSeconds : ∀ u, (microsPerSecond : ℤ) ∣ rule.off u

/-- A file of the archive: the zone `ZoneInfo.from_file` reads in it, if it does, and its
    SHA-256. -/
structure ZoneFile where
  zone : Option Zone
  sha256 : String
  sha256_isDigest : isDigest sha256 = true

/-- The resolver with the zones it loaded, which cover the registered ids. -/
structure PinnedCivilTimeResolver where
  zones : String → Option ZoneFile
  covers : ∀ name ∈ registeredZoneIds, (zones name).isSome

/-- `local.replace(tzinfo=zone, fold=fold).astimezone(UTC)`, without its zone. -/
def Zone.toUtc (z : Zone) (fold : Bool) (civil : NaiveDateTime) : Option NaiveDateTime :=
  NaiveDateTime.ofMicros? (z.reading.instant fold civil.micros)

/-- `utc.astimezone(zone).replace(tzinfo=None, fold=0)`. -/
def Zone.fromUtc (z : Zone) (utc : NaiveDateTime) : Option NaiveDateTime :=
  NaiveDateTime.ofMicros? (z.rule.toLocal utc.micros)

/-- One turn of the loop of `_utc_candidates`, the candidates so far given with the instants seen;
    `none` is an `OverflowError`. -/
def candidateStep (civil : NaiveDateTime) (z : Zone) (candidates : List (Bool × NaiveDateTime))
    (fold : Bool) : Option (List (Bool × NaiveDateTime)) := do
  let utc ← z.toUtc fold civil
  let replayed ← z.fromUtc utc
  if replayed = civil ∧ utc ∉ candidates.map Prod.snd then some (candidates ++ [(fold, utc)])
  else some candidates

/-- `_utc_candidates`; the instants seen are those of the candidates. -/
def utcCandidates (civil : NaiveDateTime) (z : Zone) : Option (List (Bool × NaiveDateTime)) := do
  let candidates ← candidateStep civil z [] false
  candidateStep civil z candidates true

/-! ## Resolution -/

/-- `ARCHIVE_SHA256`. -/
def tzdbArchiveSha256 : String := "ff4d43e00b4de4ca68a892c0361a071af3a05583fac315a5f0b6c5490d4a58fa"

/-- `TZDATA_SHA256`. -/
def tzdataSha256 : String := "e4a178a4477f3d0ea77cc31828ff72aa38feff8d61aa13e7e99e142e9d902be4"

/-- `TZCODE_SHA256`. -/
def tzcodeSha256 : String := "b1cffc3ace4c4c7cd0efba2f7add86ec3d0b79da48bcf03582671fd3c8feace8"

/-- The provenance of a zone file. -/
def tzdbProvenance (file : ZoneFile) : CivilTimeProvenance where
  archiveSha256 := tzdbArchiveSha256
  tzdataSourceSha256 := tzdataSha256
  tzcodeSourceSha256 := tzcodeSha256
  tzifSha256 := file.sha256

/-- The record `resolve` constructs for an instant. -/
def resolvedRecord (raw : RawBirthInput) (source : TimezoneBoundaryResult) (file : ZoneFile)
    (utc : NaiveDateTime) (foldChoice : Option ℤ) : ResolvedCivilTime :=
  let civil : NaiveDateTime := ⟨raw.date, raw.time.clock⟩
  { localDate := raw.date
    localTime := raw.time
    boundary := source
    utc := .utc utc
    offsetSeconds := (civil.micros - utc.micros).tdiv microsPerSecond
    resolution := if foldChoice.isSome then .explicitFold else .unique
    foldChoice
    provenance := tzdbProvenance file
    limitations := limitationsFor raw.date }

/-- The choice among the candidates. -/
def chooseCandidate (candidates : List (Bool × NaiveDateTime)) (foldChoice : Option ℤ) :
    Except CivilRaise NaiveDateTime :=
  match candidates, foldChoice with
  | [], _ => .error (.civilTime .nonexistentLocalTime)
  | [_, _], none => .error (.civilTime .ambiguousLocalTime)
  | [(_, earlier), (_, later)], some fold => .ok (if fold = 0 then earlier else later)
  | _, some _ => .error (.civilTime .invalidFold)
  | (_, utc) :: _, none => .ok utc

/-- `_utc_candidates` within `resolve`, after the file of the zone is found. -/
def zoneCandidates (civil : NaiveDateTime) (file : ZoneFile) :
    Except CivilRaise (List (Bool × NaiveDateTime)) :=
  match file.zone with
  | none => .error (.civilTime .artifactInvalid)
  | some zone =>
    match utcCandidates civil zone with
    | none => .error .overflowError
    | some candidates => .ok candidates

/-- `raw` and `boundary` checked, any refusal an `INVALID_INPUT`. -/
def checkSources (raw : RawBirthInput) (boundary : TimezoneBoundaryResult) :
    Except CivilRaise (RawBirthInput × TimezoneBoundaryResult) :=
  match raw.modelValidate, validateRegisteredBoundaryFact boundary with
  | .ok checked, some source =>
    if 1900 ≤ checked.date.year ∧ checked.date.year ≤ 2100 then .ok (checked, source)
    else .error (.civilTime .invalidInput)
  | _, _ => .error (.civilTime .invalidInput)

/-- The file of the zone a boundary fact resolved to. -/
def PinnedCivilTimeResolver.zoneFile (r : PinnedCivilTimeResolver)
    (source : TimezoneBoundaryResult) : Except CivilRaise ZoneFile :=
  match source.status, source.tzid with
  | .resolved, some tzid =>
    match r.zones tzid with
    | some file => .ok file
    | none => .error (.civilTime .artifactInvalid)
  | _, _ => .error (.civilTime .unresolvedZone)

/-- `fold_choice not in (0, 1)`. -/
def validFoldChoice (foldChoice : Option ℤ) : Bool :=
  foldChoice.all fun fold => decide (fold = 0 ∨ fold = 1)

/-- `resolve`. -/
def PinnedCivilTimeResolver.resolve (r : PinnedCivilTimeResolver) (raw : RawBirthInput)
    (boundary : TimezoneBoundaryResult) (foldChoice : Option ℤ) :
    Except CivilRaise ResolvedCivilTime :=
  if validFoldChoice foldChoice then do
    let (checked, source) ← checkSources raw boundary
    let file ← r.zoneFile source
    let candidates ← zoneCandidates ⟨checked.date, checked.time.clock⟩ file
    let utc ← chooseCandidate candidates foldChoice
    (resolvedRecord checked source file utc foldChoice).modelValidate
  else .error (.civilTime .invalidFold)

/-! ## The candidates are the instants of the local time -/

/-- The years `resolve` takes. -/
def InWindow (civil : NaiveDateTime) : Prop := 1900 ≤ civil.date.year ∧ civil.date.year ≤ 2100

/-- Two days around a date-time of the window the calendar goes on. -/
theorem InWindow.exists_ofMicros {civil : NaiveDateTime} (h : InWindow civil) {n : ℤ}
    (hn : |n - civil.micros| < 2 * microsPerDay) : ∃ d, NaiveDateTime.ofMicros? n = some d := by
  have hlo := NaiveDateTime.le_year_iff.1 h.1
  have hhi : civil.micros < NaiveDateTime.yearStart 2101 := by
    by_contra hle
    have := NaiveDateTime.le_year_iff.2 (not_lt.mp hle)
    have := h.2
    omega
  have h1900 : NaiveDateTime.yearStart 1900 = 59926608000000000 := by decide
  have h2101 : NaiveDateTime.yearStart 2101 = 66269577600000000 := by decide
  rw [abs_lt] at hn
  rw [← Option.ne_none_iff_exists', Ne, NaiveDateTime.ofMicros?_eq_none]
  simp only [microsPerDay, dayCount] at *
  omega

/-- What `_utc_candidates` can give: no candidate, one, or two in order, which are all the instants
    the zone shows as the local time. -/
inductive CandidateCases (z : Zone) (l : ℤ) : List (Bool × NaiveDateTime) → Prop where
  | none (hnone : ∀ u, z.rule.toLocal u ≠ l) : CandidateCases z l []
  | one {fold : Bool} {utc : NaiveDateTime} (hone : ∀ u, z.rule.toLocal u = l ↔ u = utc.micros) :
      CandidateCases z l [(fold, utc)]
  | two {earlier later : NaiveDateTime} (hlt : earlier.micros < later.micros)
      (htwo : ∀ u, z.rule.toLocal u = l ↔ u = earlier.micros ∨ u = later.micros) :
      CandidateCases z l [(false, earlier), (true, later)]

section Candidates

variable {z : Zone} {civil : NaiveDateTime}

theorem Zone.exists_toUtc (hwindow : InWindow civil) (fold : Bool) :
    ∃ utc, z.toUtc fold civil = some utc ∧ utc.micros = z.reading.instant fold civil.micros := by
  have hread := z.reading.abs_read_lt fold civil.micros
  have hbound := z.bound_le
  obtain ⟨utc, hutc⟩ := hwindow.exists_ofMicros (n := z.reading.instant fold civil.micros) (by
    rw [ZoneReading.instant, abs_lt]
    rw [abs_lt] at hread
    omega)
  exact ⟨utc, hutc, NaiveDateTime.ofMicros?_eq_some.1 hutc⟩

theorem candidateStep_eq (hwindow : InWindow civil) {fold : Bool} {utc : NaiveDateTime}
    (hutc : z.toUtc fold civil = some utc) (candidates : List (Bool × NaiveDateTime)) :
    candidateStep civil z candidates fold =
      some (if z.rule.toLocal utc.micros = civil.micros ∧ utc ∉ candidates.map Prod.snd then
        candidates ++ [(fold, utc)] else candidates) := by
  have hmicros := NaiveDateTime.ofMicros?_eq_some.1 hutc
  have hread := z.reading.abs_read_lt fold civil.micros
  have hoff := z.rule.abs_off_lt utc.micros
  have hbound := z.bound_le
  obtain ⟨replayed, hreplayed⟩ := hwindow.exists_ofMicros (n := z.rule.toLocal utc.micros) (by
    rw [ZoneReading.instant] at hmicros
    rw [ZoneRule.toLocal, abs_lt]
    rw [abs_lt] at hread hoff
    omega)
  have hsame : replayed = civil ↔ z.rule.toLocal utc.micros = civil.micros := by
    rw [← NaiveDateTime.ofMicros?_eq_some.1 hreplayed]
    exact ⟨fun h => by rw [h], NaiveDateTime.micros_injective⟩
  simp only [candidateStep, hutc, Zone.fromUtc, hreplayed, Option.bind_eq_bind, Option.bind_some,
    hsame]
  split <;> rfl

theorem utcCandidates_cases (hwindow : InWindow civil) :
    ∃ candidates, utcCandidates civil z = some candidates ∧
      CandidateCases z civil.micros candidates := by
  obtain ⟨first, hfirst, hfirstMicros⟩ := Zone.exists_toUtc (z := z) hwindow false
  obtain ⟨second, hsecond, hsecondMicros⟩ := Zone.exists_toUtc (z := z) hwindow true
  have hall : ∀ u, z.rule.toLocal u = civil.micros ↔
      (u = first.micros ∧ z.rule.toLocal first.micros = civil.micros) ∨
        (u = second.micros ∧ z.rule.toLocal second.micros = civil.micros) := by
    intro u
    rw [z.reading.toLocal_eq_iff, Bool.exists_bool, hfirstMicros, hsecondMicros]
  simp only [utcCandidates, candidateStep_eq hwindow hfirst, candidateStep_eq hwindow hsecond,
    Option.bind_eq_bind, Option.bind_some, Option.some.injEq, exists_eq_left']
  by_cases hconfirmed : z.rule.toLocal first.micros = civil.micros
  · by_cases hconfirmed' : z.rule.toLocal second.micros = civil.micros
    · by_cases hsame : second = first
      · -- no fold: both readings are the one instant
        subst hsame
        simp only [hconfirmed, List.map_nil, List.not_mem_nil, not_false_eq_true, and_self, if_true,
          List.nil_append, List.map_cons, List.mem_singleton, not_true_eq_false, and_false, if_false]
        exact .one fun u => by rw [hall u]; simp [hconfirmed]
      · have hfold : z.rule.toLocal (z.reading.instant false civil.micros) = civil.micros :=
          (congrArg z.rule.toLocal hfirstMicros.symm).trans hconfirmed
        have hle := z.reading.earlier_le_later hfold
        rw [← hfirstMicros, ← hsecondMicros] at hle
        have hne : first.micros ≠ second.micros := fun h =>
          hsame (NaiveDateTime.micros_injective h.symm)
        simp only [hconfirmed, hconfirmed', List.map_nil, List.not_mem_nil, not_false_eq_true,
          and_self, if_true, List.nil_append, List.map_cons, List.mem_singleton, hsame,
          List.cons_append]
        exact .two (by omega) fun u => by rw [hall u]; simp [hconfirmed, hconfirmed']
    · simp only [hconfirmed, hconfirmed', List.map_nil, List.not_mem_nil, not_false_eq_true,
        and_self, if_true, List.nil_append, false_and, if_false]
      exact .one fun u => by rw [hall u]; simp [hconfirmed, hconfirmed']
  · by_cases hconfirmed' : z.rule.toLocal second.micros = civil.micros
    · simp only [hconfirmed, hconfirmed', List.map_nil, List.not_mem_nil, not_false_eq_true,
        and_self, if_true, List.nil_append, false_and, if_false]
      exact .one fun u => by rw [hall u]; simp [hconfirmed, hconfirmed']
    · simp only [hconfirmed, hconfirmed', false_and, if_false]
      exact .none fun u hu => by simpa [hconfirmed, hconfirmed'] using (hall u).mp hu

end Candidates

/-! ## The record of an instant -/

/-- The sources `resolve` goes on with: the raw input passes its model in the supported years, and
    the registered fact is resolved to a zone whose file can be read. -/
structure Resolvable (r : PinnedCivilTimeResolver) (raw : RawBirthInput)
    (boundary : TimezoneBoundaryResult) (file : ZoneFile) (zone : Zone) : Prop where
  raw_valid : ∃ checked, raw.modelValidate = .ok checked
  year : 1900 ≤ raw.date.year ∧ raw.date.year ≤ 2100
  registered : validateRegisteredBoundaryFact boundary = some boundary
  zoneFile : r.zoneFile boundary = .ok file
  zone : file.zone = some zone

theorem PinnedCivilTimeResolver.zoneFile_eq_ok {r : PinnedCivilTimeResolver}
    {source : TimezoneBoundaryResult} {file : ZoneFile} (h : r.zoneFile source = .ok file) :
    source.status = .resolved ∧ ∃ tzid, source.tzid = some tzid ∧ r.zones tzid = some file := by
  unfold PinnedCivilTimeResolver.zoneFile at h
  split at h
  · next tzid hstatus htzid =>
      split at h
      · next found hfound =>
          cases h
          exact ⟨hstatus, tzid, htzid, hfound⟩
      · cases h
  · cases h

theorem tzdataSha256_isDigest : isDigest tzdataSha256 = true := by decide

theorem tzdbProvenance_valid (file : ZoneFile) : (tzdbProvenance file).valid = true := by
  have harchive : isDigest tzdbArchiveSha256 = true := by decide
  have hcode : isDigest tzcodeSha256 = true := by decide
  simp only [CivilTimeProvenance.valid, tzdbProvenance, harchive, tzdataSha256_isDigest, hcode,
    file.sha256_isDigest, Bool.and_self]

/-- The offset of a record is the offset of its zone, to the second. -/
theorem resolvedRecord_offset {raw : RawBirthInput} {source : TimezoneBoundaryResult}
    {file : ZoneFile} {utc : NaiveDateTime} {foldChoice : Option ℤ} {zone : Zone}
    (hlocal : zone.rule.toLocal utc.micros = NaiveDateTime.micros ⟨raw.date, raw.time.clock⟩) :
    (resolvedRecord raw source file utc foldChoice).offsetSeconds * microsPerSecond =
      zone.rule.off utc.micros := by
  have hdiff : NaiveDateTime.micros ⟨raw.date, raw.time.clock⟩ - utc.micros =
      zone.rule.off utc.micros := by
    rw [← hlocal, ZoneRule.toLocal, add_sub_cancel_left]
  show (NaiveDateTime.micros ⟨raw.date, raw.time.clock⟩ - utc.micros).tdiv microsPerSecond *
    microsPerSecond = zone.rule.off utc.micros
  rw [hdiff]
  exact Int.tdiv_mul_cancel (zone.wholeSeconds _)

/-- The record of an instant the zone shows as the local time passes the model. -/
theorem resolvedRecord_modelValidate {raw : RawBirthInput} {source : TimezoneBoundaryResult}
    {file : ZoneFile} {utc : NaiveDateTime} {foldChoice : Option ℤ} {zone : Zone}
    (hnaive : RawBirthInput.requireNaiveLocalTime raw.time = true)
    (hyear : 1900 ≤ raw.date.year ∧ raw.date.year ≤ 2100) (hsource : source.valid = true)
    (hstatus : source.status = .resolved) (hfold : validFoldChoice foldChoice = true)
    (hlocal : zone.rule.toLocal utc.micros = NaiveDateTime.micros ⟨raw.date, raw.time.clock⟩) :
    (resolvedRecord raw source file utc foldChoice).modelValidate =
      .ok (resolvedRecord raw source file utc foldChoice) := by
  have hoffset := @resolvedRecord_offset _ source file _ foldChoice _ hlocal
  rw [ResolvedCivilTime.modelValidate_eq_ok]
  refine ⟨rfl, ?_, ?_, ⟨raw.date, raw.time.clock⟩, ?_, ?_⟩
  · have hoff := zone.rule.abs_off_lt utc.micros
    have hbound := zone.bound_le
    have hrange : -86400 < (resolvedRecord raw source file utc foldChoice).offsetSeconds ∧
        (resolvedRecord raw source file utc foldChoice).offsetSeconds < 86400 := by
      rw [← hoffset, abs_lt] at hoff
      simp only [microsPerDay, microsPerSecond] at hoff hbound
      omega
    have hchoice : (foldChoice.all fun fold => decide (0 ≤ fold ∧ fold ≤ 1)) = true := by
      cases foldChoice with
      | none => rfl
      | some fold =>
          simp only [validFoldChoice, Option.all_some, decide_eq_true_eq] at hfold ⊢
          omega
    simp only [ResolvedCivilTime.validFields, decide_eq_true hrange, Bool.and_true,
      Bool.and_eq_true]
    exact ⟨⟨hsource, hchoice⟩, tzdbProvenance_valid file⟩
  · simp [ResolvedCivilTime.validSource, resolvedRecord, PyDateTime.utc, hnaive, hstatus, hyear]
  · rw [NaiveDateTime.addSeconds_eq_some, hoffset, ← hlocal]
    rfl
  · have hresolution : ∀ choice : Option ℤ,
        (((if choice.isSome then Resolution.explicitFold else .unique) == .unique) ==
          choice.isNone) = true := by
      rintro (_ | _) <;> rfl
    simp only [ResolvedCivilTime.coherentWith, resolvedRecord, ResolvedCivilTime.localDateTime,
      hresolution, decide_true, Bool.and_self]

/-! ## Resolution is the preimage of the zone rule -/

section Resolve

variable {r : PinnedCivilTimeResolver} {raw : RawBirthInput} {boundary : TimezoneBoundaryResult}
  {file : ZoneFile} {zone : Zone} {foldChoice : Option ℤ}

/-- The local date-time of the raw input. -/
def RawBirthInput.civil (raw : RawBirthInput) : NaiveDateTime := ⟨raw.date, raw.time.clock⟩

theorem Resolvable.checkSources (h : Resolvable r raw boundary file zone) :
    ∃ checked : RawBirthInput, checkSources raw boundary = .ok (checked, boundary) ∧
      checked.date = raw.date ∧ checked.time = raw.time ∧
      RawBirthInput.requireNaiveLocalTime raw.time = true := by
  obtain ⟨checked, hchecked⟩ := h.raw_valid
  obtain ⟨hdate, htime, hnaive⟩ := RawBirthInput.modelValidate_eq_ok hchecked
  refine ⟨checked, ?_, hdate, htime, hnaive⟩
  simp only [AstroPassport.checkSources, hchecked, h.registered, hdate, h.year, and_self, if_true]

/-- With its sources in order, `resolve` is the choice among the candidates and the record of it. -/
theorem Resolvable.resolve_eq (h : Resolvable r raw boundary file zone)
    (hfold : validFoldChoice foldChoice = true) {candidates : List (Bool × NaiveDateTime)}
    (hcandidates : utcCandidates raw.civil zone = some candidates) :
    r.resolve raw boundary foldChoice =
      chooseCandidate candidates foldChoice >>= fun utc =>
        (resolvedRecord raw boundary file utc foldChoice).modelValidate := by
  obtain ⟨checked, hsources, hdate, htime, -⟩ := h.checkSources
  have hzone : zoneCandidates raw.civil file = .ok candidates := by
    simp only [zoneCandidates, h.zone, hcandidates]
  have hrecord : ∀ utc, resolvedRecord checked boundary file utc foldChoice =
      resolvedRecord raw boundary file utc foldChoice := by
    intro utc
    simp only [resolvedRecord, hdate, htime]
  rw [RawBirthInput.civil] at hzone
  simp only [PinnedCivilTimeResolver.resolve, hfold, if_true, hsources, h.zoneFile, hdate, htime,
    hzone, hrecord, bind, Except.bind]

/-- A chosen instant that the zone shows as the local time is what `resolve` returns. -/
theorem Resolvable.record_ok (h : Resolvable r raw boundary file zone)
    (hfold : validFoldChoice foldChoice = true) {utc : NaiveDateTime}
    (hlocal : zone.rule.toLocal utc.micros = raw.civil.micros) :
    (resolvedRecord raw boundary file utc foldChoice).modelValidate =
      .ok (resolvedRecord raw boundary file utc foldChoice) := by
  obtain ⟨-, -, -, -, hnaive⟩ := h.checkSources
  obtain ⟨-, hvalid, -, -⟩ := validateRegisteredBoundaryFact_eq_some.1 h.registered
  obtain ⟨hstatus, -⟩ := PinnedCivilTimeResolver.zoneFile_eq_ok h.zoneFile
  exact resolvedRecord_modelValidate hnaive h.year hvalid hstatus hfold hlocal

/-- How `resolve` answers for the local times no instant, one instant or two instants show. -/
inductive ResolveCases (r : PinnedCivilTimeResolver) (raw : RawBirthInput)
    (boundary : TimezoneBoundaryResult) (file : ZoneFile) (zone : Zone) (foldChoice : Option ℤ) :
    Prop where
  | none (hnone : ∀ u, zone.rule.toLocal u ≠ raw.civil.micros)
      (hresolve : r.resolve raw boundary foldChoice = .error (.civilTime .nonexistentLocalTime))
  | one (utc : NaiveDateTime)
      (hone : ∀ u, zone.rule.toLocal u = raw.civil.micros ↔ u = utc.micros)
      (hresolve : r.resolve raw boundary foldChoice =
        if foldChoice = none then .ok (resolvedRecord raw boundary file utc foldChoice)
        else .error (.civilTime .invalidFold))
  | two (earlier later : NaiveDateTime) (hlt : earlier.micros < later.micros)
      (htwo : ∀ u, zone.rule.toLocal u = raw.civil.micros ↔
        u = earlier.micros ∨ u = later.micros)
      (hresolve : r.resolve raw boundary foldChoice =
        if foldChoice = none then .error (.civilTime .ambiguousLocalTime)
        else .ok (resolvedRecord raw boundary file (if foldChoice = some 0 then earlier else later)
          foldChoice))

theorem Resolvable.resolve_cases (h : Resolvable r raw boundary file zone)
    (hfold : validFoldChoice foldChoice = true) :
    ResolveCases r raw boundary file zone foldChoice := by
  have hwindow : InWindow raw.civil := h.year
  obtain ⟨candidates, hcandidates, hcases⟩ := utcCandidates_cases (z := zone) hwindow
  have hresolve := h.resolve_eq hfold hcandidates
  cases hcases with
  | none hnone => exact .none hnone hresolve
  | @one fold utc hone =>
      refine .one utc hone ?_
      rw [hresolve]
      rcases foldChoice with _ | choice
      · exact h.record_ok hfold ((hone _).mpr rfl)
      · rfl
  | @two earlier later hlt htwo =>
      refine .two earlier later hlt htwo ?_
      rw [hresolve]
      rcases foldChoice with _ | choice
      · rfl
      -- the choice names one of the two candidates
      · have hchosen : zone.rule.toLocal (if choice = 0 then earlier else later).micros =
            raw.civil.micros := by
          rw [htwo]
          split
          · exact .inl rfl
          · exact .inr rfl
        simp only [chooseCandidate, bind, Except.bind, reduceCtorEq, if_false, Option.some.injEq]
        exact h.record_ok hfold hchosen

/-- A returned record is the record of an instant the zone shows as the local time. -/
theorem Resolvable.record_of_resolve (h : Resolvable r raw boundary file zone)
    (hfold : validFoldChoice foldChoice = true) {v : ResolvedCivilTime}
    (hv : r.resolve raw boundary foldChoice = .ok v) :
    ∃ utc : NaiveDateTime, zone.rule.toLocal utc.micros = raw.civil.micros ∧
      v = resolvedRecord raw boundary file utc foldChoice := by
  cases h.resolve_cases hfold with
  | none hnone hresolve =>
      rw [hresolve] at hv
      cases hv
  | one utc hone hresolve =>
      rw [hresolve] at hv
      split at hv
      · cases hv
        exact ⟨utc, (hone _).mpr rfl, rfl⟩
      · cases hv
  | two earlier later hlt htwo hresolve =>
      rw [hresolve] at hv
      split at hv
      · cases hv
      · cases hv
        -- either candidate reads as the civil time
        refine ⟨_, ?_, rfl⟩
        rw [htwo]
        split
        · exact .inl rfl
        · exact .inr rfl

/-- `resolve` is the preimage of the zone rule: a local time that no instant shows does not exist,
    one that a single instant shows is that instant's and takes no fold, and one that two instants
    show needs a fold, 0 for the earlier and 1 for the later; there are never more. What is returned
    adds up to the local time, and nothing else is ever raised. -/
theorem resolve_preimage (h : Resolvable r raw boundary file zone)
    (hfold : foldChoice = none ∨ foldChoice = some 0 ∨ foldChoice = some 1) :
    (r.resolve raw boundary foldChoice = .error (.civilTime .nonexistentLocalTime) ↔
      ∀ u, zone.rule.toLocal u ≠ raw.civil.micros) ∧
    (∀ u, (∀ v, zone.rule.toLocal v = raw.civil.micros ↔ v = u) →
      (foldChoice = none → ∃ utc : NaiveDateTime, utc.micros = u ∧
        r.resolve raw boundary foldChoice =
          .ok (resolvedRecord raw boundary file utc foldChoice)) ∧
      (foldChoice ≠ none →
        r.resolve raw boundary foldChoice = .error (.civilTime .invalidFold))) ∧
    (∀ u v, u < v → (∀ w, zone.rule.toLocal w = raw.civil.micros ↔ w = u ∨ w = v) →
      (foldChoice = none →
        r.resolve raw boundary foldChoice = .error (.civilTime .ambiguousLocalTime)) ∧
      (foldChoice ≠ none → ∃ utc : NaiveDateTime,
        utc.micros = (if foldChoice = some 0 then u else v) ∧
        r.resolve raw boundary foldChoice =
          .ok (resolvedRecord raw boundary file utc foldChoice))) ∧
    ((∀ u, zone.rule.toLocal u ≠ raw.civil.micros) ∨
      (∃ u, ∀ v, zone.rule.toLocal v = raw.civil.micros ↔ v = u) ∨
      ∃ u v, u < v ∧ ∀ w, zone.rule.toLocal w = raw.civil.micros ↔ w = u ∨ w = v) ∧
    ∀ v, r.resolve raw boundary foldChoice = .ok v →
      v.localDateTime = raw.civil ∧
        v.utc.naive.micros + v.offsetSeconds * microsPerSecond = v.localDateTime.micros := by
  -- the choices of the request model pass the check of the fold
  have hchoice : validFoldChoice foldChoice = true := by
    rcases hfold with rfl | rfl | rfl <;> rfl
  refine ⟨?_, ?_, ?_, ?_, fun v hv => ?_⟩
  · cases h.resolve_cases hchoice with
    | none hnone hresolve => exact ⟨fun _ => hnone, fun _ => hresolve⟩
    | one utc hone hresolve =>
        refine ⟨fun herror => ?_, fun hnone => absurd ((hone _).mpr rfl) (hnone _)⟩
        rw [hresolve] at herror
        split at herror <;> cases herror
    | two earlier later hlt htwo hresolve =>
        refine ⟨fun herror => ?_, fun hnone => absurd ((htwo _).mpr (.inl rfl)) (hnone _)⟩
        rw [hresolve] at herror
        split at herror <;> cases herror
  · intro u hu
    cases h.resolve_cases hchoice with
    | none hnone hresolve => exact absurd ((hu u).mpr rfl) (hnone u)
    | one utc hone hresolve =>
        refine ⟨fun hf => ⟨utc, (hu _).mp ((hone _).mpr rfl), ?_⟩, fun hf => ?_⟩
        · rw [hresolve, if_pos hf]
        · rw [hresolve, if_neg hf]
    | two earlier later hlt htwo hresolve =>
        -- two candidates would both be `u`
        have hearlier := (hu _).mp ((htwo _).mpr (.inl rfl))
        have hlater := (hu _).mp ((htwo _).mpr (.inr rfl))
        omega
  · intro u v huv hw
    cases h.resolve_cases hchoice with
    | none hnone hresolve => exact absurd ((hw u).mpr (.inl rfl)) (hnone u)
    | one utc hone hresolve =>
        have hu := (hone _).mp ((hw u).mpr (.inl rfl))
        have hv := (hone _).mp ((hw v).mpr (.inr rfl))
        omega
    | two earlier later hlt htwo hresolve =>
        have hu := (htwo _).mp ((hw u).mpr (.inl rfl))
        have hv := (htwo _).mp ((hw v).mpr (.inr rfl))
        -- both pairs are in order, so they agree one by one
        have hsame : earlier.micros = u ∧ later.micros = v := by omega
        refine ⟨fun hf => by rw [hresolve, if_pos hf], fun hf => ⟨_, ?_, by rw [hresolve, if_neg hf]⟩⟩
        split
        · exact hsame.1
        · exact hsame.2
  · cases h.resolve_cases hchoice with
    | none hnone hresolve => exact .inl hnone
    | one utc hone hresolve => exact .inr (.inl ⟨utc.micros, hone⟩)
    | two earlier later hlt htwo hresolve => exact .inr (.inr ⟨_, _, hlt, htwo⟩)
  · obtain ⟨utc, hlocal, rfl⟩ := h.record_of_resolve hchoice hv
    refine ⟨rfl, ?_⟩
    rw [resolvedRecord_offset hlocal]
    exact hlocal

end Resolve

/-! ## An overlap -/

/-- The half past two of 2020-04-05 that Sydney's clocks showed twice. -/
def halfPastTwo : NaiveDateTime :=
  ⟨⟨2020, 4, 5, by decide, by decide, by decide, by decide, by decide, by decide⟩,
    ⟨2, 30, 0, 0, by decide, by decide, by decide, by decide⟩⟩

/-- From eleven hours ahead to ten, at 2020-04-04T16:00Z. -/
def sydneyZone : Zone where
  rule := .once 63721612800000000 39600000000 36000000000 86400000000 (by decide) (by decide)
  reading := .once _ _ _ _ _ _
  bound_le := by decide
  wholeSeconds u := by
    simp only [ZoneRule.once, microsPerSecond]
    split <;> decide

/-- A file with the rule of Sydney. -/
def sydneyFile : ZoneFile where
  zone := some sydneyZone
  sha256 := tzdataSha256
  sha256_isDigest := tzdataSha256_isDigest

/-- A boundary that is resolved to Sydney. -/
def sydneyFact : TimezoneBoundaryResult where
  coordinates := ⟨.ofRat (-34), .ofRat 151⟩
  provenance := pinnedProvenance
  status := .resolved
  tzid := some "Australia/Sydney"
  reason := none
  candidateIds := []

theorem sydneyFact_valid : sydneyFact.valid = true := by
  have hcoordinates : sydneyFact.coordinates.valid = true := by decide +kernel
  have hcoherent : sydneyFact.coherentOutcome = true := by decide +kernel
  have hprovenance : sydneyFact.provenance.valid = true := pinnedProvenance_valid
  simp only [TimezoneBoundaryResult.valid, hcoordinates, hprovenance, hcoherent]
  rfl

theorem sydney_resolvable : Resolvable ⟨fun _ => some sydneyFile, fun _ _ => rfl⟩
    ⟨halfPastTwo.date, .naive halfPastTwo.time, "selected"⟩ sydneyFact sydneyFile sydneyZone where
  raw_valid := ⟨⟨halfPastTwo.date, .naive halfPastTwo.time, "selected"⟩, by decide⟩
  year := by decide
  registered := by
    rw [validateRegisteredBoundaryFact_eq_some]
    exact ⟨rfl, sydneyFact_valid, rfl, by decide⟩
  zoneFile := rfl
  zone := rfl

theorem sydney_toLocal (w : ℤ) : sydneyZone.rule.toLocal w = halfPastTwo.micros ↔
    w = halfPastTwo.micros - 39600000000 ∨ w = halfPastTwo.micros - 36000000000 := by
  have hmicros : halfPastTwo.micros = 63721650600000000 := by decide
  simp only [sydneyZone, ZoneRule.toLocal, ZoneRule.once, hmicros]
  split <;> omega

/-- A resolver with that zone resolves the half past two, to the earlier of its two instants. -/
theorem resolve_sydneyZone {r : PinnedCivilTimeResolver} {file : ZoneFile}
    (h : Resolvable r ⟨halfPastTwo.date, .naive halfPastTwo.time, "selected"⟩ sydneyFact file
      sydneyZone) : ∃ civil utc,
    r.resolve ⟨halfPastTwo.date, .naive halfPastTwo.time, "selected"⟩ sydneyFact (some 0) =
      .ok civil ∧ civil.utc = .utc utc ∧ utc.micros = halfPastTwo.micros - 39600000000 := by
  have hcases := @Resolvable.resolve_cases _ _ _ _ _ (some 0) h rfl
  cases hcases with
  | none hnone => exact absurd ((sydney_toLocal _).mpr (.inl rfl)) (hnone _)
  | one utc hone =>
      have hearlier := (hone _).mp ((sydney_toLocal _).mpr (.inl rfl))
      have hlater := (hone _).mp ((sydney_toLocal _).mpr (.inr rfl))
      omega
  | two earlier later hlt htwo hresolve =>
      refine ⟨_, earlier, hresolve, rfl, ?_⟩
      have hearlier := (sydney_toLocal _).mp ((htwo earlier.micros).mpr (.inl rfl))
      have hlater := (sydney_toLocal _).mp ((htwo later.micros).mpr (.inr rfl))
      omega

/-- Fold 0 is the half past two at eleven hours ahead. -/
theorem resolve_preimage_overlap :
    ∃ utc : NaiveDateTime, utc.micros = halfPastTwo.micros - 39600000000 ∧
      PinnedCivilTimeResolver.resolve ⟨fun _ => some sydneyFile, fun _ _ => rfl⟩
          ⟨halfPastTwo.date, .naive halfPastTwo.time, "selected"⟩ sydneyFact (some 0) =
        .ok (resolvedRecord ⟨halfPastTwo.date, .naive halfPastTwo.time, "selected"⟩ sydneyFact
          sydneyFile utc (some 0)) :=
  ((resolve_preimage sydney_resolvable (.inr (.inl rfl))).2.2.1 _ _ (by omega) sydney_toLocal).2
    (by decide)

end AstroPassport
