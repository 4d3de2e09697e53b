import AstroPassport.Science.Assembly
import AstroPassport.Science.Boundary.Tbb
import AstroPassport.Science.Ephemeris.Adapter

set_option autoImplicit false

/-! # How a tropical calculation ends

`PassportScience._calculate` over its own resolvers and adapter. Each stage raises an exception of
its own, which has a code, and what the stages return makes a response; so a calculation ends in a
valid response or in a `ScienceFailure` that has an HTTP status, whatever the worker prints.

An exception has a status when it is one of a stage or the service's own (`HasStatus`). The
boundaries raise nothing else, the civil stage neither once its input is valid, and the adapter
turns whatever the worker does into an ephemeris failure, so that the document is only made of
accepted results and its validation cannot fail (`calculate_valid`). `tropical_outcome` adds what
the adapter does on its own and that its slot is returned. In the last part a worker prints a sky
that stands still, and a request in Sydney is answered with it. -/

namespace AstroPassport

/-- An exception of the boundary stage, as the service sees it. -/
def BoundaryRaise.toPassport : BoundaryRaise → PassportRaise
  | .timezoneBoundary category => .stage (.boundary category)
  | .valueError => .valueError

/-- The service that `PassportScience.__init__` puts together, at a state of the native capacity. -/
def PassportScience.ofParts (boundaries : TBBTimezoneBoundaryResolver)
    (civil : PinnedCivilTimeResolver) (ephemeris : SwissEphemeris) (capacity : BoundedSemaphore 2) :
    PassportScience where
  boundaries coordinates := (boundaries.resolve coordinates).mapError BoundaryRaise.toPassport
  civil := civil
  ephemeris := ephemeris.calculate capacity

/-! ## Exceptions with a code -/

/-- An exception that leaves `_calculate` as a `ScienceFailure` with a status. -/
def PassportRaise.HasStatus (e : PassportRaise) : Prop :=
  ∃ code, e.asScienceFailure = .scienceFailure code ∧ (scienceStatus code).isSome = true

theorem hasStatus_stage (e : StageError) : (PassportRaise.stage e).HasStatus := by
  obtain ⟨code, hcode, hstatus⟩ := exists_errorCode e
  refine ⟨code, ?_, hstatus⟩
  simp only [PassportRaise.asScienceFailure, hcode]

theorem hasStatus_requireResolved (boundary : TimezoneBoundaryResult) :
    RaisesOnly PassportRaise.HasStatus (requireResolved boundary) := by
  unfold requireResolved
  split
  · exact raisesOnly_ok _
  · exact raisesOnly_error.2 ⟨_, rfl, rfl⟩
  · exact raisesOnly_error.2 ⟨_, rfl, rfl⟩
  · exact raisesOnly_error.2 ⟨_, rfl, rfl⟩

theorem hasStatus_resolve (r : PinnedCivilTimeResolver) (raw : RawBirthInput)
    (boundary : TimezoneBoundaryResult) (foldChoice : Option ℤ) :
    RaisesOnly PassportRaise.HasStatus
      ((r.resolve raw boundary foldChoice).mapError CivilRaise.toPassport) := by
  refine (resolve_raisesOnly r raw boundary foldChoice).mapError ?_
  rintro _ ⟨category, rfl⟩
  exact hasStatus_stage _

/-! ## The calculation -/

section Calculation

variable {boundaries : TBBTimezoneBoundaryResolver} {civil : PinnedCivilTimeResolver}
  {ephemeris : SwissEphemeris} {capacity : BoundedSemaphore 2}

theorem hasStatus_boundaries (coordinates : GeographicCoordinates) :
    RaisesOnly PassportRaise.HasStatus
      ((PassportScience.ofParts boundaries civil ephemeris capacity).boundaries coordinates) := by
  have hresolve : RaisesOnly (fun e => ∃ category, e = .timezoneBoundary category)
      (boundaries.resolve coordinates) := fun _ => resolve_eq_error
  refine hresolve.mapError ?_
  rintro _ ⟨category, rfl⟩
  exact hasStatus_stage _

/-- The natal service adds nothing to the outcome of the adapter. -/
theorem natal_cases {utc : PyDateTime} (h : EphemerisRequest.make utc = .ok ⟨utc⟩) :
    (∃ astronomy,
      (PassportScience.ofParts boundaries civil ephemeris capacity).natal ⟨utc⟩ = .ok astronomy ∧
        astronomy.modelValidate = .ok astronomy ∧ astronomy.utc = utc) ∨
      ∃ category, (PassportScience.ofParts boundaries civil ephemeris capacity).natal ⟨utc⟩ =
        .error (.stage (.ephemeris category)) := by
  have hnatal : (PassportScience.ofParts boundaries civil ephemeris capacity).natal ⟨utc⟩ =
      ephemeris.calculate capacity ⟨utc⟩ >>= natalFacts ⟨utc⟩ := by
    simp only [PassportScience.natal, h]
    rfl
  rw [hnatal]
  rcases calculate_cases ephemeris capacity ⟨utc⟩ with
    ⟨astronomy, hcalculate, hvalid, hutc⟩ | ⟨category, hcalculate⟩
  · left
    refine ⟨astronomy, bind_eq_ok.2 ⟨astronomy, hcalculate, ?_⟩, hvalid, hutc⟩
    exact natalFacts_of_accepted hvalid (congrArg PyDateTime.naive hutc)
  · right
    exact ⟨category, bind_eq_error.2 (.inl hcalculate)⟩

/-- Every stage of a valid request raises an exception that has a status, or nothing. -/
theorem hasStatus_attempt {request : AstroPassportRequestV1}
    (hrequest : AstroPassportRequestV1.model.valid request = true) :
    RaisesOnly PassportRaise.HasStatus
      ((PassportScience.ofParts boundaries civil ephemeris capacity).attempt request) := by
  obtain ⟨hplace, hcivilInput⟩ := AstroPassportRequestV1.valid_iff.1 hrequest
  obtain ⟨raw, hraw, hrawValid⟩ := exists_rawInput hcivilInput
  have hround := AstroPassportRequestV1.model.decode_encode hrequest
  refine .bind_of_ok (congrArg Checked.toPassport hround) ?_
  refine .bind_of_ok (congrArg Checked.toPassport (SelectedPlace.coordinates_of_valid hplace)) ?_
  refine .bind (hasStatus_boundaries _) fun boundary _ => ?_
  refine .bind (hasStatus_requireResolved boundary) fun _ _ => ?_
  refine .bind_of_ok (congrArg (fun x => (Checked.ofOption x).toPassport) hraw) ?_
  refine .bind_of_ok (congrArg (Except.mapError CivilRaise.toPassport) hrawValid) ?_
  refine .bind (hasStatus_resolve _ _ _ _) fun civilTime hcivilTime => ?_
  have hresolve : civil.resolve raw boundary request.civil.fold = .ok civilTime := by
    rcases hres : civil.resolve raw boundary request.civil.fold with e | found
    · simp [PassportScience.ofParts, hres, Except.mapError] at hcivilTime
    · simpa [PassportScience.ofParts, hres, Except.mapError] using hcivilTime
  have hreplay : civil.verifyResult civilTime = .ok civilTime :=
    verifyResult_eq_ok.2 ⟨rfl, raw, boundary, request.civil.fold, hresolve⟩
  obtain ⟨utc, hresolved⟩ := resolvedFor_of_resolve hresolve
  refine .bind_of_ok (congrArg (Except.mapError CivilRaise.toPassport) hreplay) ?_
  refine .bind_of_ok (congrArg Checked.toPassport hresolved.ephemerisRequest) ?_
  rcases natal_cases hresolved.ephemerisRequest with
    ⟨astronomy, hnatal, hvalid, hutc⟩ | ⟨category, hnatal⟩
  · -- the document of what the stages returned is read as a response
    obtain ⟨-, haccepted⟩ := EphemerisResult.accepted hvalid
    obtain ⟨response, hresponse⟩ := passportDocument_decode hplace hresolved haccepted
      (congrArg PyDateTime.naive hutc)
    refine .bind_of_ok hnatal ?_
    rw [hresponse]
    exact raisesOnly_ok response
  · refine .bind ?_ fun astronomy hastronomy => ?_
    · rw [hnatal]
      exact raisesOnly_error.2 (hasStatus_stage _)
    · rw [hnatal] at hastronomy
      cases hastronomy

end Calculation

theorem Checked.toPassport_eq_ok {α : Type} {x : Checked α} {a : α} :
    x.toPassport = .ok a ↔ x = .ok a := by
  cases x <;> simp [toPassport]

/-- What the calculation returns has been validated. -/
theorem calculate_valid {s : PassportScience} {request : AstroPassportRequestV1}
    {response : AstroPassportResponseV1} (h : s.calculate request = .ok response) :
    AstroPassportResponseV1.model.valid response = true := by
  have hattempt : s.attempt request = .ok response := by
    unfold PassportScience.calculate at h
    rcases hattempt : s.attempt request with e | found
    · simp [hattempt, Except.mapError] at h
    · simpa [hattempt, Except.mapError] using h
  simp only [PassportScience.attempt, bind_eq_ok, Checked.toPassport_eq_ok] at hattempt
  obtain ⟨_, -, _, -, _, -, _, -, _, -, _, -, _, -, _, -, _, -, _, -, hdecode⟩ := hattempt
  exact AstroPassportResponseV1.model.valid_of_decode hdecode

/-- A valid request gets a valid response, or an exception that has a status. -/
theorem passport_cases (boundaries : TBBTimezoneBoundaryResolver)
    (civil : PinnedCivilTimeResolver) (ephemeris : SwissEphemeris) (capacity : BoundedSemaphore 2)
    {request : AstroPassportRequestV1}
    (hrequest : AstroPassportRequestV1.model.valid request = true) :
    (∃ response,
      (PassportScience.ofParts boundaries civil ephemeris capacity).calculate request =
          .ok response ∧
        AstroPassportResponseV1.model.valid response = true) ∨
    ∃ code,
      (PassportScience.ofParts boundaries civil ephemeris capacity).calculate request =
          .error (.scienceFailure code) ∧
        (scienceStatus code).isSome = true := by
  have hattempt := @hasStatus_attempt boundaries civil ephemeris capacity request hrequest
  rcases hattempt.cases with ⟨response, hresponse⟩ | ⟨e, he, code, hcode, hstatus⟩
  · left
    have hcalculate : (PassportScience.ofParts boundaries civil ephemeris capacity).calculate
        request = .ok response := by
      rw [PassportScience.calculate, hresponse]
      rfl
    exact ⟨response, hcalculate, calculate_valid hcalculate⟩
  · right
    refine ⟨code, ?_, hstatus⟩
    rw [PassportScience.calculate, he]
    exact congrArg Except.error hcode

/-- **Every tropical worker output ends in a valid passport or a mapped failure.** A call of the
    adapter gives its slot back and returns a valid result for the instant of its request, or raises
    an `EphemerisError`; a valid request gets a valid response, or a `ScienceFailure` whose code has
    a status. -/
theorem tropical_outcome (boundaries : TBBTimezoneBoundaryResolver)
    (civil : PinnedCivilTimeResolver) (ephemeris : SwissEphemeris) (capacity : BoundedSemaphore 2) :
    (∀ request,
      (ephemeris.run false capacity request).2 = capacity ∧
      ((∃ r, ephemeris.calculate capacity request = .ok r ∧ r.modelValidate = .ok r ∧
          r.utc = request.utc) ∨
        ∃ category, ephemeris.calculate capacity request =
          .error (.stage (.ephemeris category)))) ∧
    ∀ request, AstroPassportRequestV1.model.valid request = true →
      (∃ response,
        (PassportScience.ofParts boundaries civil ephemeris capacity).calculate request =
            .ok response ∧
          AstroPassportResponseV1.model.valid response = true) ∨
      ∃ code,
        (PassportScience.ofParts boundaries civil ephemeris capacity).calculate request =
            .error (.scienceFailure code) ∧
          (scienceStatus code).isSome = true := by
  constructor
  · intro request
    exact ⟨run_capacity ephemeris false capacity request,
      calculate_cases ephemeris capacity request⟩
  · intro request hrequest
    exact passport_cases boundaries civil ephemeris capacity hrequest

/-- Every point lies in the one zone. -/
def everywhereSydney : TBBTimezoneBoundaryResolver where
  features := [("Australia/Sydney", ⟨fun _ => .ok true, fun _ => .ok true⟩)]
  query _ := .ok [0]
  distinct := List.nodup_singleton _
  named := by
    rintro f hf
    rw [List.mem_singleton.mp hf]
    decide
  length_le := by decide

/-- What a worker prints that finds the Sun and the Moon where longitudes begin. -/
def stillOutput (limitations : List String) : PlainJson :=
  .obj [("positions".toList, .arr [.str "0x0.0p+0".toList, .str "0x0.0p+0".toList]),
    ("jd_tt_hex".toList, .str "0x1.2b42c80000000p+21".toList),
    ("jd_ut1_hex".toList, .str "0x1.2b42c80000000p+21".toList),
    ("limitations".toList, .arr (limitations.map fun l => .str l.toList))]

/-- The members of the printed object. -/
def stillMembers (limitations : List String) : List (PyKey × PyValue) :=
  [(pyKey "positions", .list [pyStr "0x0.0p+0".toList, pyStr "0x0.0p+0".toList]),
    (pyKey "jd_tt_hex", pyStr "0x1.2b42c80000000p+21".toList),
    (pyKey "jd_ut1_hex", pyStr "0x1.2b42c80000000p+21".toList),
    (pyKey "limitations", .list (limitations.map fun l => pyStr l.toList))]

/-- A worker that knows the tropical positions and prints `null` when asked for the extension. -/
def nullWorker : SwissEphemeris where
  worker request lahiri := .exited 0 (utf8 (if lahiri then PlainJson.null
    else stillOutput (EphemerisResult.expectedLimitations request.utc.naive.date.year)).print)
  loads := jsonLoads
  revisionFile := some "18a3776bc1ab1dc52212b4de48a0df36709d72d2"

theorem stillOutput_size (year : ℕ) :
    (utf8 (stillOutput (EphemerisResult.expectedLimitations year)).print).size ≤ 8192 := by
  unfold EphemerisResult.expectedLimitations
  split_ifs <;> decide +kernel

theorem stillOutput_loads (limitations : List String) :
    jsonLoads (utf8 (stillOutput limitations).print) = some (.dict (stillMembers limitations)) := by
  have hdistinct : (stillOutput limitations).DistinctKeys := by
    have hitems : itemsDistinctKeys (limitations.map fun l => .str l.toList) :=
      itemsDistinctKeys_iff.2 (List.forall_mem_map.mpr fun _ _ => trivial)
    refine ⟨by simp, ⟨⟨trivial, trivial, trivial⟩, trivial, trivial, hitems, trivial⟩⟩
  rw [jsonLoads_print hdistinct]
  simp only [stillOutput, PlainJson.toPy, membersToPy, itemsToPy_eq_map, List.map_map]
  rfl

theorem stillOutput_result {request : EphemerisRequest}
    (h : EphemerisRequest.make request.utc = .ok request) : ∃ r, nullWorker.result request
      (.dict (stillMembers (EphemerisResult.expectedLimitations request.utc.naive.date.year))) =
        .ok r := by
  obtain ⟨hall, hlength⟩ :=
    EphemerisResult.expectedLimitations_valid request.utc.naive.date.year
  generalize hlimitations :
    EphemerisResult.expectedLimitations request.utc.naive.date.year = limitations at hall hlength ⊢
  have hkeys : hasKeys (stillMembers limitations)
      ["positions", "jd_tt_hex", "jd_ut1_hex", "limitations"] = true := by
    simp [hasKeys, stillMembers]
  have hpositions : readPositions [pyStr "0x0.0p+0".toList, pyStr "0x0.0p+0".toList] =
      .ok (⟨.sun, ⟨false, 0, -9⟩, "0x0.0p+0"⟩, ⟨.moon, ⟨false, 0, -9⟩, "0x0.0p+0"⟩) := by
    decide +kernel
  have hrevision : requireRevision nullWorker.revisionFile =
      some "18a3776bc1ab1dc52212b4de48a0df36709d72d2" := by decide
  have hjulian : julianDate "0x1.2b42c80000000p+21" = .ok () := by decide +kernel
  have htext : (pyStr "0x1.2b42c80000000p+21".toList).text? = some "0x1.2b42c80000000p+21" := by
    decide
  let r : EphemerisResult :=
    { utc := request.utc
      positions := (⟨.sun, ⟨false, 0, -9⟩, "0x0.0p+0"⟩, ⟨.moon, ⟨false, 0, -9⟩, "0x0.0p+0"⟩)
      jdTtHex := "0x1.2b42c80000000p+21"
      jdUt1Hex := "0x1.2b42c80000000p+21"
      limitations
      provenance := adapterProvenance "18a3776bc1ab1dc52212b4de48a0df36709d72d2" }
  have hfields : r.validFields = true := by
    have hjd : "0x1.2b42c80000000p+21".length ≤ 32 := by decide
    have hprovenance : (adapterProvenance "18a3776bc1ab1dc52212b4de48a0df36709d72d2").valid = true := by
      decide
    simp only [EphemerisResult.validFields, Bool.and_eq_true, decide_eq_true_eq]
    exact ⟨⟨⟨⟨hjd, hjd⟩, hall⟩, hlength⟩, hprovenance⟩
  have hcoherent : r.coherent = .ok () := by
    simp only [EphemerisResult.coherent, r, h, hlimitations, Checked.ok_bind, hjulian,
      Checked.require, decide_true, and_self, if_true]
  refine ⟨r, ?_⟩
  simp only [SwissEphemeris.result, hkeys, if_true]
  refine bind_eq_ok.2 ⟨_, rfl, ?_⟩
  refine bind_eq_ok.2 ⟨_, rfl, ?_⟩
  refine bind_eq_ok.2 ⟨_, hpositions, ?_⟩
  refine bind_eq_ok.2 ⟨_, rfl, ?_⟩
  refine bind_eq_ok.2 ⟨_, rfl, ?_⟩
  refine bind_eq_ok.2 ⟨_, rfl, ?_⟩
  rw [hrevision, htext, texts?_list]
  refine bind_eq_ok.2 ⟨_, rfl, ?_⟩
  refine bind_eq_ok.2 ⟨_, rfl, ?_⟩
  refine bind_eq_ok.2 ⟨_, rfl, ?_⟩
  refine bind_eq_ok.2 ⟨_, rfl, ?_⟩
  refine bind_eq_ok.2 ⟨(), ?_, ?_⟩
  · rw [hfields]
    rfl
  · refine bind_eq_ok.2 ⟨(), ?_, rfl⟩
    rw [hcoherent]
    rfl

/-- The worker answers a tropical call. -/
theorem nullWorker_calculate {request : EphemerisRequest}
    (h : EphemerisRequest.make request.utc = .ok request) :
    ∃ r, nullWorker.calculate (.new 2) request = .ok r ∧ r.modelValidate = .ok r ∧
      r.utc = request.utc := by
  obtain ⟨r, hr⟩ := stillOutput_result h
  have hattempt : nullWorker.attempt request false = .ok (r, []) := by
    refine bind_eq_ok.2 ⟨_, encoded_exited (stillOutput_size _), ?_⟩
    refine bind_eq_ok.2 ⟨_, congrArg (fun x => (Checked.ofOption x).toAdapter)
      (stillOutput_loads _), ?_⟩
    refine bind_eq_ok.2 ⟨(), rfl, bind_eq_ok.2 ⟨_, rfl, ?_⟩⟩
    exact bind_eq_ok.2 ⟨[], rfl, bind_eq_ok.2 ⟨r, hr, rfl⟩⟩
  obtain ⟨hutc, hvalid⟩ := attempt_eq_ok hattempt
  refine ⟨r, ?_, hvalid, hutc⟩
  rw [SwissEphemeris.calculate, run_of_free h (by decide), hattempt]
  rfl

/-- The request is answered by a service in Sydney whose adapter answers for that instant, with a
    passport of the instant. -/
theorem sydney_calculate {ephemeris : SwissEphemeris} {capacity : BoundedSemaphore 2}
    (h : ∃ r, ephemeris.calculate capacity ⟨.utc sydneyUtc⟩ = .ok r ∧ r.modelValidate = .ok r ∧
      r.utc = .utc sydneyUtc) :
    ∃ response, (PassportScience.ofParts everywhereSydney
      ⟨fun _ => some sydneyFile, fun _ _ => rfl⟩ ephemeris capacity).calculate sydneyRequest =
        .ok response ∧ utcFromIso response.civil.utc.toList = some sydneyUtc := by
  obtain ⟨hplace, hcivilInput⟩ := AstroPassportRequestV1.valid_iff.1 sydneyRequest_valid
  obtain ⟨civil, hcivil, hinstant⟩ := sydney_resolve
  obtain ⟨utc, hresolved⟩ := resolvedFor_of_resolve hcivil
  have hread : utcFromIso civil.civilFact.utc.toList = some sydneyUtc := by
    simp [ResolvedCivilTime.civilFact, hinstant, PyDateTime.utc]
  rw [← hinstant] at h
  obtain ⟨r, hr, hvalid, hutc⟩ := h
  obtain ⟨-, haccepted⟩ := EphemerisResult.accepted hvalid
  obtain ⟨response, hresponse, hsame⟩ : ∃ response, AstroPassportResponseV1.model.decode
      (passportDocument sydneyRequest.selectedPlace sydneyFact civil r) = .ok response ∧
      response.civil = civil.civilFact := by
    obtain ⟨tzid, hresponse⟩ := passportDocument_response hplace hresolved haccepted
      (congrArg PyDateTime.naive hutc)
    exact ⟨_, hresponse, rfl⟩
  have hboundary : everywhereSydney.resolve
      ⟨sydneyRequest.selectedPlace.latitude, sydneyRequest.selectedPlace.longitude⟩ =
        .ok sydneyFact := by decide +kernel
  have hreplay := verifyResult_eq_ok.2 ⟨rfl, _, _, _, hcivil⟩
  have hround := AstroPassportRequestV1.model.decode_encode sydneyRequest_valid
  have hfacts : natalFacts ⟨civil.utc⟩ r = .ok r :=
    natalFacts_of_accepted hvalid (congrArg PyDateTime.naive hutc)
  refine ⟨response, mapError_eq_ok.2 ?_, hsame ▸ hread⟩
  refine bind_eq_ok.2 ⟨_, congrArg Checked.toPassport hround, ?_⟩
  refine bind_eq_ok.2 ⟨_, congrArg Checked.toPassport (SelectedPlace.coordinates_of_valid hplace), ?_⟩
  refine bind_eq_ok.2 ⟨_, congrArg (Except.mapError BoundaryRaise.toPassport) hboundary, ?_⟩
  refine bind_eq_ok.2 ⟨(), rfl, ?_⟩
  refine bind_eq_ok.2 ⟨_, congrArg (fun x => (Checked.ofOption x).toPassport) sydneyRequest_rawInput,
    ?_⟩
  refine bind_eq_ok.2 ⟨_, congrArg (Except.mapError CivilRaise.toPassport)
    (rawInput_modelValidate _ _), ?_⟩
  refine bind_eq_ok.2 ⟨_, congrArg (Except.mapError CivilRaise.toPassport) hcivil, ?_⟩
  refine bind_eq_ok.2 ⟨_, congrArg (Except.mapError CivilRaise.toPassport) hreplay, ?_⟩
  refine bind_eq_ok.2 ⟨_, congrArg Checked.toPassport hresolved.ephemerisRequest, ?_⟩
  refine bind_eq_ok.2 ⟨r, ?_, congrArg Checked.toPassport hresponse⟩
  simp only [PassportScience.natal, hresolved.ephemerisRequest]
  exact bind_eq_ok.2 ⟨r, hr, hfacts⟩

/-- The sky that the worker prints becomes a passport of the earlier instant, and the slot is
    back. -/
theorem tropical_outcome_sydney :
    (nullWorker.run false (.new 2) ⟨.utc sydneyUtc⟩).2 = .new 2 ∧
    ∃ response, (PassportScience.ofParts everywhereSydney ⟨fun _ => some sydneyFile, fun _ _ => rfl⟩
        nullWorker (.new 2)).calculate sydneyRequest = .ok response ∧
      AstroPassportResponseV1.model.valid response = true := by
  obtain ⟨hadapter, hpassport⟩ := tropical_outcome everywhereSydney
    ⟨fun _ => some sydneyFile, fun _ _ => rfl⟩ nullWorker (.new 2)
  refine ⟨(hadapter ⟨.utc sydneyUtc⟩).1, ?_⟩
  obtain ⟨response, hresponse, -⟩ :=
    sydney_calculate (@nullWorker_calculate ⟨.utc sydneyUtc⟩ (if_pos ⟨rfl, rfl, by decide⟩))
  rcases hpassport sydneyRequest sydneyRequest_valid with hvalid | ⟨code, hcode, -⟩
  · exact hvalid
  · -- the pipeline does not fail on this sky
    rw [hresponse] at hcode
    cases hcode

end AstroPassport
