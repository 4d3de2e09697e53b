import AstroPassport.Science.Ephemeris.Isolated
import AstroPassport.Science.Lahiri

set_option autoImplicit false

/-! # A Lahiri calculation over the worker

`_lahiri` asks its worker twice, for the tropical passport and then for the extension, in two
processes that share nothing but the library and the directory they start from. What the second one
finds of the tropical sky is what the first one found, whatever state the native library keeps,
because the sidereal work comes after it; and what it accepts as a sidereal Moon the response
accepts, but for a negative zero.

So the comparison of the two astronomies, which the code makes, never fails for this worker
(`sameAstronomy_result`), and the extension it prints makes a response exactly when neither of its
two angles is a negative zero (`acceptable_toPy_iff`). What is left of the second call is the
failure of its run. `lahiri_isolated` puts the two calls together for any runtime, and for a sky
that stands still over Sydney the response is written out. -/

namespace AstroPassport

open Worker

/-! ## What a passport was made of -/

section Passport

variable {boundaries : TBBTimezoneBoundaryResolver} {civil : PinnedCivilTimeResolver}
  {ephemeris : SwissEphemeris} {capacity : BoundedSemaphore 2}

/-- What the natal service returns is what the adapter returned. -/
theorem natal_eq_ok {utc : PyDateTime} {astronomy : EphemerisResult}
    (h : EphemerisRequest.make utc = .ok ⟨utc⟩)
    (hnatal : (PassportScience.ofParts boundaries civil ephemeris capacity).natal ⟨utc⟩ =
      .ok astronomy) :
    ephemeris.calculate capacity ⟨utc⟩ = .ok astronomy ∧
      astronomy.modelValidate = .ok astronomy ∧ astronomy.utc = utc := by
  have hservice : (PassportScience.ofParts boundaries civil ephemeris capacity).natal ⟨utc⟩ =
      ephemeris.calculate capacity ⟨utc⟩ >>= natalFacts ⟨utc⟩ := by
    simp only [PassportScience.natal, h]
    rfl
  rw [hservice] at hnatal
  obtain ⟨found, hfound, hfacts⟩ := bind_eq_ok.1 hnatal
  rcases calculate_cases ephemeris capacity ⟨utc⟩ with ⟨r, hr, hvalid, hutc⟩ | ⟨category, hfailure⟩
  · obtain rfl : r = found := Except.ok.inj (hr.symm.trans hfound)
    rw [natalFacts_of_accepted hvalid (congrArg PyDateTime.naive hutc)] at hfacts
    obtain rfl : r = astronomy := Except.ok.inj hfacts
    exact ⟨hr, hvalid, hutc⟩
  · rw [hfailure] at hfound
    cases hfound

/-- The adapter's answer for the instant of a passport is the astronomy of the passport. -/
theorem astronomy_of_calculate {request : AstroPassportRequestV1} {response : AstroPassportResponseV1}
    (hrequest : AstroPassportRequestV1.model.valid request = true)
    (h : (PassportScience.ofParts boundaries civil ephemeris capacity).calculate request =
      .ok response) :
    ∃ utc astronomy, utcFromIso response.civil.utc.toList = some utc ∧
      EphemerisRequest.make (.utc utc) = .ok ⟨.utc utc⟩ ∧
      ephemeris.calculate capacity ⟨.utc utc⟩ = .ok astronomy ∧
      sameAstronomy astronomy response = true := by
  obtain ⟨hplace, -⟩ := AstroPassportRequestV1.valid_iff.1 hrequest
  have hattempt := mapError_eq_ok.1 h
  -- undo the steps of `attempt` one by one; the ephemeris answer is among them
  obtain ⟨value, hvalue, hattempt⟩ := bind_eq_ok.1 hattempt
  obtain rfl : request = value := Checked.ok.inj
    ((AstroPassportRequestV1.model.decode_encode hrequest).symm.trans
      (Checked.toPassport_eq_ok.1 hvalue))
  obtain ⟨_, -, hattempt⟩ := bind_eq_ok.1 hattempt
  obtain ⟨boundary, -, hattempt⟩ := bind_eq_ok.1 hattempt
  obtain ⟨_, -, hattempt⟩ := bind_eq_ok.1 hattempt
  obtain ⟨_, -, hattempt⟩ := bind_eq_ok.1 hattempt
  obtain ⟨raw, -, hattempt⟩ := bind_eq_ok.1 hattempt
  obtain ⟨civilTime, hcivil, hattempt⟩ := bind_eq_ok.1 hattempt
  obtain ⟨replayed, hreplayed, hattempt⟩ := bind_eq_ok.1 hattempt
  obtain ⟨asked, hasked, hattempt⟩ := bind_eq_ok.1 hattempt
  obtain ⟨astronomy, hnatal, hdecode⟩ := bind_eq_ok.1 hattempt
  have hresolve := mapError_eq_ok.1 hcivil
  have hreplay : civil.verifyResult civilTime = .ok civilTime :=
    verifyResult_eq_ok.2 ⟨rfl, raw, boundary, request.civil.fold, hresolve⟩
  obtain rfl : civilTime = replayed := Except.ok.inj
    (hreplay.symm.trans (mapError_eq_ok.1 hreplayed))
  obtain ⟨utc, hresolved⟩ := resolvedFor_of_resolve hresolve
  have hmake := hresolved.ephemerisRequest
  obtain rfl : asked = ⟨civilTime.utc⟩ := Checked.ok.inj
    ((Checked.toPassport_eq_ok.1 hasked).symm.trans hmake)
  rw [hresolved.utc_eq] at hmake hnatal
  obtain ⟨hcalculate, hvalid, hutc⟩ := natal_eq_ok hmake hnatal
  obtain ⟨-, haccepted⟩ := EphemerisResult.accepted hvalid
  have hnaive : astronomy.utc.naive = civilTime.utc.naive := by rw [hutc, hresolved.utc_eq]
  obtain ⟨tzid, hresponse⟩ := passportDocument_response hplace hresolved haccepted hnaive
  obtain rfl := Checked.ok.inj (hresponse.symm.trans (Checked.toPassport_eq_ok.1 hdecode))
  refine ⟨utc, astronomy, ?_, hmake, hcalculate, ?_⟩
  · simp [passportResponse, ResolvedCivilTime.civilFact, hresolved.utc_eq, PyDateTime.utc]
  · simp [sameAstronomy, passportResponse, BodyLongitude.wire, EphemerisResult.provenanceV1]

end Passport

/-! ## Two runs of the process -/

section Runs

variable {σ : Type} {r : WorkerRuntime σ}

/-- The tropical part of a reading does not depend on the mode. -/
theorem run_tropical_eq {utc : NaiveDateTime} {lahiri lahiri' : Bool} {found found' : Reading}
    (h : Worker.run r utc lahiri = .ok found) (h' : Worker.run r utc lahiri' = .ok found') :
    found.positions = found'.positions ∧ found.jdTt = found'.jdTt ∧ found.jdUt1 = found'.jdUt1 := by
  obtain ⟨swe, t, hswe, htropical, -⟩ := run_eq_ok h
  obtain ⟨swe', t', hswe', htropical', -⟩ := run_eq_ok h'
  obtain rfl : swe = swe' := Except.ok.inj (hswe.symm.trans hswe')
  have hsame := Except.ok.inj (htropical.symm.trans htropical')
  simp only [Prod.mk.injEq] at hsame
  obtain ⟨⟨hpositions, ⟨htt, hut1⟩, -⟩, -⟩ := hsame
  exact ⟨hpositions, htt, hut1⟩

variable {fromIsoFormat : List CodePoint → Option PyDateTime} {revisionFile : Option String}

/-- What the adapter returns was found by its process. -/
theorem reading_of_calculate (h : ReadsInstants fromIsoFormat) {capacity : BoundedSemaphore 2}
    {utc : NaiveDateTime} {astronomy : EphemerisResult}
    (hmake : EphemerisRequest.make (.utc utc) = .ok ⟨.utc utc⟩)
    (hcalculate : (SwissEphemeris.isolated r fromIsoFormat revisionFile).calculate capacity
      ⟨.utc utc⟩ = .ok astronomy) :
    ∃ found revision, Worker.run r utc false = .ok found ∧ requireRevision revisionFile = some revision ∧
      found.withinBounds = true ∧ astronomy = found.result utc revision := by
  have hsupported : supportedUtc utc = true := (supportedUtc_of_make hmake).2
  by_cases hfree : capacity.value ≠ 0
  · have hrun := @run_of_free (.isolated r fromIsoFormat revisionFile) ⟨.utc utc⟩ false capacity
      hmake hfree
    rw [SwissEphemeris.calculate, hrun, attempt_isolated r h revisionFile hsupported] at hcalculate
    obtain ⟨⟨_, _⟩, hanswer, rfl⟩ := map_eq_ok.1 hcalculate
    obtain ⟨found, revision, hfound, hrevision, hwithin, hresult⟩ :=
      answer_eq_ok.1 (mapError_eq_ok.1 hanswer)
    cases hresult
    exact ⟨found, revision, hfound, hrevision, hwithin, rfl⟩
  · obtain ⟨category, hrun⟩ := @run_of_not_free (.isolated r fromIsoFormat revisionFile)
      ⟨.utc utc⟩ false capacity fun hboth => hfree hboth.2
    rw [SwissEphemeris.calculate, hrun] at hcalculate
    cases hcalculate

/-! ## What becomes of an extension -/

theorem hex_injective : Function.Injective Finite64.hex := by
  intro x y h
  have hx := fromHex_hex x
  rw [h, fromHex_hex] at hx
  exact (Binary64.finite.inj (Checked.ok.inj hx)).symm

theorem hasKeys_toPy (s : SiderealReading) : hasKeys s.toPy extensionKeys = true := by
  simp [hasKeys, SiderealReading.toPy, extensionKeys]

theorem lookup_toPy (s : SiderealReading) :
    s.toPy.lookup (pyKey "moon_binary64") = some (pyStr s.moon.hex) ∧
      s.toPy.lookup (pyKey "ayanamsha_binary64") = some (pyStr s.ayanamsha.hex) ∧
      s.toPy.lookup (pyKey "requested_flags") = some (.int s.requestedFlags) ∧
      s.toPy.lookup (pyKey "returned_flags") = some (.int s.returnedFlags) ∧
      s.toPy.lookup (pyKey "ayanamsha_flags") = some (.int s.ayanamshaFlags) :=
  ⟨rfl, rfl, rfl, rfl, rfl⟩

/-- What the process accepted beside a tropical Moon is acceptable for a response with that Moon
    unless an angle is the negative zero. -/
theorem acceptable_toPy_iff {tropical : AstroPassportResponseV1} {s : SiderealReading}
    {moon : Finite64} (hmoon : tropical.bodies.2.binary64Hex.toList = moon.hex)
    (hs : s.Accepted moon) :
    AcceptableExtension tropical s.toPy ↔ s.moon.neg = false ∧ s.ayanamsha.neg = false := by
  obtain ⟨hlookupMoon, hlookupAya, hlookupRequested, hlookupReturned, hlookupFlags⟩ := lookup_toPy s
  constructor
  · intro h
    obtain ⟨x, y, z, ayaText, moonText, -, haya, hy, hmoon, hz, -⟩ := h.angles
    rw [hlookupAya, Option.some.injEq] at haya
    rw [hlookupMoon, Option.some.injEq] at hmoon
    have hayaText := map_scalar_injective (PyValue.str.inj haya)
    have hmoonText := map_scalar_injective (PyValue.str.inj hmoon)
    obtain ⟨rfl, -, hyneg⟩ := hy
    obtain ⟨rfl, -, hzneg⟩ := hz
    rw [hex_injective hayaText, hex_injective hmoonText]
    exact ⟨hzneg, hyneg⟩
  · rintro ⟨hmoonNeg, hayaNeg⟩
    refine ⟨hs.requestedFlags ▸ hlookupRequested, hs.returnedFlags ▸ hlookupReturned,
      hs.ayanamshaFlags ▸ hlookupFlags, ?_⟩
    exact ⟨moon, s.ayanamsha, s.moon, _, _, hmoon, hlookupAya, ⟨rfl, hs.ayanamsha, hayaNeg⟩,
      hlookupMoon, ⟨rfl, hs.moon, hmoonNeg⟩, hs.near⟩

end Runs

/-! ## The calculation -/

/-- A result has the astronomy of a passport if another of the same numbers has. -/
theorem sameAstronomy_result {found found' : Reading} {utc : NaiveDateTime}
    {revision : String} {tropical : AstroPassportResponseV1}
    (hpositions : found.positions = found'.positions) (htt : found.jdTt = found'.jdTt) :
    sameAstronomy (found.result utc revision) tropical =
      sameAstronomy (found'.result utc revision) tropical := by
  have hbodies : (found.result utc revision).positions = (found'.result utc revision).positions := by
    simp only [Reading.result, hpositions]
  have hjd : (found.result utc revision).jdTtHex = (found'.result utc revision).jdTtHex := by
    simp only [Reading.result, htt]
  rw [sameAstronomy, sameAstronomy, hbodies, hjd]

/-- **The two calls of a Lahiri calculation agree.** Over the process of `worker.py`, whatever state
    its native library keeps. Both calls start the process on one runtime, the same platform,
    library and directory, and the second call finds a free slot. Once a valid request has its
    tropical passport, that call is made for the instant of the passport and finds the passport's
    own astronomy again. The calculation then ends in the failure of that run, or in a valid
    response around the passport that holds the two angles of the run, unless one of them is the
    negative zero. -/
theorem lahiri_isolated {σ : Type} (r : WorkerRuntime σ)
    {fromIsoFormat : List CodePoint → Option PyDateTime} (h : ReadsInstants fromIsoFormat)
    (revisionFile : Option String) (boundaries : TBBTimezoneBoundaryResolver)
    (civil : PinnedCivilTimeResolver) (capacity capacity' : BoundedSemaphore 2)
    {request : LahiriRequest} (hrequest : LahiriRequest.model.valid request = true)
    {tropical : AstroPassportResponseV1}
    (htropical : (PassportScience.ofParts boundaries civil
      (.isolated r fromIsoFormat revisionFile) capacity).calculate
        ⟨request.selectedPlace, request.civil⟩ = .ok tropical)
    (hfree : capacity'.value ≠ 0) :
    ∃ utc, utcFromIso tropical.civil.utc.toList = some utc ∧
      match Worker.run r utc true with
      | .error e =>
        (PassportScience.ofParts boundaries civil (.isolated r fromIsoFormat revisionFile)
          capacity).lahiri (.isolated r fromIsoFormat revisionFile) capacity' request =
            .error (PassportRaise.stage (.ephemeris e.category)).asScienceFailure
      | .ok found => ∃ s, found.sidereal = some s ∧
        if s.moon.neg = false ∧ s.ayanamsha.neg = false then
          ∃ response, (PassportScience.ofParts boundaries civil
              (.isolated r fromIsoFormat revisionFile) capacity).lahiri
                (.isolated r fromIsoFormat revisionFile) capacity' request = .ok response ∧
            LahiriResponse.model.valid response = true ∧ response.tropical = tropical ∧
            response.sidereal.moon.binary64Hex.toList = s.moon.hex ∧
            response.sidereal.ayanamsha.binary64Hex.toList = s.ayanamsha.hex
        else ¬ Controlled ((PassportScience.ofParts boundaries civil
          (.isolated r fromIsoFormat revisionFile) capacity).lahiri
            (.isolated r fromIsoFormat revisionFile) capacity' request) := by
  obtain ⟨-, hpassport⟩ := LahiriRequest.tropicalRequest_of_valid hrequest
  have hvalid := calculate_valid htropical
  obtain ⟨utc, astronomy, hutc, hmake, hcalculate, hsame⟩ :=
    astronomy_of_calculate hpassport htropical
  obtain ⟨first, revision, hfirst, hrevision, hwithin, rfl⟩ :=
    reading_of_calculate h hmake hcalculate
  have hsupported : supportedUtc utc = true := (supportedUtc_of_make hmake).2
  refine ⟨utc, hutc, ?_⟩
  have hlahiri := @lahiri_of_tropical (.isolated r fromIsoFormat revisionFile) capacity' request
    tropical utc _ hrequest htropical hutc hmake
  have hrun := @run_of_free (.isolated r fromIsoFormat revisionFile) ⟨.utc utc⟩ true capacity'
    hmake hfree
  rw [SwissEphemeris.calculateLahiri, hrun, attempt_isolated r h revisionFile hsupported]
    at hlahiri
  rcases hsecond : Worker.run r utc true with e | found
  · rw [hsecond] at hlahiri
    exact hlahiri
  · obtain ⟨hpositions, htt, hut1⟩ := run_tropical_eq hsecond hfirst
    obtain ⟨s, hs⟩ := Option.isSome_iff_exists.1 (run_sidereal hsecond)
    have haccepted := run_accepted hsecond hs
    -- the second result is that of the passport
    have hagain : found.withinBounds = true := by
      rw [← hwithin, Reading.withinBounds, Reading.withinBounds, hpositions, htt, hut1]
    have hanswer : answer revisionFile utc (.ok found) =
        .ok (found.result utc revision, s.toPy) := by
      have hextension : found.extension = s.toPy := by rw [Reading.extension, hs]
      rw [← hextension]
      exact answer_eq_ok.2 ⟨found, revision, rfl, hrevision, hagain, rfl⟩
    rw [← sameAstronomy_result hpositions htt] at hsame
    have hmoon : tropical.bodies.2.binary64Hex.toList = found.positions.2.hex := by
      simp only [sameAstronomy, Bool.and_eq_true, decide_eq_true_eq] at hsame
      rw [← hsame.1.2]
      exact String.toList_ofList
    have hiff := acceptable_toPy_iff hmoon haccepted
    have hmade : (PassportScience.ofParts boundaries civil (.isolated r fromIsoFormat revisionFile)
        capacity).lahiri (.isolated r fromIsoFormat revisionFile) capacity' request =
          lahiriResponse tropical s.toPy := by
      rw [hlahiri, hsecond, hanswer]
      refine (bind_of_eq_ok (a := (found.result utc revision, s.toPy)) rfl).trans ?_
      refine (bind_of_eq_ok (a := ()) (if_pos hsame)).trans ?_
      exact bind_of_eq_ok (a := ()) (if_pos (hasKeys_toPy s))
    refine ⟨s, hs, ?_⟩
    rw [hmade]
    split
    · next hplain =>
        obtain ⟨response, hresponse, hresponseValid, hwhole, haya, hmoonText⟩ :=
          (hiff.2 hplain).exists_angles hvalid
        obtain ⟨hlookupMoon, hlookupAya, -⟩ := lookup_toPy s
        rw [hlookupMoon, Option.some.injEq] at hmoonText
        rw [hlookupAya, Option.some.injEq] at haya
        exact ⟨response, hresponse, hresponseValid, hwhole,
          (map_scalar_injective (PyValue.str.inj hmoonText)).symm,
          (map_scalar_injective (PyValue.str.inj haya)).symm⟩
    · next hplain =>
        rintro (⟨response, hresponse, -⟩ | ⟨code, hcode, -⟩)
        · exact hplain (hiff.1 (acceptable_of_lahiriResponse hvalid hresponse))
        · exact lahiriResponse_raises _ hcode code rfl

theorem sydneyFile_covers : ∀ name ∈ registeredZoneIds, (some sydneyFile).isSome := fun _ _ => rfl

/-- The service over that process. -/
def stillScience : PassportScience :=
  .ofParts everywhereSydney ⟨fun _ => some sydneyFile, sydneyFile_covers⟩
    (.isolated stillRuntime readInstant (some "18a3776bc1ab1dc52212b4de48a0df36709d72d2")) (.new 2)

theorem stillScience_calculate : ∃ response, stillScience.calculate sydneyRequest = .ok response ∧
    utcFromIso response.civil.utc.toList = some sydneyUtc := by
  apply sydney_calculate
  have hmake : EphemerisRequest.make (.utc sydneyUtc) = .ok ⟨.utc sydneyUtc⟩ :=
    if_pos ⟨rfl, rfl, by decide⟩
  have hsupported : supportedUtc sydneyUtc = true := (supportedUtc_of_make hmake).2
  obtain ⟨found, hrun, hwithin, -⟩ := run_stillRuntime false
  rw [show halfPastThree = sydneyUtc from rfl] at hrun
  have hattempt := attempt_isolated stillRuntime readsInstants_readInstant
    (some "18a3776bc1ab1dc52212b4de48a0df36709d72d2") hsupported false
  rw [hrun, answer_eq_ok.2 ⟨found, _, rfl, requireRevision_pinned, hwithin, rfl⟩] at hattempt
  obtain ⟨hutc, hvalid⟩ := attempt_eq_ok hattempt
  have hcall := @run_of_free (.isolated stillRuntime readInstant
    (some "18a3776bc1ab1dc52212b4de48a0df36709d72d2")) ⟨.utc sydneyUtc⟩ false (.new 2) hmake
    (by decide)
  refine ⟨_, ?_, hvalid, hutc⟩
  rw [SwissEphemeris.calculate, hcall, hattempt]
  rfl

/-- A request in Sydney gets the second answer of the process: the passport of the first one, and
    next to it the two angles that the second run found. -/
theorem lahiri_isolated_sydney : ∃ tropical response,
    stillScience.calculate sydneyRequest = .ok tropical ∧
    stillScience.lahiri (.isolated stillRuntime readInstant
      (some "18a3776bc1ab1dc52212b4de48a0df36709d72d2")) (.new 2) sydneyLahiriRequest =
        .ok response ∧
    LahiriResponse.model.valid response = true ∧ response.tropical = tropical ∧
    response.sidereal.moon.binary64Hex = "0x0.0p+0" ∧
    response.sidereal.ayanamsha.binary64Hex = "0x0.0p+0" := by
  obtain ⟨tropical, htropical, hinstant⟩ := stillScience_calculate
  obtain ⟨found, hrun, -, hangles⟩ := run_stillRuntime true
  have hsecond := lahiri_isolated stillRuntime readsInstants_readInstant
    (some "18a3776bc1ab1dc52212b4de48a0df36709d72d2") everywhereSydney
    ⟨fun _ => some sydneyFile, fun _ _ => rfl⟩ (.new 2) (.new 2) sydneyLahiriRequest_valid htropical
    (by decide)
  -- only the result of the run matters from here on
  generalize Worker.run stillRuntime = outcome at hrun hsecond
  obtain ⟨utc, hutc, hsecond⟩ := hsecond
  obtain rfl : sydneyUtc = utc := Option.some.inj (hinstant.symm.trans hutc)
  rw [show halfPastThree = sydneyUtc from rfl] at hrun
  rw [hrun] at hsecond
  obtain ⟨s, hs, hsecond⟩ := hsecond
  obtain ⟨hmoon, hayanamsha⟩ := hangles s hs
  rw [hmoon, hayanamsha, if_pos ⟨rfl, rfl⟩] at hsecond
  obtain ⟨response, hresponse, hvalid, hwhole, hmoonHex, hayanamshaHex⟩ := hsecond
  have hzero : (Finite64.zero false).hex = "0x0.0p+0".toList := by decide
  rw [hzero, String.toList_inj] at hmoonHex hayanamshaHex
  exact ⟨tropical, response, htropical, hresponse, hvalid, hwhole, hmoonHex, hayanamshaHex⟩

end AstroPassport
