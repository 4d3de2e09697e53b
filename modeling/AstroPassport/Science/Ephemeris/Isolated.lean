import AstroPassport.Science.Ephemeris.Exchange
import AstroPassport.Science.Rendering

set_option autoImplicit false

/-! # The adapter over its worker

`SwissEphemeris` with the process of `worker.py` behind it. What is printed fits the 8192 bytes the
adapter reads, is JSON, and has the keys, the texts and the limitations the adapter asks for, so
that a call ends as `answer` says: with the failure of `run`, or with the numbers that `run` found
unless a longitude leaves the circle or a Julian date the supported years.

The line is bounded by its parts: fixed names and texts, a few floats in hexadecimal, and at most
two limitations (`size_printed_le`). A float that was written in hexadecimal is read back as itself,
so the decimal the adapter computes is that of the worker's own float and the result passes its
model (`result_tropicalToPy`, `result_coherent`). A reported failure keeps its category
(`raiseReported_report`). `attempt_isolated` joins both processes, `run_isolated` adds the slot and
the request. A runtime whose sky stands still answers. -/

namespace AstroPassport

open Worker

/-! ## Positions and dates from their own hexadecimal -/

/-- A body at a float. -/
def BodyLongitude.ofFloat (body : Body) (x : Finite64) : BodyLongitude :=
  ⟨body, ⟨x.neg, x.e9, -9⟩, String.ofList x.hex⟩

theorem value_e9 {x : Finite64} (hx : 0 ≤ x.value ∧ x.value < 360) :
    PyDecimal.value ⟨x.neg, x.e9, -9⟩ = x.e9 / 10 ^ 9 := by
  have hscale : (10 : ℚ) ^ (-((9 : ℕ) : ℤ)) = (10 ^ 9)⁻¹ := by rw [zpow_neg, zpow_natCast]
  rcases hneg : x.neg with _ | _
  · rw [div_eq_mul_inv, ← hscale]
    rfl
  · rw [e9_of_zero (abs_eq_zero_of_neg hx hneg)]
    simp [PyDecimal.value, PyDecimal.magnitude]

theorem ofFloat_modelValidate {x : Finite64} (hx : 0 ≤ x.value ∧ x.value < 360) (body : Body) :
    (BodyLongitude.ofFloat body x).modelValidate = .ok () := by
  have hlt : (x.e9 : ℚ) < 360 * 10 ^ 9 := by exact_mod_cast x.e9_lt
  have hrange : 0 ≤ PyDecimal.value ⟨x.neg, x.e9, -9⟩ ∧ PyDecimal.value ⟨x.neg, x.e9, -9⟩ < 360 := by
    rw [value_e9 hx, div_lt_iff₀ (by norm_num)]
    exact ⟨by positivity, hlt⟩
  have hcoeff : x.e9 < 10 ^ 32 := x.e9_lt.trans_le (by norm_num)
  have hlength : (String.ofList x.hex).length ≤ 32 := by
    rw [String.length_ofList]
    exact x.length_hex_le
  have hexact : (BodyLongitude.ofFloat body x).exactProjection = .ok () := by
    simp only [BodyLongitude.exactProjection, BodyLongitude.ofFloat, String.toList_ofList,
      fromHex_hex, Checked.ok_bind, Binary64.hex, decide_true, Checked.require, if_true,
      longitudeDecimal_finite hx]
    exact if_pos (decide_eq_true rfl)
  refine Checked.bind_eq_ok.2 ⟨(), Checked.require_eq_ok.2 ?_, hexact⟩
  simp only [BodyLongitude.ofFloat, Bool.and_eq_true]
  exact ⟨⟨⟨decide_eq_true hrange, decide_eq_true hcoeff⟩, rfl⟩, decide_eq_true hlength⟩

/-- The adapter reads a position off the hexadecimal of a float, unless the float leaves the
    circle. -/
theorem readPosition_hex (body : Body) (x : Finite64) :
    readPosition body (pyStr x.hex) =
      if 0 ≤ x.value ∧ x.value < 360 then .ok (.ofFloat body x) else .error .valueError := by
  have htext : (pyStr x.hex).textArgument = .ok (String.ofList x.hex) := by
    simp only [pyStr, PyValue.textArgument, scalars?_map_scalar]
  have hread : Binary64.fromHex (String.ofList x.hex).toList = .ok (.finite x) := by
    rw [String.toList_ofList, fromHex_hex]
  refine (bind_of_eq_ok htext).trans ?_
  refine (bind_of_eq_ok (Checked.toAdapter_eq_ok.2 hread)).trans ?_
  split
  · next hx =>
      refine (bind_of_eq_ok (Checked.toAdapter_eq_ok.2 (longitudeDecimal_finite hx))).trans ?_
      exact bind_eq_ok.2 ⟨(), Checked.toAdapter_eq_ok.2 (ofFloat_modelValidate hx body), rfl⟩
  · next hx =>
      have hcircle : (Binary64.finite x).onCircle = false := decide_eq_false hx
      have hraise : longitudeDecimal (.finite x) = .valueError := by
        rw [longitudeDecimal, hcircle]
        rfl
      rw [hraise]
      rfl

theorem readPositions_hex (p : Finite64 × Finite64) :
    readPositions [pyStr p.1.hex, pyStr p.2.hex] =
      if ((Binary64.finite p.1).onCircle && (Binary64.finite p.2).onCircle) = true then
        .ok (.ofFloat .sun p.1, .ofFloat .moon p.2)
      else .error .valueError := by
  simp only [readPositions, readPosition_hex, Binary64.onCircle, Bool.and_eq_true,
    decide_eq_true_eq]
  by_cases hsun : 0 ≤ p.1.value ∧ p.1.value < 360
  · by_cases hmoon : 0 ≤ p.2.value ∧ p.2.value < 360
    · rw [if_pos hsun, if_pos hmoon, if_pos ⟨hsun, hmoon⟩]
      rfl
    · rw [if_pos hsun, if_neg hmoon, if_neg fun h => hmoon h.2]
      rfl
  · have hboth : ¬((0 ≤ p.1.value ∧ p.1.value < 360) ∧ 0 ≤ p.2.value ∧ p.2.value < 360) :=
      fun h => hsun h.1
    rw [if_neg hsun, if_neg hboth]
    rfl

/-- A Julian date of the supported years. -/
def supportedJulian : Binary64 → Bool
  | .finite x => decide (2400000 < x.value ∧ x.value < 2490000)
  | _ => false

theorem julianDate_hex (x : Binary64) :
    julianDate (String.ofList x.hex) = Checked.require (supportedJulian x) := by
  rcases x with x | neg | _
  · simp only [julianDate, String.toList_ofList, Binary64.hex, fromHex_hex, Checked.ok_bind,
      decide_true, Bool.true_and, supportedJulian]
  · rcases neg with _ | _ <;> rfl
  · rfl

theorem length_hex_le (x : Binary64) : x.hex.length ≤ 32 := by
  rcases x with x | neg | _
  · exact x.length_hex_le
  · rcases neg with _ | _ <;> decide
  · decide

/-! ## The result of a reading -/

namespace Worker

/-- The numbers that the adapter still looks at: two longitudes and two Julian dates. -/
def Reading.withinBounds (r : Reading) : Bool :=
  (Binary64.finite r.positions.1).onCircle && (Binary64.finite r.positions.2).onCircle &&
    (supportedJulian r.jdTt && supportedJulian r.jdUt1)

/-- The result that stands for a reading. -/
def Reading.result (r : Reading) (utc : NaiveDateTime) (revision : String) : EphemerisResult where
  utc := .utc utc
  positions := (.ofFloat .sun r.positions.1, .ofFloat .moon r.positions.2)
  jdTtHex := String.ofList r.jdTt.hex
  jdUt1Hex := String.ofList r.jdUt1.hex
  limitations := r.limitations
  provenance := adapterProvenance revision

end Worker

/-- The constants of the adapter pass the checks of their fields. -/
theorem adapterProvenance_valid {revision : String} (h : isRevision revision = true) :
    (adapterProvenance revision).valid = true := by
  have hdigests : ["2b3234b6678dfa5666c98e898c16ee7e8c6c8457100e293c24ce679cd4387764",
      "690080559951f827e95d568dc6764aa8d4bfb4fa8a5435eb5abe24c1e01c166a",
      "ca1393ceab3a44fbc895887cf789c68819ae6a1cbc9b22225872dbe4ccd99a66",
      "1ca07bd67c24374d77226180c20a4f9996cba013697894810518e7eb582ca4f7"].all isDigest = true := by
    decide
  simp only [List.all_cons, List.all_nil, Bool.and_true, Bool.and_eq_true] at hdigests
  simp only [EphemerisProvenance.valid, adapterProvenance, hdigests, h, Bool.and_self]

theorem isRevision_of_require {file : Option String} {revision : String}
    (h : requireRevision file = some revision) : isRevision revision = true := by
  obtain ⟨text, -, h⟩ := Option.bind_eq_some_iff.1 h
  simp only at h
  split at h
  · next hvalid =>
      cases h
      exact hvalid
  · cases h

section Result

variable {s : SwissEphemeris} {r : Reading} {utc : NaiveDateTime}

theorem result_validFields (hlimitations : r.limitations =
    EphemerisResult.expectedLimitations utc.date.year) {revision : String}
    (hrevision : isRevision revision = true) : (r.result utc revision).validFields = true := by
  obtain ⟨hall, hlength⟩ := EphemerisResult.expectedLimitations_valid utc.date.year
  have hhex : ∀ x : Binary64, decide ((String.ofList x.hex).length ≤ 32) = true := by
    intro x
    rw [String.length_ofList]
    exact decide_eq_true (length_hex_le x)
  simp only [EphemerisResult.validFields, Worker.Reading.result, hlimitations, hhex, hall,
    adapterProvenance_valid hrevision, Bool.and_true, Bool.true_and, decide_eq_true_eq]
  exact hlength

/-- Of the coherence of a result only the Julian dates are open. -/
theorem result_coherent (hlimitations : r.limitations =
    EphemerisResult.expectedLimitations utc.date.year) (hutc : supportedUtc utc = true)
    (revision : String) : (r.result utc revision).coherent =
      Checked.require (supportedJulian r.jdTt && supportedJulian r.jdUt1) := by
  have hmake : EphemerisRequest.make (r.result utc revision).utc = .ok ⟨.utc utc⟩ :=
    if_pos ⟨rfl, rfl, hutc⟩
  have hstated : Checked.require (decide ((r.result utc revision).limitations =
      EphemerisResult.expectedLimitations (r.result utc revision).utc.naive.date.year)) = .ok () :=
    Checked.require_eq_ok.2 (decide_eq_true hlimitations)
  have hbodies : Checked.require (decide ((r.result utc revision).positions.1.body = .sun ∧
      (r.result utc revision).positions.2.body = .moon)) = .ok () :=
    Checked.require_eq_ok.2 (decide_eq_true ⟨rfl, rfl⟩)
  have htt : julianDate (r.result utc revision).jdTtHex =
      Checked.require (supportedJulian r.jdTt) := julianDate_hex r.jdTt
  have hut1 : julianDate (r.result utc revision).jdUt1Hex =
      Checked.require (supportedJulian r.jdUt1) := julianDate_hex r.jdUt1
  simp only [EphemerisResult.coherent, hmake, hstated, hbodies, htt, hut1, Checked.ok_bind]
  rcases supportedJulian r.jdTt with _ | _
  · rfl
  · rcases supportedJulian r.jdUt1 with _ | _ <;> rfl

/-- The adapter makes the result of a reading, or raises a `ValueError`. -/
theorem result_tropicalToPy (hlimitations : r.limitations =
    EphemerisResult.expectedLimitations utc.date.year) (hutc : supportedUtc utc = true) :
    s.result ⟨.utc utc⟩ (.dict r.tropicalToPy) =
      match requireRevision s.revisionFile with
      | some revision =>
        if r.withinBounds = true then .ok (r.result utc revision) else .error .valueError
      | none => .error .valueError := by
  have hkeys : hasKeys r.tropicalToPy ["positions", "jd_tt_hex", "jd_ut1_hex", "limitations"] =
      true := by
    simp [hasKeys, Reading.tropicalToPy]
  have htext : ∀ x : Binary64, (pyStr x.hex).text? = some (String.ofList x.hex) := by
    intro x
    simp only [PyValue.text?, pyStr, scalars?_map_scalar, Option.map_some]
  simp only [SwissEphemeris.result, hkeys, if_true]
  refine (bind_of_eq_ok (a := PyValue.list _) rfl).trans ?_
  refine (bind_of_eq_ok (a := [_, _]) rfl).trans ?_
  have hpositions := readPositions_hex r.positions
  by_cases hcircle : ((Binary64.finite r.positions.1).onCircle &&
    (Binary64.finite r.positions.2).onCircle) = true
  · rw [if_pos hcircle] at hpositions
    have hwithin : r.withinBounds = (supportedJulian r.jdTt && supportedJulian r.jdUt1) := by
      rw [Reading.withinBounds, hcircle, Bool.true_and]
    refine (bind_of_eq_ok hpositions).trans ?_
    refine (bind_of_eq_ok (a := pyStr r.jdTt.hex) rfl).trans ?_
    refine (bind_of_eq_ok (a := pyStr r.jdUt1.hex) rfl).trans ?_
    refine (bind_of_eq_ok (a := PyValue.list _) rfl).trans ?_
    rcases hrevision : requireRevision s.revisionFile with _ | revision
    · rfl
    · have hvalid := result_validFields hlimitations (isRevision_of_require hrevision)
      have hcoherent := result_coherent hlimitations hutc revision
      refine (bind_of_eq_ok (a := revision) rfl).trans ?_
      rw [htext, htext, texts?_list]
      refine (bind_of_eq_ok (a := String.ofList r.jdTt.hex) rfl).trans ?_
      refine (bind_of_eq_ok (a := String.ofList r.jdUt1.hex) rfl).trans ?_
      refine (bind_of_eq_ok (a := r.limitations) rfl).trans ?_
      refine (bind_of_eq_ok (a := ()) (Checked.toAdapter_eq_ok.2
        (Checked.require_eq_ok.2 hvalid))).trans ?_
      change (r.result utc revision).coherent.toAdapter >>= (fun _ => pure (r.result utc revision)) = _
      rw [hcoherent, ← hwithin]
      rcases r.withinBounds with _ | _ <;> rfl
  · -- no other text is looked at when a longitude leaves the circle
    have hwithin : ¬ r.withinBounds = true := by
      rw [Reading.withinBounds, Bool.and_eq_true]
      exact fun h => hcircle h.1
    rw [if_neg hcircle] at hpositions
    rw [hpositions]
    rcases requireRevision s.revisionFile with _ | revision
    · rfl
    · exact (if_neg hwithin).symm

end Result

/-! ## The printed line -/

/-- The line of a reading is within the limit of the output file. -/
theorem size_printed_le {r : Reading} {year : ℕ}
    (hlimitations : r.limitations = EphemerisResult.expectedLimitations year)
    (hsidereal : ∀ s, r.sidereal = some s → s.Accepted r.positions.2) :
    (utf8 ((PlainJson.obj r.members).print ++ ['\n'])).size ≤ 8192 := by
  have hquote : ∀ x : Binary64, (quote x.hex).length ≤ 194 := by
    intro x
    have := length_quote_le x.hex
    have := length_hex_le x
    omega
  have hfinite : ∀ x : Finite64, (quote x.hex).length ≤ 194 := fun x => hquote (.finite x)
  have htexts : ((PlainJson.arr (r.limitations.map textOf)).print).length ≤ 200 := by
    rw [hlimitations, EphemerisResult.expectedLimitations]
    split_ifs <;> exact Nat.le_of_ble_eq_true rfl
  have hpositions : (PlainJson.arr [.str r.positions.1.hex, .str r.positions.2.hex]).print.length ≤
      400 := by
    have := hfinite r.positions.1
    have := hfinite r.positions.2
    simp only [PlainJson.print, printItems, List.length_cons, List.length_append, List.length_nil]
    omega
  have hstr : ∀ x : Binary64, (PlainJson.str x.hex).print.length ≤ 194 := hquote
  have hfiniteStr : ∀ x : Finite64, (PlainJson.str x.hex).print.length ≤ 194 := hfinite
  have hkeys : (quote "positions".toList).length = 11 ∧ (quote "jd_tt_hex".toList).length = 11 ∧
      (quote "jd_ut1_hex".toList).length = 12 ∧ (quote "limitations".toList).length = 13 ∧
      (quote "lahiri".toList).length = 8 := by decide
  -- the sidereal object, if there is one, is the longest member
  have hextension : ∀ s, r.sidereal = some s → (PlainJson.obj s.members).print.length ≤ 600 := by
    intro s hs
    obtain ⟨hrequested, hreturned, hflags, -, -, -⟩ := hsidereal s hs
    have hnames : (quote "moon_binary64".toList).length = 15 ∧
        (quote "ayanamsha_binary64".toList).length = 20 ∧
        (quote "requested_flags".toList).length = 17 ∧ (quote "returned_flags".toList).length = 16 ∧
        (quote "ayanamsha_flags".toList).length = 17 := by decide
    have hints : (PlainJson.int 65538).print.length = 5 ∧ (PlainJson.int 65602).print.length = 5 ∧
        (PlainJson.int 2).print.length = 1 := ⟨rfl, rfl, rfl⟩
    have hmoon := hfiniteStr s.moon
    have haya := hfiniteStr s.ayanamsha
    refine (length_print_obj_le _).trans ?_
    simp only [SiderealReading.members, hrequested, hreturned, hflags, List.map_cons, List.map_nil,
      List.sum_cons, List.sum_nil, memberLength, hnames, hints]
    omega
  have htt := hstr r.jdTt
  have hut1 := hstr r.jdUt1
  have hline : (PlainJson.obj r.members).print.length ≤ 2000 := by
    refine (length_print_obj_le _).trans ?_
    rcases hs : r.sidereal with _ | s
    · simp only [Reading.members, hs, List.append_nil, List.map_cons, List.map_nil, List.sum_cons,
        List.sum_nil, memberLength, hkeys]
      omega
    · have := hextension s hs
      simp only [Reading.members, hs, List.cons_append, List.nil_append, List.map_cons,
        List.map_nil, List.sum_cons, List.sum_nil, memberLength, hkeys]
      omega
  refine (size_utf8_le _).trans ?_
  rw [List.length_append, List.length_singleton]
  omega

/-- The failure that a report of the process stands for. -/
def WorkerRaise.category : WorkerRaise → EphemerisFailure
  | .failure text =>
    (EphemerisFailure.all.find? fun c => decide ((StageError.ephemeris c).value = text)).getD
      .nativeFailure
  | .other => .nativeFailure

theorem category_value (c : EphemerisFailure) :
    (WorkerRaise.failure (StageError.ephemeris c).value).category = c := by
  cases c <;> rfl

theorem ofValue_value (c : EphemerisFailure) :
    EphemerisFailure.ofValue (pyStr (StageError.ephemeris c).value.toList) = .ok c := by
  cases c <;> rfl

/-- The member of a reported failure, as the adapter has it. -/
def reportToPy (text : String) : PyValue := .dict [(pyKey "error", pyStr text.toList)]

theorem raiseReported_report (c : EphemerisFailure) :
    raiseReported (reportToPy (StageError.ephemeris c).value) = .error (.ephemeris c) := by
  have hkeys : ∀ v : PyValue, hasKeys [(pyKey "error", v)] ["error"] = true := fun v => by
    simp [hasKeys]
  simp only [raiseReported, reportToPy, hkeys, if_true]
  refine (bind_of_eq_ok (a := pyStr (StageError.ephemeris c).value.toList) rfl).trans ?_
  exact (bind_of_eq_ok (ofValue_value c)).trans rfl

/-- A report is read back in both of its spellings, and it is short. -/
theorem printed_report {e : WorkerRaise} (h : Known e) :
    (utf8 (printed (.error e) ++ ['\n'])).size ≤ 8192 ∧
      jsonLoads (utf8 (printed (.error e) ++ ['\n'])) =
        some (reportToPy (StageError.ephemeris e.category).value) := by
  have hnewline : skipSpace ['\n'] = [] := rfl
  have hdistinct : ∀ text : String,
      (PlainJson.obj [("error".toList, textOf text)]).DistinctKeys := fun _ =>
    ⟨by simp, trivial, trivial⟩
  have hmembers : ∀ text : String,
      (PlainJson.obj [("error".toList, textOf text)]).toPy = reportToPy text := by
    intro text
    simp only [PlainJson.toPy, membersToPy, textOf]
    rfl
  rcases e with text | _
  · obtain ⟨c, rfl⟩ := h
    have hread := jsonLoads_printSpaced hnewline (hdistinct (StageError.ephemeris c).value)
    rw [hmembers] at hread
    rw [category_value, printed]
    refine ⟨?_, hread⟩
    cases c <;> exact Nat.le_of_ble_eq_true rfl
  · have hread := jsonLoads_print_obj hnewline (hdistinct "native_failure")
    rw [hmembers] at hread
    exact ⟨Nat.le_of_ble_eq_true rfl, hread⟩

/-! ## The exchange -/

section Exchange

variable {σ : Type}

/-- The adapter with the process of `worker.py` behind it, which runs to its end. -/
def SwissEphemeris.isolated (r : WorkerRuntime σ)
    (fromIsoFormat : List CodePoint → Option PyDateTime) (revisionFile : Option String) :
    SwissEphemeris where
  worker checked lahiri :=
    .exited 0 (utf8 (Worker.main r fromIsoFormat (requestText checked.utc.naive lahiri)))
  loads := jsonLoads
  revisionFile

/-- How a call ends whose `run` ends so. -/
def answer (revisionFile : Option String) (utc : NaiveDateTime) :
    Except WorkerRaise Reading → Except AdapterRaise (EphemerisResult × List (PyKey × PyValue))
  | .error e => .error (.ephemeris e.category)
  | .ok found =>
    match requireRevision revisionFile with
    | some revision =>
      if found.withinBounds = true then .ok (found.result utc revision, found.extension)
      else .error .valueError
    | none => .error .valueError

theorem answer_eq_ok {revisionFile : Option String} {utc : NaiveDateTime}
    {x : Except WorkerRaise Reading} {p : EphemerisResult × List (PyKey × PyValue)} :
    answer revisionFile utc x = .ok p ↔ ∃ found revision, x = .ok found ∧
      requireRevision revisionFile = some revision ∧ found.withinBounds = true ∧
      p = (found.result utc revision, found.extension) := by
  constructor
  · intro h
    rcases x with e | found
    · cases h
    · simp only [answer] at h
      split at h
      · next revision hrevision =>
          split at h
          · next hwithin =>
              cases h
              exact ⟨found, revision, rfl, hrevision, hwithin, rfl⟩
          · cases h
      · cases h
  · rintro ⟨found, revision, rfl, hrevision, hwithin, rfl⟩
    simp only [answer, hrevision, hwithin, if_true]

variable {fromIsoFormat : List CodePoint → Option PyDateTime}

/-- What the worker prints for a request is the line of what `run` finds. -/
theorem main_requestText (r : WorkerRuntime σ) (h : ReadsInstants fromIsoFormat)
    (utc : NaiveDateTime) (lahiri : Bool) :
    Worker.main r fromIsoFormat (requestText utc lahiri) = printed (Worker.run r utc lahiri) ++ ['\n'] := by
  rw [Worker.main, bind_of_eq_ok (readRequest_requestText h utc lahiri)]

/-- An attempt over the process ends as its `run` does. -/
theorem attempt_isolated (r : WorkerRuntime σ) (h : ReadsInstants fromIsoFormat)
    (revisionFile : Option String) {utc : NaiveDateTime} (hutc : supportedUtc utc = true)
    (lahiri : Bool) :
    (SwissEphemeris.isolated r fromIsoFormat revisionFile).attempt ⟨.utc utc⟩ lahiri =
      answer revisionFile utc (Worker.run r utc lahiri) := by
  have hmain := main_requestText r h utc lahiri
  have hworker : (SwissEphemeris.isolated r fromIsoFormat revisionFile).worker ⟨.utc utc⟩ lahiri =
      .exited 0 (utf8 (printed (Worker.run r utc lahiri) ++ ['\n'])) := by rw [← hmain]; rfl
  rw [SwissEphemeris.attempt, hworker]
  rcases hrun : Worker.run r utc lahiri with e | found
  -- the worker reports a failure
  · obtain ⟨hsize, hloads⟩ := printed_report (known_run r utc lahiri e hrun)
    refine (bind_of_eq_ok (encoded_exited hsize)).trans ?_
    have hvalue : (Checked.ofOption (jsonLoads (utf8 (printed (.error e) ++ ['\n'])))).toAdapter =
        .ok (reportToPy (StageError.ephemeris e.category).value) := by
      rw [hloads]
      rfl
    refine (bind_of_eq_ok hvalue).trans ?_
    rw [raiseReported_report]
    rfl
  -- the worker prints a sky
  · have hlimitations := run_limitations hrun
    have hsize := size_printed_le hlimitations fun s hs => run_accepted hrun hs
    refine (bind_of_eq_ok (encoded_exited hsize)).trans ?_
    have hvalue : (Checked.ofOption (jsonLoads (utf8 (printed (.ok found) ++ ['\n'])))).toAdapter =
        .ok (.dict found.toPy) := by
      have hread := @jsonLoads_print_obj found.members ['\n'] rfl found.distinctKeys_members
      rw [found.toPy_members] at hread
      exact Checked.toAdapter_eq_ok.2 (Checked.ofOption_eq_ok.2 hread)
    refine (bind_of_eq_ok hvalue).trans ?_
    refine (bind_of_eq_ok found.raiseReported_toPy).trans ?_
    have hextension := found.takeExtension_toPy
    rw [run_sidereal hrun] at hextension
    refine (bind_of_eq_ok hextension).trans ?_
    refine (bind_of_eq_ok (a := found.extension) rfl).trans ?_
    rw [result_tropicalToPy hlimitations hutc]
    show _ = answer revisionFile utc (.ok found)
    unfold answer
    simp only [SwissEphemeris.isolated]
    rcases requireRevision revisionFile with _ | revision
    · rfl
    · rcases found.withinBounds with _ | _ <;> rfl

theorem supportedUtc_of_make {utc : PyDateTime} {checked : EphemerisRequest}
    (h : EphemerisRequest.make utc = .ok checked) :
    checked = ⟨.utc utc.naive⟩ ∧ supportedUtc utc.naive = true := by
  unfold EphemerisRequest.make at h
  split at h
  · next hutc =>
      cases h
      exact ⟨rfl, hutc.2.2⟩
  · cases h

/-- **The process boundary does not show.** For every date-time, in both modes, at every state of
    the capacity and whatever the native library does, a call of the adapter ends as a call of `run`
    in its own process would, and gives its slot back. Each failure arrives as itself and each float
    unrounded; a result is refused for its longitudes, its Julian dates or the revision file, never
    for its size, its syntax, its keys or its limitations. -/
theorem run_isolated (r : WorkerRuntime σ) (h : ReadsInstants fromIsoFormat)
    (revisionFile : Option String) (lahiri : Bool) (capacity : BoundedSemaphore 2)
    (utc : PyDateTime) :
    (SwissEphemeris.isolated r fromIsoFormat revisionFile).run lahiri capacity ⟨utc⟩ =
      (match EphemerisRequest.make utc with
        | .ok checked =>
          if capacity.value = 0 then .error (.stage (.ephemeris .busy))
          else (answer revisionFile checked.utc.naive
            (Worker.run r checked.utc.naive lahiri)).mapError AdapterRaise.handled
        | _ => .error (.stage (.ephemeris .invalidInput)), capacity) := by
  rcases hmake : EphemerisRequest.make utc with checked | _ | e
  · obtain ⟨rfl, hsupported⟩ := supportedUtc_of_make hmake
    -- no slot, or one that is given back
    rcases hacquire : capacity.tryAcquire with _ | taken
    · have hfree := BoundedSemaphore.tryAcquire_eq_none.1 hacquire
      simp only [SwissEphemeris.run, hmake, hacquire, hfree, if_true]
    · have hfree : ¬ capacity.value = 0 := fun hzero => by
        rw [BoundedSemaphore.tryAcquire_eq_none.2 hzero] at hacquire
        cases hacquire
      simp only [SwissEphemeris.run, hmake, hacquire, hfree, if_false,
        BoundedSemaphore.release_of_tryAcquire hacquire,
        attempt_isolated r h revisionFile hsupported lahiri]
      rfl
  · simp only [SwissEphemeris.run, hmake]
  · simp only [SwissEphemeris.run, hmake]

end Exchange

/-! ## A process that answers -/

/-- `datetime.fromisoformat`, of the texts that the adapter writes. -/
def readInstant (s : List CodePoint) : Option PyDateTime :=
  (scalars? s).bind fun text => (instantFromIso text).map PyDateTime.utc

theorem readsInstants_readInstant : ReadsInstants readInstant := by
  intro d
  rw [readInstant, scalars?_map_scalar, Option.bind_some, instantFromIso_isoInstant,
    Option.map_some]

/-- A library whose Sun and Moon stay where longitudes begin, and which counts its calls. -/
def stillLibrary : Swe ℕ where
  version := "2.10.03"
  setEphePath _ := modify (· + 1)
  setTidAcc := modify (· + 1)
  setDeltaTUserdef := modify (· + 1)
  julday date hour := do
    modify (· + 1)
    pure (.ofRat (date.dayNumber + 1721424 + 1 / 2 + hour / 24))
  deltatEx _ _ := do
    modify (· + 1)
    pure (.ofRat (64 / 86400), "")
  setSidMode := modify (· + 1)
  calcAt _ _ flags := do
    modify (· + 1)
    pure (List.replicate 6 (.finite (.zero false)),
      if flags = flgSwieph then (flags : ℤ) else (flags ||| flgNonut : ℕ), "")
  getAyanamsaEx _ flags := do
    modify (· + 1)
    pure (flags, .finite (.zero false))
  getCurrentFileData index := do
    modify (· + 1)
    pure ⟨"/run/" ++ if index = 0 then "sepl_18.se1" else "semo_18.se1", .ofRat 2378480,
      .ofRat 2597640, 441⟩
  close := modify (· + 1)

/-- A process on the supported platform, its extension a file of the expected size. -/
def stillRuntime : WorkerRuntime ℕ where
  system := "Linux"
  machine := "x86_64"
  implementation := "CPython"
  version := "3.12.14"
  pysweph := some "2.10.3.6"
  origin := some "/usr/lib/swisseph.so"
  read _ := some ⟨Array.replicate binarySize 0⟩
  sha256 _ := binarySha256
  swisseph := some stillLibrary
  state := 0
  directory := "/run"

theorem afternoon_isSome : (CivilDate.mk? 2020 4 4).isSome = true := by decide

theorem halfPast_isSome : (ClockTime.mk? 15 30 0 0).isSome = true := by decide

/-- Half past three of an afternoon in 2020. -/
def halfPastThree : NaiveDateTime := ⟨.of 2020 4 4 afternoon_isSome, .of 15 30 0 0 halfPast_isSome⟩

theorem library_stillRuntime : library stillRuntime = .ok stillLibrary := by
  have hextract : (ByteArray.mk (Array.replicate binarySize 0)).extract 0 (binarySize + 1) =
      ⟨Array.replicate binarySize 0⟩ := by
    have := @ByteArray.extract_zero_max_size ⟨Array.replicate binarySize 0⟩ (binarySize + 1)
    rwa [max_eq_left (by simp [ByteArray.size])] at this
  have hsize : (ByteArray.mk (Array.replicate binarySize 0)).size = binarySize := by
    simp [ByteArray.size]
  have hfile : ¬((ByteArray.mk (Array.replicate binarySize 0)).size ≠ binarySize ∨
      binarySha256 ≠ binarySha256) := by simp [hsize]
  refine (bind_of_eq_ok (a := ()) rfl).trans ?_
  refine (bind_of_eq_ok (a := "2.10.3.6") rfl).trans ?_
  refine (bind_of_eq_ok (a := ()) rfl).trans ?_
  refine (bind_of_eq_ok (a := ByteArray.mk (Array.replicate binarySize 0)) rfl).trans ?_
  simp only [stillRuntime, hextract]
  refine (bind_of_eq_ok (a := ()) (if_neg hfile)).trans ?_
  refine (bind_of_eq_ok (a := stillLibrary) rfl).trans ?_
  rfl

theorem requireRevision_pinned : requireRevision (some "18a3776bc1ab1dc52212b4de48a0df36709d72d2") =
    some "18a3776bc1ab1dc52212b4de48a0df36709d72d2" := by decide

/-- The process finds a reading within the bounds, in both modes, and both sidereal angles at
    zero. -/
theorem run_stillRuntime (lahiri : Bool) :
    ∃ found, Worker.run stillRuntime halfPastThree lahiri = .ok found ∧ found.withinBounds = true ∧
      ∀ s, found.sidereal = some s → s.moon = .zero false ∧ s.ayanamsha = .zero false := by
  have hreading : ∀ lahiri : Bool, ((reading stillLibrary "/run" halfPastThree lahiri 0).toOption.any
      fun p => p.1.withinBounds && p.1.sidereal.all fun s =>
        decide (s.moon = .zero false ∧ s.ayanamsha = .zero false)) = true := by decide +kernel
  rcases hfound : reading stillLibrary "/run" halfPastThree lahiri 0 with e | ⟨found, t⟩
  · have hnone := hreading lahiri
    rw [hfound] at hnone
    cases hnone
  · have hboth := hreading lahiri
    rw [hfound] at hboth
    obtain ⟨hwithin, hangles⟩ := Bool.and_eq_true_iff.1 hboth
    refine ⟨found, ?_, hwithin, fun s hs => ?_⟩
    · refine (bind_of_eq_ok library_stillRuntime).trans ?_
      exact (bind_of_eq_ok hfound).trans rfl
    · rw [hs, Option.all_some, decide_eq_true_eq] at hangles
      exact hangles

/-- The adapter returns what the process found, the extension with it. -/
theorem run_isolated_still : ∃ found, Worker.run stillRuntime halfPastThree true = .ok found ∧
    (SwissEphemeris.isolated stillRuntime readInstant
        (some "18a3776bc1ab1dc52212b4de48a0df36709d72d2")).run true (.new 2) ⟨.utc halfPastThree⟩ =
      (.ok (found.result halfPastThree "18a3776bc1ab1dc52212b4de48a0df36709d72d2", found.extension),
        .new 2) := by
  obtain ⟨found, hrun, hwithin, -⟩ := run_stillRuntime true
  refine ⟨found, hrun, ?_⟩
  have hmake : EphemerisRequest.make (.utc halfPastThree) = .ok ⟨.utc halfPastThree⟩ :=
    if_pos ⟨rfl, rfl, by decide⟩
  have hanswer : answer (some "18a3776bc1ab1dc52212b4de48a0df36709d72d2") halfPastThree
      (Worker.run stillRuntime halfPastThree true) =
        .ok (found.result halfPastThree "18a3776bc1ab1dc52212b4de48a0df36709d72d2",
          found.extension) :=
    answer_eq_ok.2 ⟨found, _, hrun, requireRevision_pinned, hwithin, rfl⟩
  have hcall := run_isolated stillRuntime readsInstants_readInstant
    (some "18a3776bc1ab1dc52212b4de48a0df36709d72d2") true (.new 2) (.utc halfPastThree)
  rw [hmake] at hcall
  refine hcall.trans ?_
  simp only [BoundedSemaphore.value_new, OfNat.ofNat_ne_zero, if_false]
  exact congrArg (fun x => (Except.mapError AdapterRaise.handled x, BoundedSemaphore.new 2)) hanswer

end AstroPassport
