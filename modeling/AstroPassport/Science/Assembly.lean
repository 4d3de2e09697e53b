import AstroPassport.Science.Pipeline

set_option autoImplicit false

/-! # The stages assemble into a passport

What the stages return, once each has succeeded, is a response: the raw longitudes and their
decimals pass the wire models (`bodyDocument_valid`), so do the ephemeris provenance, the civil
record and the boundary, and what `coherent` derives again from the document is what the stages
derived (`passportResponse_coherent`). With that the whole calculation returns
(`calculate_of_stages`).

The source writes a document from the results of the stages and validates it from scratch, so
nothing is passed along but values, and each part has to be accepted by the model that reads it. For
each stage there is the property its own model has given its result (`EphemerisResult.Accepted`,
`ResolvedFor`), and from that the value the wire model reads back (`provenanceV1`, `civilInput`,
`civilFact`). The response is put together from these, and the document is its dump
(`passportDocument_response`). The last section has a request in Sydney and a sky that stands still,
which go through all of it. -/

namespace AstroPassport

/-! ## Longitudes -/

/-- A number of the form of the wire pattern: its degrees have no leading zero and are below 360. -/
theorem isDegrees_numeralDigits {n : ℕ} (h : n < 360) : isDegrees (numeralDigits n) = true := by
  have hall : ∀ n < 360, isDegrees (numeralDigits n) = true := by decide +kernel
  exact hall n h

/-- The nine-place text of a number of the circle has the wire pattern and denotes the number. -/
theorem fixedText_wire {d : PyDecimal} {n : ℕ} (hn : n < 360 * 10 ^ 9) (hneg : d.neg = false)
    (hmagnitude : d.magnitude = n * 10 ^ (-((9 : ℕ) : ℤ))) :
    isDegreesText (d.fixedText 9) = true ∧
      ∃ parts, readDecimal (d.fixedText 9) = some parts ∧
        (PyDecimal.ofParts parts).value = n * 10 ^ (-((9 : ℕ) : ℤ)) := by
  obtain ⟨fraction, hread, hlength, hvalue⟩ := @readDecimal_fixed 9 n (by norm_num)
  have hscaled := PyDecimal.scaledMagnitude_of_eq hmagnitude
  have htext : d.fixedText 9 = numeral (n / 10 ^ 9) ++ '.' :: padded 9 (n % 10 ^ 9) := by
    rw [PyDecimal.fixedText, hscaled, hneg]
    rfl
  have hdegrees := isDegrees_numeralDigits (n := n / 10 ^ 9) (by omega)
  rw [htext, isDegreesText, hread]
  refine ⟨?_, _, rfl, ?_⟩
  · simp only [hdegrees, hlength, Bool.not_false, Bool.and_self, beq_self_eq_true]
  · show ((fromDigits (numeralDigits (n / 10 ^ 9) ++ fraction) : ℕ) : ℚ) *
      10 ^ (-((fraction.length : ℕ) : ℤ)) = _
    rw [hvalue, hlength]

/-- The text of a longitude that a nine-place number of the circle equals. -/
theorem degreesText_wire {d : PyDecimal} {n : ℕ} (hn : n < 360 * 10 ^ 9)
    (hvalue : d.value = n * 10 ^ (-((9 : ℕ) : ℤ))) :
    isDegreesText (degreesText d) = true ∧
      ∃ parts, readDecimal (degreesText d) = some parts ∧
        (PyDecimal.ofParts parts).value = d.value := by
  rw [hvalue]
  unfold degreesText
  -- zero is printed without its sign
  by_cases hzero : d.coeff = 0
  · have hd : d.value = 0 := by simp [PyDecimal.value, PyDecimal.magnitude, hzero]
    have hn0 : n = 0 := by
      rw [hd] at hvalue
      have hpow : (10 : ℚ) ^ (-((9 : ℕ) : ℤ)) ≠ 0 := by positivity
      exact_mod_cast (mul_eq_zero.mp hvalue.symm).resolve_right hpow
    subst hn0
    rw [if_pos hzero]
    exact fixedText_wire (by norm_num) rfl (by simp [PyDecimal.magnitude])
  · have hpos : 0 < d.magnitude := by
      have : 0 < d.coeff := Nat.pos_of_ne_zero hzero
      unfold PyDecimal.magnitude
      positivity
    -- the value is not negative and not zero
    have hneg : d.neg = false := by
      by_contra h
      rw [PyDecimal.value, if_pos (by simpa using h)] at hvalue
      have : (0 : ℚ) ≤ n * 10 ^ (-((9 : ℕ) : ℤ)) := by positivity
      linarith
    rw [if_neg hzero]
    refine fixedText_wire hn hneg ?_
    rw [← hvalue, PyDecimal.value, hneg]
    rfl

/-- What a longitude that passes its own validator is: the canonical text of a binary64 of the
    circle, and a decimal equal to a nine-place number below 360. -/
theorem BodyLongitude.spec {p : BodyLongitude} (h : p.modelValidate = .ok ()) :
    p.binary64Hex.length ≤ 32 ∧ ∃ x : Finite64, ∃ projected : PyDecimal, ∃ n : ℕ,
      Binary64.fromHex p.binary64Hex.toList = .ok (.finite x) ∧ x.hex = p.binary64Hex.toList ∧
      (0 ≤ x.value ∧ x.value < 360) ∧ longitudeDecimal (.finite x) = .ok projected ∧
      projected.value = p.longitude.value ∧ n < 360 * 10 ^ 9 ∧
      p.longitude.value = n * 10 ^ (-((9 : ℕ) : ℤ)) := by
  simp only [modelValidate, exactProjection, Checked.bind_eq_ok, Checked.require_eq_ok,
    Bool.and_eq_true, decide_eq_true_eq] at h
  obtain ⟨-, ⟨⟨⟨hrange, -⟩, -⟩, hlength⟩, raw, hraw, -, hhex, projected, hprojected, hvalue⟩ := h
  refine ⟨hlength, ?_⟩
  have hcircle : raw.onCircle = true := by
    simp only [longitudeDecimal, Checked.bind_eq_ok, Checked.require_eq_ok] at hprojected
    exact hprojected.choose_spec.1
  cases raw with
  | finite x =>
      have hx : 0 ≤ x.value ∧ x.value < 360 := of_decide_eq_true hcircle
      refine ⟨x, projected, x.toDecimal.scaledMagnitude 9 % (360 * 10 ^ 9), hraw, hhex, hx,
        hprojected, hvalue, Nat.mod_lt _ (by norm_num), ?_⟩
      rw [longitudeDecimal_finite hx, Checked.ok.injEq] at hprojected
      rw [← hvalue, ← hprojected]
      rcases hsign : x.neg with _ | _
      · rfl
      · -- a negative binary64 of the circle is the negative zero
        have hnonpos : p.longitude.value ≤ 0 := by
          rw [← hvalue, ← hprojected, PyDecimal.value, hsign]
          have := PyDecimal.magnitude_nonneg
            ⟨true, x.toDecimal.scaledMagnitude 9 % (360 * 10 ^ 9), -9⟩
          simp only [if_true]
          linarith
        have hzero : p.longitude.value = 0 := le_antisymm hnonpos hrange.1
        rw [← hvalue, ← hprojected, PyDecimal.value, hsign] at hzero
        simp only [if_true, neg_eq_zero] at hzero
        rw [PyDecimal.value, if_pos rfl, hzero]
        exact neg_zero.trans hzero.symm
  | inf _ => cases hcircle
  | nan => cases hcircle

/-- A body of the document passes the wire model of its longitude. -/
theorem bodyDocument_valid {p : BodyLongitude} (h : p.modelValidate = .ok ()) :
    (Longitude.model p.body.name).valid
      ⟨p.binary64Hex, String.ofList (degreesText p.longitude)⟩ = true := by
  obtain ⟨hlength, x, projected, n, hread, hhex, hx, hprojected, hvalue, hn, hnine⟩ := BodyLongitude.spec h
  obtain ⟨htext, parts, hparts, hdecimal⟩ := degreesText_wire hn hnine
  have hlong := x.length_hex_ge
  rw [hhex, String.length_toList] at hlong
  have hcircle : (Binary64.finite x).onCircle = true := decide_eq_true hx
  simp only [Longitude.model, Longitude.fields, Codec.after_valid, Codec.object_valid,
    Fields.literal_valid, Fields.field_valid, Fields.done_valid, sized, Codec.text_valid,
    Bool.and_true, Bool.and_eq_true, decide_eq_true_eq, String.toList_ofList]
  refine ⟨⟨⟨hlong, hlength⟩, htext⟩, ?_⟩
  simp only [Longitude.representation, hread, Checked.ok_bind, hcircle, Binary64.hex, hhex,
    decide_true, Bool.and_self, plainDecimal, String.toList_ofList, hparts, Option.map_some,
    Checked.require, if_true, Checked.ofOption, hprojected, hdecimal, hvalue]

/-! ## The provenance -/

/-- What a result that passes its own validator is. -/
structure EphemerisResult.Accepted (r : EphemerisResult) : Prop where
  sun : r.positions.1.modelValidate = .ok ()
  moon : r.positions.2.modelValidate = .ok ()
  order : r.positions.1.body = .sun ∧ r.positions.2.body = .moon
  limitations : r.limitations = expectedLimitations r.utc.naive.date.year
  jdTt : julianDate r.jdTtHex = .ok () ∧ r.jdTtHex.length ≤ 32
  jdUt1 : julianDate r.jdUt1Hex = .ok () ∧ r.jdUt1Hex.length ≤ 32
  provenance : r.provenance.valid = true

theorem EphemerisResult.accepted {r a : EphemerisResult} (h : r.modelValidate = .ok a) :
    a = r ∧ r.Accepted := by
  simp only [modelValidate, coherent, validFields, Checked.bind_eq_ok, Checked.whenever_eq_ok,
    Checked.both_eq_ok, Checked.require_eq_ok, Bool.and_eq_true, decide_eq_true_eq, pure,
    Checked.ok.injEq] at h
  obtain ⟨_, ⟨⟨hsun, hmoon⟩, ⟨⟨⟨hlengthTt, hlengthUt1⟩, -⟩, -⟩, hprovenance⟩, _,
    ⟨-, -, _, hlimitations, _, horder, _, hjdTt, hjdUt1⟩, rfl⟩ := h
  exact ⟨rfl, hsun, hmoon, horder, hlimitations, ⟨hjdTt, hlengthTt⟩, ⟨hjdUt1, hlengthUt1⟩,
    hprovenance⟩

/-- A Julian date in hexadecimal passes the wire model, which bounds its length below as well. -/
theorem finiteHex_valid {text : String} (h : julianDate text = .ok ()) (hlength : text.length ≤ 32) :
    ProvenanceV1.finiteHex.valid text = true := by
  simp only [ProvenanceV1.finiteHex, Codec.after_valid, sized, Codec.text_valid, decide_eq_true_eq]
  refine ⟨⟨?_, hlength⟩, h⟩
  obtain ⟨value, -, hvalue⟩ := Checked.bind_eq_ok.1 h
  cases value with
  | finite x =>
      simp only [Checked.require_eq_ok, Bool.and_eq_true, decide_eq_true_eq] at hvalue
      have hlong := x.length_hex_ge
      rwa [hvalue.1, String.length_toList] at hlong
  | inf _ => cases hvalue
  | nan => cases hvalue

/-- The provenance of the response. -/
def EphemerisResult.provenanceV1 (r : EphemerisResult) : ProvenanceV1 where
  sourceRevision := r.provenance.sourceRevision
  binarySha256 := r.provenance.binarySha256
  bindingSourceSha256 := r.provenance.bindingSourceSha256
  planetDataSha256 := r.provenance.planetDataSha256
  moonDataSha256 := r.provenance.moonDataSha256
  ttJdBinary64 := r.jdTtHex
  ut1JdBinary64 := r.jdUt1Hex
  limitations := r.limitations

theorem EphemerisResult.Accepted.provenanceV1_valid {r : EphemerisResult} (h : r.Accepted) :
    ProvenanceV1.model.valid r.provenanceV1 = true := by
  have hlimitations : 1 ≤ r.limitations.length ∧ r.limitations.length ≤ 2 := by
    rw [h.limitations, expectedLimitations]
    split_ifs <;> decide
  have hprovenance := h.provenance
  simp only [EphemerisProvenance.valid, Bool.and_eq_true] at hprovenance
  obtain ⟨⟨⟨⟨hbinary, hbinding⟩, hplanet⟩, hmoon⟩, hrevision⟩ := hprovenance
  simp only [ProvenanceV1.model, ProvenanceV1.fields, Codec.object_valid, Fields.literal_valid,
    Fields.field_valid, Fields.constant_valid, Fields.done_valid, digest, Codec.text_valid,
    Codec.strings_valid, Codec.intLiteral_valid, EphemerisResult.provenanceV1, hrevision, hbinary,
    hbinding, hplanet, hmoon, finiteHex_valid h.jdTt.1 h.jdTt.2, finiteHex_valid h.jdUt1.1 h.jdUt1.2,
    decide_eq_true hlimitations]
  rfl

/-- The provenance of the document has the members of its model, in the order of the dump. -/
theorem EphemerisResult.Accepted.provenanceDocument_decode {r : EphemerisResult} (h : r.Accepted) :
    ProvenanceV1.model.decode (.obj (provenanceDocument r)) = .ok r.provenanceV1 := by
  refine Codec.object_decode (ProvenanceV1.fields.decode_of_lookup h.provenanceV1_valid ?_) ?_
  · repeat refine List.forall_mem_cons.mpr ⟨rfl, ?_⟩
    exact List.forall_mem_nil _
  · repeat refine List.forall_mem_cons.mpr ⟨List.mem_of_elem_eq_true rfl, ?_⟩
    exact List.forall_mem_nil _

/-! ## The civil part -/

/-- What a record that `resolve` returns for a raw input and a boundary is. -/
structure ResolvedFor (raw : RawBirthInput) (boundary : TimezoneBoundaryResult)
    (foldChoice : Option ℤ) (civil : ResolvedCivilTime) (utc : NaiveDateTime) : Prop where
  registered : validateRegisteredBoundaryFact boundary = some boundary
  boundary : boundary.status = .resolved
  date_eq : civil.localDate = raw.date
  fold_eq : civil.foldChoice = foldChoice
  utc_eq : civil.utc = .utc utc
  year : 1900 ≤ civil.localDate.year ∧ civil.localDate.year ≤ 2100
  foldChoice : validFoldChoice foldChoice = true
  sum : utc.addSeconds civil.offsetSeconds = some civil.localDateTime
  valid : civil.modelValidate = .ok civil

theorem resolvedFor_of_resolve {r : PinnedCivilTimeResolver} {raw : RawBirthInput}
    {boundary : TimezoneBoundaryResult} {foldChoice : Option ℤ} {civil : ResolvedCivilTime}
    (h : r.resolve raw boundary foldChoice = .ok civil) :
    ∃ utc, ResolvedFor raw boundary foldChoice civil utc := by
  obtain ⟨hfold, checked, source, file, candidates, utc, hsources, hfile, -, -, hcivil⟩ :=
    resolve_eq_ok.1 h
  obtain ⟨hraw, hsource, hyear⟩ := checkSources_eq_ok hsources
  obtain ⟨hdate, -, -⟩ := RawBirthInput.modelValidate_eq_ok hraw
  obtain ⟨rfl, -⟩ := validateRegisteredBoundaryFact_eq_some.1 hsource
  obtain ⟨hstatus, -⟩ := PinnedCivilTimeResolver.zoneFile_eq_ok hfile
  obtain ⟨rfl, -, -, shifted, hshifted, hcoherent⟩ := ResolvedCivilTime.modelValidate_eq_ok.1 hcivil
  simp only [ResolvedCivilTime.coherentWith, Bool.and_eq_true, decide_eq_true_eq] at hcoherent
  obtain ⟨⟨rfl, -⟩, -⟩ := hcoherent
  exact ⟨utc, hsource, hstatus, hdate, rfl, rfl, hyear, hfold, hshifted, hcivil⟩

/-- No date is both before the records and after the release of the rules. -/
theorem length_limitationsFor (date : CivilDate) :
    1 ≤ (limitationsFor date).length ∧ (limitationsFor date).length ≤ 2 := by
  have horder : recordsBegin.dayNumber < rulesReleased.dayNumber := by decide
  unfold limitationsFor
  split_ifs
  · omega
  all_goals decide

section Civil

variable {raw : RawBirthInput} {boundary : TimezoneBoundaryResult} {foldChoice : Option ℤ}
  {civil : ResolvedCivilTime} {utc : NaiveDateTime}

/-- The civil input of the response. -/
def ResolvedCivilTime.civilInput (civil : ResolvedCivilTime) : CivilInput where
  date := String.ofList (isoDate civil.localDate)
  time := String.ofList (isoTime civil.localTime.clock)
  fold := civil.foldChoice

/-- The civil fact of the response. -/
def ResolvedCivilTime.civilFact (civil : ResolvedCivilTime) : CivilFact where
  utc := String.ofList (isoUtc civil.utc.naive)
  offsetSeconds := civil.offsetSeconds
  resolution := civil.resolution
  fold := civil.foldChoice
  provenance := civil.provenance
  limitations := civil.limitations

/-- What is known of the fields of an accepted record. -/
theorem ResolvedFor.fields (h : ResolvedFor raw boundary foldChoice civil utc) :
    (-86400 < civil.offsetSeconds ∧ civil.offsetSeconds < 86400) ∧ civil.provenance.valid = true ∧
      ((civil.resolution == .unique) == civil.foldChoice.isNone) = true ∧
      civil.limitations = limitationsFor civil.localDate := by
  obtain ⟨-, hfields, -, shifted, -, hcoherent⟩ := ResolvedCivilTime.modelValidate_eq_ok.1 h.valid
  simp only [ResolvedCivilTime.validFields, Bool.and_eq_true, decide_eq_true_eq] at hfields
  simp only [ResolvedCivilTime.coherentWith, Bool.and_eq_true, decide_eq_true_eq] at hcoherent
  exact ⟨hfields.1.1.2, hfields.2, hcoherent.1.2, hcoherent.2⟩

theorem ResolvedFor.fold_valid (h : ResolvedFor raw boundary foldChoice civil utc) :
    foldModel.valid civil.foldChoice = true := by
  have hfold := h.foldChoice
  rw [h.fold_eq]
  exact hfold

theorem ResolvedFor.civilInput_valid (h : ResolvedFor raw boundary foldChoice civil utc) :
    CivilInput.model.valid civil.civilInput = true := by
  simp only [CivilInput.model, CivilInput.fields, Codec.after_valid, Codec.object_valid,
    Fields.field_valid, Fields.done_valid, Codec.text_valid, ResolvedCivilTime.civilInput,
    String.toList_ofList, isDateText_isoDate, isClockText_isoTime, h.fold_valid, CivilInput.validClock,
    dateFromIso_isoDate, clockFromIso_isoTime, Checked.ofOption, Checked.ok_bind,
    Checked.require_eq_ok, decide_eq_true h.year, Bool.and_self, and_self]

theorem ResolvedFor.civilFact_valid (h : ResolvedFor raw boundary foldChoice civil utc) :
    CivilFact.model.valid civil.civilFact = true := by
  obtain ⟨hoffset, hprovenance, hresolution, hlimitations⟩ := h.fields
  have hlength := length_limitationsFor civil.localDate
  rw [← hlimitations] at hlength
  have hdigests := CivilTimeProvenance.model_valid hprovenance
  have hchoice : Resolution.model.valid civil.resolution = true := rfl
  simp only [CivilFact.model, CivilFact.fields, Codec.after_valid, Codec.object_valid,
    Fields.literal_valid, Fields.field_valid, Fields.done_valid, Codec.text_valid,
    Codec.integer_valid, Codec.strings_valid, ResolvedCivilTime.civilFact, String.toList_ofList,
    isUtcText_isoUtc, decide_eq_true hoffset, hchoice, h.fold_valid, hdigests,
    decide_eq_true hlength, CivilFact.coherent, utcFromIso_isoUtc, Checked.ofOption,
    Checked.ok_bind, Checked.require_eq_ok, hresolution, Bool.and_self, and_self]

/-- The boundary fact of the response. -/
theorem ResolvedFor.boundaryFact_valid (h : ResolvedFor raw boundary foldChoice civil utc) :
    ∃ tzid, boundary.tzid = some tzid ∧
      BoundaryFact.model.valid ⟨tzid, boundary.provenance⟩ = true := by
  obtain ⟨-, hvalid, hpinned, hnames⟩ := validateRegisteredBoundaryFact_eq_some.1 h.registered
  obtain ⟨tzid, htzid, hlength⟩ := TimezoneBoundaryResult.tzid_of_resolved hvalid h.boundary
  have hregistered : tzid ∈ registeredZoneIds := hnames tzid (by
    simp [TimezoneBoundaryResult.namedIds, htzid])
  have hprovenance : boundary.provenance.valid = true := by
    simp only [TimezoneBoundaryResult.valid, Bool.and_eq_true] at hvalid
    exact hvalid.1.1.1.2
  exact ⟨tzid, htzid, BoundaryFact.model_valid hlength hregistered
    (BoundaryProvenance.model_valid hprovenance hpinned)⟩

end Civil

/-! ## The response -/

section Response

variable {place : SelectedPlace} {raw : RawBirthInput} {boundary : TimezoneBoundaryResult}
  {foldChoice : Option ℤ} {civil : ResolvedCivilTime} {utc : NaiveDateTime}
  {astronomy : EphemerisResult} {tzid : String}

/-- The longitude of a body in the response. -/
def BodyLongitude.wire (p : BodyLongitude) : Longitude :=
  ⟨p.binary64Hex, String.ofList (degreesText p.longitude)⟩

/-- The response the document is read as. -/
def passportResponse (place : SelectedPlace) (boundary : TimezoneBoundaryResult) (tzid : String)
    (civil : ResolvedCivilTime) (astronomy : EphemerisResult) : AstroPassportResponseV1 where
  selectedPlace := place
  civilInput := civil.civilInput
  boundary := ⟨tzid, boundary.provenance⟩
  civil := civil.civilFact
  bodies := (astronomy.positions.1.wire, astronomy.positions.2.wire)
  provenance := astronomy.provenanceV1

/-- What the response derives again is what the stages derived. -/
theorem passportResponse_coherent (h : ResolvedFor raw boundary foldChoice civil utc)
    (ha : astronomy.Accepted) (hutc : astronomy.utc.naive = civil.utc.naive) :
    (passportResponse place boundary tzid civil astronomy).coherent = .ok () := by
  obtain ⟨-, -, -, hlimitations⟩ := h.fields
  have hcivil : AstroPassportResponseV1.civilFromIso civil.civilInput = some civil.localDateTime := by
    simp [AstroPassportResponseV1.civilFromIso, ResolvedCivilTime.civilInput,
      ResolvedCivilTime.localDateTime]
  have hread : utcFromIso civil.civilFact.utc.toList = some utc := by
    simp [ResolvedCivilTime.civilFact, h.utc_eq, PyDateTime.utc]
  have hastronomy : astronomy.limitations =
      AstroPassportResponseV1.expectedLimitations utc.date.year := by
    rw [ha.limitations, hutc, h.utc_eq]
    rfl
  simp only [AstroPassportResponseV1.coherent, passportResponse, hcivil, hread, Checked.ofOption,
    Checked.ok_bind]
  simp only [ResolvedCivilTime.civilFact, h.sum, Checked.orOverflow, Checked.ok_bind,
    String.toList_ofList, EphemerisResult.provenanceV1, hastronomy, hlimitations, decide_true, Checked.require, if_true,
    ResolvedCivilTime.civilInput, ResolvedCivilTime.localDateTime]

theorem optionalInt_eq (n : Option ℤ) : optionalInt n = foldModel.encode n := by
  cases n <;> rfl

theorem civilInputDocument_eq (civil : ResolvedCivilTime) :
    civilInputDocument civil = CivilInput.model.encode civil.civilInput := by
  rw [civilInputDocument, optionalInt_eq]
  rfl

theorem civilDocument_eq (civil : ResolvedCivilTime) :
    civilDocument civil = CivilFact.model.encode civil.civilFact := by
  rw [civilDocument, optionalInt_eq]
  rfl

theorem boundaryDocument_eq (h : boundary.tzid = some tzid) :
    boundaryDocument boundary = BoundaryFact.model.encode ⟨tzid, boundary.provenance⟩ := by
  rw [boundaryDocument, h]
  rfl

/-- The bodies of the document, in the order the validator of the result requires. -/
theorem bodies_decode (ha : astronomy.Accepted) :
    (Codec.pair (Longitude.model "sun") (Longitude.model "moon")).decode
        (.arr [bodyDocument astronomy.positions.1, bodyDocument astronomy.positions.2]) =
      .ok (astronomy.positions.1.wire, astronomy.positions.2.wire) := by
  have hsun := bodyDocument_valid ha.sun
  have hmoon := bodyDocument_valid ha.moon
  have hnames : astronomy.positions.1.body.name = "sun" ∧
      astronomy.positions.2.body.name = "moon" := by
    rw [ha.order.1, ha.order.2]
    exact ⟨rfl, rfl⟩
  rw [hnames.1] at hsun
  rw [hnames.2] at hmoon
  have hencode : JsonValue.arr [bodyDocument astronomy.positions.1,
      bodyDocument astronomy.positions.2] =
      (Codec.pair (Longitude.model "sun") (Longitude.model "moon")).encode
        (astronomy.positions.1.wire, astronomy.positions.2.wire) := by
    rw [bodyDocument, bodyDocument, hnames.1, hnames.2]
    rfl
  rw [hencode]
  apply Codec.decode_encode
  rw [Codec.pair_valid, Bool.and_eq_true]
  exact ⟨hsun, hmoon⟩

/-- The document is read as the response. -/
theorem passportDocument_response (hplace : SelectedPlace.model.valid place = true)
    (h : ResolvedFor raw boundary foldChoice civil utc) (ha : astronomy.Accepted)
    (hutc : astronomy.utc.naive = civil.utc.naive) :
    ∃ tzid, AstroPassportResponseV1.model.decode
      (passportDocument place boundary civil astronomy) =
        .ok (passportResponse place boundary tzid civil astronomy) := by
  obtain ⟨tzid, htzid, hboundary⟩ := h.boundaryFact_valid
  have hcivilInput := CivilInput.model.decode_encode h.civilInput_valid
  have hcivil := CivilFact.model.decode_encode h.civilFact_valid
  have hfact := BoundaryFact.model.decode_encode hboundary
  rw [← civilInputDocument_eq] at hcivilInput
  rw [← civilDocument_eq] at hcivil
  rw [← boundaryDocument_eq htzid] at hfact
  refine ⟨tzid, ?_⟩
  refine Codec.after_decode (Codec.object_decode ?_ ?_) (passportResponse_coherent h ha hutc)
  · exact Fields.literal_decode rfl <| Fields.literal_decode rfl <| Fields.literal_decode rfl <|
      Fields.field_decode rfl (SelectedPlace.model.decode_encode hplace) <|
      Fields.field_decode rfl hcivilInput <| Fields.field_decode rfl hfact <|
      Fields.field_decode rfl hcivil <| Fields.field_decode rfl (bodies_decode ha) <|
      Fields.field_decode rfl ha.provenanceDocument_decode <|
      Fields.literal_decode rfl <| Fields.literal_decode rfl rfl
  · repeat refine List.forall_mem_cons.mpr ⟨List.mem_of_elem_eq_true rfl, ?_⟩
    exact List.forall_mem_nil _

theorem passportDocument_decode (hplace : SelectedPlace.model.valid place = true)
    (h : ResolvedFor raw boundary foldChoice civil utc) (ha : astronomy.Accepted)
    (hutc : astronomy.utc.naive = civil.utc.naive) :
    ∃ response, AstroPassportResponseV1.model.decode
      (passportDocument place boundary civil astronomy) = .ok response := by
  obtain ⟨tzid, hresponse⟩ := passportDocument_response hplace h ha hutc
  exact ⟨_, hresponse⟩

end Response

/-! ## The calculation succeeds when its stages do -/

/-- The instant of a resolved record is inside the window of the ephemeris. -/
theorem ResolvedFor.ephemerisRequest {raw : RawBirthInput} {boundary : TimezoneBoundaryResult}
    {foldChoice : Option ℤ} {civil : ResolvedCivilTime} {utc : NaiveDateTime}
    (h : ResolvedFor raw boundary foldChoice civil utc) :
    EphemerisRequest.make civil.utc = .ok ⟨civil.utc⟩ := by
  obtain ⟨hoffset, -, -, -⟩ := h.fields
  have hsupported := supportedUtc_of_local h.sum h.year hoffset
  rw [h.utc_eq]
  exact if_pos ⟨rfl, rfl, hsupported⟩

theorem rawInput_modelValidate (date : CivilDate) (time : ClockTime) :
    RawBirthInput.modelValidate ⟨date, .naive time, "selected"⟩ =
      .ok ⟨date, .naive time, "selected"⟩ := by
  have htrim : RawBirthInput.trimPlaceQuery "selected" = some "selected" := by decide
  simp only [RawBirthInput.modelValidate, htrim]
  rfl

/-- A valid request has a date and a clock time, which are its raw input. -/
theorem exists_rawInput {v : CivilInput} (h : CivilInput.model.valid v = true) :
    ∃ raw, v.rawInput = some raw ∧ raw.modelValidate = .ok raw := by
  obtain ⟨-, hclock⟩ := Codec.after_valid.1 h
  simp only [CivilInput.validClock, Checked.bind_eq_ok, Checked.ofOption_eq_ok] at hclock
  obtain ⟨date, hdate, time, htime, -⟩ := hclock
  refine ⟨⟨date, .naive time, "selected"⟩, ?_, rawInput_modelValidate date time⟩
  simp only [CivilInput.rawInput, hdate, htime, Option.bind_eq_bind, Option.bind_some]

theorem SelectedPlace.coordinates_of_valid {p : SelectedPlace} (h : SelectedPlace.model.valid p = true) :
    p.coordinates = .ok ⟨p.latitude, p.longitude⟩ := by
  obtain ⟨hfields, -⟩ := Codec.after_valid.1 h
  simp only [fields, Codec.object_valid, Fields.literal_valid, Fields.field_valid,
    Codec.number_valid, Bool.and_eq_true] at hfields
  obtain ⟨-, -, -, hlatitude, hlongitude, -⟩ := hfields
  simp only [coordinates, Checked.whenever, GeographicCoordinates.valid, hlatitude, hlongitude,
    Bool.and_self, if_true]

/-- The natal facts of a result that passes its own validator, for its own instant. -/
theorem natalFacts_of_accepted {captured : EphemerisRequest} {astronomy : EphemerisResult}
    (h : astronomy.modelValidate = .ok astronomy)
    (hutc : astronomy.utc.naive = captured.utc.naive) :
    natalFacts captured astronomy = .ok astronomy := by
  have htwice : (astronomy.modelValidate >>= EphemerisResult.modelValidate) = .ok astronomy :=
    Checked.bind_eq_ok.2 ⟨astronomy, h, h⟩
  unfold natalFacts
  rw [htwice]
  exact if_pos hutc

/-- Once the stages of a valid request have succeeded, the calculation does: the instant is inside
    the window of the ephemeris and the document passes the response model. -/
theorem calculate_of_stages (s : PassportScience) (request : AstroPassportRequestV1)
    (hrequest : AstroPassportRequestV1.model.valid request = true) :
    ∃ raw, request.civil.rawInput = some raw ∧
      ∀ boundary civil astronomy,
        s.boundaries ⟨request.selectedPlace.latitude, request.selectedPlace.longitude⟩ =
          .ok boundary →
        s.civil.resolve raw boundary request.civil.fold = .ok civil →
        s.ephemeris ⟨civil.utc⟩ = .ok astronomy →
        astronomy.modelValidate = .ok astronomy →
        astronomy.utc.naive = civil.utc.naive →
        EphemerisRequest.make civil.utc = .ok ⟨civil.utc⟩ ∧
          ∃ response,
            AstroPassportResponseV1.model.decode
              (passportDocument request.selectedPlace boundary civil astronomy) = .ok response ∧
            s.calculate request = .ok response := by
  obtain ⟨hplace, hcivilInput⟩ := AstroPassportRequestV1.valid_iff.1 hrequest
  obtain ⟨raw, hraw, hrawValid⟩ := exists_rawInput hcivilInput
  refine ⟨raw, hraw, fun boundary civil astronomy hboundary hcivil hephemeris hastronomy hutc => ?_⟩
  obtain ⟨utc, h⟩ := resolvedFor_of_resolve hcivil
  obtain ⟨-, ha⟩ := EphemerisResult.accepted hastronomy
  obtain ⟨response, hresponse⟩ := passportDocument_decode hplace h ha hutc
  refine ⟨h.ephemerisRequest, response, hresponse, ?_⟩
  -- the replay repeats the resolution that gave the record
  have hreplay : s.civil.verifyResult civil = .ok civil :=
    verifyResult_eq_ok.2 ⟨rfl, raw, boundary, request.civil.fold, hcivil⟩
  have hround := AstroPassportRequestV1.model.decode_encode hrequest
  have hnatal : s.natal ⟨civil.utc⟩ = .ok astronomy := by
    simp only [PassportScience.natal, h.ephemerisRequest, hephemeris, bind, Except.bind]
    exact natalFacts_of_accepted hastronomy hutc
  have hresolved : requireResolved boundary = .ok () := by
    simp only [requireResolved, h.boundary]
  -- the eleven steps of `attempt`, in order
  have hattempt : s.attempt request = .ok response := by
    refine bind_eq_ok.2 ⟨request, congrArg Checked.toPassport hround, ?_⟩
    refine bind_eq_ok.2 ⟨_, congrArg Checked.toPassport (SelectedPlace.coordinates_of_valid hplace), ?_⟩
    refine bind_eq_ok.2 ⟨boundary, hboundary, ?_⟩
    refine bind_eq_ok.2 ⟨(), hresolved, ?_⟩
    refine bind_eq_ok.2 ⟨raw, congrArg (fun x => (Checked.ofOption x).toPassport) hraw, ?_⟩
    refine bind_eq_ok.2 ⟨raw, congrArg (Except.mapError CivilRaise.toPassport) hrawValid, ?_⟩
    refine bind_eq_ok.2 ⟨civil, congrArg (Except.mapError CivilRaise.toPassport) hcivil, ?_⟩
    refine bind_eq_ok.2 ⟨civil, congrArg (Except.mapError CivilRaise.toPassport) hreplay, ?_⟩
    refine bind_eq_ok.2 ⟨_, congrArg Checked.toPassport h.ephemerisRequest, ?_⟩
    refine bind_eq_ok.2 ⟨astronomy, hnatal, ?_⟩
    exact congrArg Checked.toPassport hresponse
  exact congrArg (Except.mapError PassportRaise.asScienceFailure) hattempt

/-! ## A passport -/

/-- An ephemeris that finds the Sun and the Moon where longitudes begin, the Moon at the negative
    zero. -/
def stillSky (request : EphemerisRequest) : EphemerisResult where
  utc := request.utc
  positions := (⟨.sun, ⟨false, 0, 0⟩, "0x0.0p+0"⟩, ⟨.moon, ⟨true, 0, -9⟩, "-0x0.0p+0"⟩)
  jdTtHex := "0x1.2b42c80000000p+21"
  jdUt1Hex := "0x1.2b42c80000000p+21"
  limitations := EphemerisResult.expectedLimitations request.utc.naive.date.year
  provenance := ⟨tzdataSha256, tzdataSha256, tzdataSha256, tzdataSha256,
    "18a3776bc1ab1dc52212b4de48a0df36709d72d2"⟩

/-- The limitations of a year pass the checks of their field. -/
theorem EphemerisResult.expectedLimitations_valid (year : ℕ) :
    (expectedLimitations year).all (fun l => decide (l ∈ astronomicalLimitations)) = true ∧
      1 ≤ (expectedLimitations year).length ∧ (expectedLimitations year).length ≤ 2 := by
  unfold expectedLimitations
  split_ifs <;> decide

theorem stillSky_modelValidate {request : EphemerisRequest}
    (h : EphemerisRequest.make request.utc = .ok request) :
    (stillSky request).modelValidate = .ok (stillSky request) := by
  have hsun : BodyLongitude.modelValidate ⟨.sun, ⟨false, 0, 0⟩, "0x0.0p+0"⟩ = .ok () := by
    decide +kernel
  have hmoon : BodyLongitude.modelValidate ⟨.moon, ⟨true, 0, -9⟩, "-0x0.0p+0"⟩ = .ok () := by
    decide +kernel
  have hjulian : julianDate "0x1.2b42c80000000p+21" = .ok () := by decide +kernel
  have hfields : (stillSky request).validFields = true := by
    have hprovenance : EphemerisProvenance.valid ⟨tzdataSha256, tzdataSha256, tzdataSha256,
        tzdataSha256, "18a3776bc1ab1dc52212b4de48a0df36709d72d2"⟩ = true := by decide
    have hjd : "0x1.2b42c80000000p+21".length ≤ 32 := by decide
    obtain ⟨hall, hlength⟩ :=
      EphemerisResult.expectedLimitations_valid request.utc.naive.date.year
    simp only [EphemerisResult.validFields, Bool.and_eq_true, decide_eq_true_eq]
    exact ⟨⟨⟨⟨hjd, hjd⟩, hall⟩, hlength⟩, hprovenance⟩
  have hcoherent : (stillSky request).coherent = .ok () := by
    simp only [EphemerisResult.coherent, stillSky, h, Checked.ok_bind, hjulian, Checked.require,
      decide_true, and_self, if_true]
  exact Checked.bind_eq_ok.2 ⟨((), ()),
    Checked.whenever_eq_ok.2 ⟨Checked.both_eq_ok.2 ⟨hsun, hmoon⟩, hfields⟩,
    Checked.bind_eq_ok.2 ⟨(), hcoherent, rfl⟩⟩

/-- A request for the half past two that Sydney's clocks showed twice. -/
def sydneyRequest : AstroPassportRequestV1 where
  selectedPlace := ⟨"openstreetmap", "1", "Sydney", .ofRat (-34), .ofRat 151, none, "Sydney", 1, 0, 1⟩
  civil := ⟨"2020-04-05", "02:30", some 0⟩

theorem sydneyRequest_valid : AstroPassportRequestV1.model.valid sydneyRequest = true := by
  decide +kernel

theorem sydneyRequest_rawInput : sydneyRequest.civil.rawInput =
    some ⟨halfPastTwo.date, .naive halfPastTwo.time, "selected"⟩ := by decide

/-- The earlier of the two instants of that half past two. -/
def sydneyUtc : NaiveDateTime := ⟨.of 2020 4 4 (by decide), .of 15 30 0 0 (by decide)⟩

theorem sydney_resolve : ∃ civil,
    PinnedCivilTimeResolver.resolve ⟨fun _ => some sydneyFile, fun _ _ => rfl⟩
      ⟨halfPastTwo.date, .naive halfPastTwo.time, "selected"⟩ sydneyFact (some 0) = .ok civil ∧
      civil.utc = .utc sydneyUtc := by
  obtain ⟨civil, utc, hcivil, hutc, hmicros⟩ := resolve_sydneyZone sydney_resolvable
  have hsame : sydneyUtc.micros = halfPastTwo.micros - 39600000000 := by decide
  rw [NaiveDateTime.micros_injective (hmicros.trans hsame.symm)] at hutc
  exact ⟨civil, hcivil, hutc⟩

theorem calculate_of_stages_sydney : ∃ response,
    PassportScience.calculate ⟨fun _ => .ok sydneyFact, ⟨fun _ => some sydneyFile, fun _ _ => rfl⟩,
      fun request => .ok (stillSky request)⟩ sydneyRequest = .ok response := by
  obtain ⟨raw, hraw, hall⟩ := calculate_of_stages ⟨fun _ => .ok sydneyFact,
    ⟨fun _ => some sydneyFile, fun _ _ => rfl⟩, fun request => .ok (stillSky request)⟩ sydneyRequest
    sydneyRequest_valid
  rw [sydneyRequest_rawInput, Option.some.injEq] at hraw
  subst hraw
  obtain ⟨civil, hcivil, -⟩ := sydney_resolve
  obtain ⟨utc, h⟩ := resolvedFor_of_resolve hcivil
  have hsky := @stillSky_modelValidate ⟨civil.utc⟩ h.ephemerisRequest
  obtain ⟨-, response, -, hresponse⟩ := hall sydneyFact civil (stillSky ⟨civil.utc⟩) rfl hcivil rfl
    hsky rfl
  exact ⟨response, hresponse⟩

end AstroPassport
