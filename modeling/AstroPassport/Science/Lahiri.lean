import AstroPassport.Canonical.LahiriContent
import AstroPassport.Lib.Json.Model
import AstroPassport.Science.Rendering
import AstroPassport.Science.Tropical

set_option autoImplicit false

/-! # How a Lahiri calculation ends

`PassportScience._lahiri`: a tropical passport, the worker asked again for the same instant, and a
response made of the passport and of the extension the worker added. The shape of the extension is
looked at, its values are not before they are used, outside of any `try`; and what the worker
printed is asked for its extension before it is known to be an object. `lahiri_controlled_iff` says
which outputs get past both.

An ending is controlled when it is a response or an exception that the service has a status for. The
first call is the tropical calculation, which always ends so. Of the second call the output must be
something that has `pop` (`poppable`) before anything is read from it, and of the extension it is
said exactly when it makes a response (`AcceptableExtension`) and that otherwise something escapes
(`lahiriResponse_raises`). A worker that prints `null` is one whose output is not controlled. -/

namespace AstroPassport

/-! ## The code -/

/-- The keys that `set(raw)` is compared with. -/
def extensionKeys : List String :=
  ["moon_binary64", "ayanamsha_binary64", "requested_flags", "returned_flags", "ayanamsha_flags"]

/-- `raw[name]`. -/
def extensionItem (raw : List (PyKey × PyValue)) (name : String) : Except PassportRaise PyValue :=
  match raw.lookup (pyKey name) with
  | some v => .ok v
  | none => .error .keyError

/-- The members `angle` returns for a hexadecimal and its text. -/
def angleMembers (hex text : List Char) : List (String × JsonValue) :=
  [("binary64_hex", .str (String.ofList hex)), ("decimal_degrees", .str (String.ofList text))]

/-- `angle`. -/
def angle : PyValue → Except PassportRaise (List (String × JsonValue))
  | .str s =>
    match scalars? s with
    | some hex => do
      let text ← (angleText hex).toPassport
      pure (angleMembers hex text)
    | none => .error .valueError
  | _ => .error .typeError

/-- `"sidereal"` of the document. -/
def siderealDocument (requested returned ayanamshaFlags : JsonValue)
    (ayanamsha moon : List (String × JsonValue)) : JsonValue :=
  .obj [("schema_version", .str "LahiriMoonFact.v1-mvp"),
    ("system", .str "lahiri"),
    ("swiss_sidereal_mode", .int 1),
    ("policy", .str "swiss-lahiri-apparent-moon.v1-mvp"),
    ("numerical_policy", .str "binary64-to-decimal-9dp-half-even.v1"),
    ("requested_flags", requested),
    ("returned_flags", returned),
    ("ayanamsha_flags", ayanamshaFlags),
    ("ayanamsha_kind", .str "true-including-nutation"),
    ("ayanamsha", .obj ayanamsha),
    ("moon", .obj (("body", .str "moon") :: moon))]

/-- The document that `_lahiri` gives to `LahiriResponse.model_validate_json`. -/
def lahiriDocument (tropical : AstroPassportResponseV1) (sidereal : JsonValue) : JsonValue :=
  .obj [("schema_version", .str "AstroPassportLahiriResponse.v1-mvp"),
    ("contract_version", .str "1.0.0"),
    ("profile", .str "sun-moon-lahiri.v1-mvp"),
    ("tropical", AstroPassportResponseV1.model.encode tropical),
    ("sidereal", sidereal),
    ("serialization", .str "astro-passport-lahiri-json.v1-mvp"),
    ("authenticity", .str "unsigned-direct-client-only")]

/-- `_lahiri` after its checks. -/
def lahiriResponse (tropical : AstroPassportResponseV1) (raw : List (PyKey × PyValue)) :
    Except PassportRaise LahiriResponse := do
  let requested ← extensionItem raw "requested_flags"
  let returned ← extensionItem raw "returned_flags"
  let ayanamshaFlags ← extensionItem raw "ayanamsha_flags"
  let ayanamsha ← extensionItem raw "ayanamsha_binary64"
  let ayanamsha ← angle ayanamsha
  let moon ← extensionItem raw "moon_binary64"
  let moon ← angle moon
  let requested ← (Checked.ofOption requested.toJson?).toPassport
  let returned ← (Checked.ofOption returned.toJson?).toPassport
  let ayanamshaFlags ← (Checked.ofOption ayanamshaFlags.toJson?).toPassport
  (LahiriResponse.model.decode (lahiriDocument tropical
    (siderealDocument requested returned ayanamshaFlags ayanamsha moon))).toPassport

/-- The positions and the Julian date of the second answer are those of the passport. -/
def sameAstronomy (astronomy : EphemerisResult) (tropical : AstroPassportResponseV1) : Bool :=
  decide (astronomy.positions.1.binary64Hex = tropical.bodies.1.binary64Hex) &&
    decide (astronomy.positions.2.binary64Hex = tropical.bodies.2.binary64Hex) &&
    decide (astronomy.jdTtHex = tropical.provenance.ttJdBinary64)

/-- `raise ScienceFailure("invalid_result")` unless a condition holds. -/
def requireResult (p : Bool) : Except PassportRaise Unit :=
  if p then .ok () else .error (.scienceFailure .invalidResult)

/-- `except EphemerisError` of `_lahiri`. -/
def PassportRaise.ephemerisHandled : PassportRaise → PassportRaise
  | .stage (.ephemeris category) => (PassportRaise.stage (.ephemeris category)).asScienceFailure
  | r => r

/-- `_lahiri`, with the states of the native capacity that its second call finds. -/
def PassportScience.lahiri (s : PassportScience) (ephemeris : SwissEphemeris)
    (capacity : BoundedSemaphore 2) (request : LahiriRequest) :
    Except PassportRaise LahiriResponse := do
  let tropicalRequest ← request.tropicalRequest.toPassport
  let tropical ← s.calculate tropicalRequest
  let utc ← (Checked.ofOption (utcFromIso tropical.civil.utc.toList)).toPassport
  let ephemerisRequest ← (EphemerisRequest.make (.utc utc)).toPassport
  let answer ← (ephemeris.calculateLahiri capacity ephemerisRequest).mapError
    PassportRaise.ephemerisHandled
  requireResult (sameAstronomy answer.1 tropical)
  requireResult (hasKeys answer.2 extensionKeys)
  lahiriResponse tropical answer.2

/-! ## Which extensions make a response -/

/-- The hexadecimal of a float of the circle, the negative zero left out. -/
def PlainAngle (hex : List Char) (x : Finite64) : Prop :=
  hex = x.hex ∧ (0 ≤ x.value ∧ x.value < 360) ∧ x.neg = false

/-- The flags of the response model, two plain angles, and the distance of `coherent` within its
    tolerance. -/
structure AcceptableExtension (tropical : AstroPassportResponseV1)
    (raw : List (PyKey × PyValue)) : Prop where
  requested : raw.lookup (pyKey "requested_flags") = some (.int 65538)
  returned : raw.lookup (pyKey "returned_flags") = some (.int 65602)
  ayanamshaFlags : raw.lookup (pyKey "ayanamsha_flags") = some (.int 2)
  angles : ∃ (x y z : Finite64) (ayanamsha moon : List Char),
    tropical.bodies.2.binary64Hex.toList = x.hex ∧
    raw.lookup (pyKey "ayanamsha_binary64") = some (pyStr ayanamsha) ∧ PlainAngle ayanamsha y ∧
    raw.lookup (pyKey "moon_binary64") = some (pyStr moon) ∧ PlainAngle moon z ∧
    LahiriResponse.consistent x.value y.value z.value = true

theorem extensionItem_eq_ok {raw : List (PyKey × PyValue)} {name : String} {v : PyValue} :
    extensionItem raw name = .ok v ↔ raw.lookup (pyKey name) = some v := by
  unfold extensionItem
  split
  · next w hw => rw [hw, Except.ok.injEq, Option.some.injEq]
  · next hnone => simp only [hnone, reduceCtorEq]

theorem angle_eq_ok {v : PyValue} {members : List (String × JsonValue)} :
    angle v = .ok members ↔ ∃ hex text, v = pyStr hex ∧ angleText hex = .ok text ∧
      members = angleMembers hex text := by
  constructor
  · intro h
    unfold angle at h
    split at h
    · next s =>
        split at h
        · next hex hhex =>
            obtain ⟨text, htext, h⟩ := bind_eq_ok.1 h
            cases h
            exact ⟨hex, text, congrArg PyValue.str (map_scalar_of_scalars? hhex).symm,
              Checked.toPassport_eq_ok.1 htext, rfl⟩
        · cases h
    · cases h
  · rintro ⟨hex, text, rfl, htext, rfl⟩
    simp only [pyStr, angle, scalars?_map_scalar, htext]
    rfl

/-- No degrees are written with a sign. -/
theorem isDegreesText_minus (cs : List Char) : isDegreesText ('-' :: cs) = false := by
  simp only [isDegreesText, readDecimal]
  cases readUnsigned cs <;> rfl

theorem angleText_plain {hex : List Char} {x : Finite64} (h : PlainAngle hex x) :
    angleText hex = .ok (billionthsText x.e9) := by
  obtain ⟨rfl, hcircle, hneg⟩ := h
  rw [angleText_hex hcircle, hneg]
  rfl

/-- What passes the check against its float is the float's own hexadecimal. -/
theorem Longitude.finite_of_representation {l : Longitude} (h : l.representation = .ok ()) :
    ∃ x : Finite64, l.binary64Hex.toList = x.hex ∧ 0 ≤ x.value ∧ x.value < 360 := by
  simp only [representation, Checked.bind_eq_ok, Checked.require_eq_ok, Bool.and_eq_true,
    decide_eq_true_eq] at h
  obtain ⟨value, -, _, ⟨hcircle, hhex⟩, -⟩ := h
  rcases value with x | _ | _
  · exact ⟨x, hhex.symm, of_decide_eq_true hcircle⟩
  · cases hcircle
  · cases hcircle

/-- Of the angles whose text `angle` wrote the models take the plain ones. -/
theorem plainAngle_of_representation {hex text : List Char} (hangle : angleText hex = .ok text)
    (hdegrees : isDegreesText text = true)
    (h : Longitude.representation ⟨String.ofList hex, String.ofList text⟩ = .ok ()) :
    ∃ x, PlainAngle hex x := by
  obtain ⟨x, hhex, hcircle⟩ := Longitude.finite_of_representation h
  rw [String.toList_ofList] at hhex
  subst hhex
  refine ⟨x, rfl, hcircle, ?_⟩
  rw [angleText_hex hcircle, Checked.ok.injEq] at hangle
  subst hangle
  by_contra hneg
  rw [Bool.not_eq_false] at hneg
  rw [hneg] at hdegrees
  exact absurd hdegrees (by rw [Bool.not_eq_true]; exact isDegreesText_minus _)

theorem ayanamsha_of_decode {hex text : List Char} {a : Ayanamsha}
    (hangle : angleText hex = .ok text)
    (h : Ayanamsha.model.decode (.obj (angleMembers hex text)) = .ok a) :
    a.binary64Hex = String.ofList hex ∧ ∃ x, PlainAngle hex x := by
  obtain ⟨hmembers, hcheck⟩ := Codec.after_eq_ok.1 h
  obtain ⟨ms, ⟨hex', degrees, _⟩, hms, hread, -, rfl⟩ := Codec.object_eq_ok.1 hmembers
  cases hms
  obtain ⟨hhex, hread⟩ := Fields.field_eq_ok.1 hread
  obtain ⟨hdegrees, -⟩ := Fields.field_eq_ok.1 hread
  obtain ⟨hhex, -⟩ := Codec.member_text_eq_ok.1 hhex
  obtain ⟨hdegrees, hpattern⟩ := Codec.member_text_eq_ok.1 hdegrees
  obtain rfl : String.ofList hex = hex' := JsonValue.str.inj (Option.some.inj hhex)
  obtain rfl : String.ofList text = degrees := JsonValue.str.inj (Option.some.inj hdegrees)
  rw [String.toList_ofList] at hpattern
  exact ⟨rfl, plainAngle_of_representation hangle hpattern hcheck⟩

theorem moon_of_decode {hex text : List Char} {l : Longitude} (hangle : angleText hex = .ok text)
    (h : (Longitude.model "moon").decode (.obj (("body", .str "moon") :: angleMembers hex text)) =
      .ok l) : l.binary64Hex = String.ofList hex ∧ ∃ x, PlainAngle hex x := by
  obtain ⟨hmembers, hcheck⟩ := Codec.after_eq_ok.1 h
  obtain ⟨ms, ⟨hex', degrees, _⟩, hms, hread, -, rfl⟩ := Codec.object_eq_ok.1 hmembers
  cases hms
  obtain ⟨-, hread⟩ := Fields.literal_eq_ok.1 hread
  obtain ⟨hhex, hread⟩ := Fields.field_eq_ok.1 hread
  obtain ⟨hdegrees, -⟩ := Fields.field_eq_ok.1 hread
  obtain ⟨hhex, -⟩ := Codec.member_text_eq_ok.1 hhex
  obtain ⟨hdegrees, hpattern⟩ := Codec.member_text_eq_ok.1 hdegrees
  obtain rfl : String.ofList hex = hex' := JsonValue.str.inj (Option.some.inj hhex)
  obtain rfl : String.ofList text = degrees := JsonValue.str.inj (Option.some.inj hdegrees)
  rw [String.toList_ofList] at hpattern
  exact ⟨rfl, plainAngle_of_representation hangle hpattern hcheck⟩

/-- The Moon of a valid response is a float of the circle. -/
theorem moon_of_valid {v : AstroPassportResponseV1}
    (h : AstroPassportResponseV1.model.valid v = true) :
    ∃ x : Finite64, v.bodies.2.binary64Hex.toList = x.hex := by
  simp only [AstroPassportResponseV1.model, AstroPassportResponseV1.fields, Codec.after_valid,
    Codec.object_valid, Fields.literal_valid, Fields.field_valid, Codec.pair_valid, Longitude.model,
    Bool.and_eq_true] at h
  obtain ⟨⟨-, -, -, -, ⟨-, -, hmoon⟩, -⟩, -⟩ := h
  obtain ⟨x, hx, -⟩ := Longitude.finite_of_representation hmoon
  exact ⟨x, hx⟩

section Extension

variable {tropical : AstroPassportResponseV1} {raw : List (PyKey × PyValue)}

/-- The response of an acceptable extension is the one the document was made for. -/
theorem AcceptableExtension.exists_angles (h : AcceptableExtension tropical raw)
    (htropical : AstroPassportResponseV1.model.valid tropical = true) :
    ∃ r, lahiriResponse tropical raw = .ok r ∧ LahiriResponse.model.valid r = true ∧
      r.tropical = tropical ∧
      raw.lookup (pyKey "ayanamsha_binary64") =
        some (pyStr r.sidereal.ayanamsha.binary64Hex.toList) ∧
      raw.lookup (pyKey "moon_binary64") = some (pyStr r.sidereal.moon.binary64Hex.toList) := by
  obtain ⟨x, y, z, ayanamsha, moon, hx, hayanamsha, hy, hmoon, hz, hconsistent⟩ := h.angles
  have hytext := angleText_plain hy
  have hztext := angleText_plain hz
  obtain ⟨rfl, hycircle, -⟩ := hy
  obtain ⟨rfl, hzcircle, -⟩ := hz
  let r : LahiriResponse :=
    ⟨tropical, ⟨String.ofList y.hex, String.ofList (billionthsText y.e9)⟩,
      ⟨String.ofList z.hex, String.ofList (billionthsText z.e9)⟩⟩
  have hvalid : LahiriResponse.model.valid r = true := by
    have hcoherent : r.coherent = .ok () := by
      simp only [LahiriResponse.coherent, r, hx, String.toList_ofList, fromHex_hex,
        Checked.ok_bind, hconsistent, Checked.require, if_true]
    have hyvalid := ayanamsha_valid hycircle
    have hzvalid := longitude_valid hzcircle "moon"
    simp only [LahiriResponse.model, LahiriResponse.fields, LahiriFact.model, LahiriFact.fields,
      Codec.after_valid, Codec.before_valid, Codec.object_valid, Fields.literal_valid,
      Fields.field_valid, Fields.constant_valid, Codec.intLiteral_valid, Fields.done_valid,
      Bool.and_eq_true, and_true, true_and]
    exact ⟨⟨htropical, hyvalid, hzvalid⟩, hcoherent⟩
  refine ⟨r, ?_, hvalid, rfl, ?_, ?_⟩
  rotate_left
  · rw [hayanamsha]
    simp only [r, String.toList_ofList]
  · rw [hmoon]
    simp only [r, String.toList_ofList]
  have hyangle := angle_eq_ok.2 ⟨_, _, rfl, hytext, rfl⟩
  have hzangle := angle_eq_ok.2 ⟨_, _, rfl, hztext, rfl⟩
  refine bind_eq_ok.2 ⟨_, extensionItem_eq_ok.2 h.requested, ?_⟩
  refine bind_eq_ok.2 ⟨_, extensionItem_eq_ok.2 h.returned, ?_⟩
  refine bind_eq_ok.2 ⟨_, extensionItem_eq_ok.2 h.ayanamshaFlags, ?_⟩
  refine bind_eq_ok.2 ⟨_, extensionItem_eq_ok.2 hayanamsha, ?_⟩
  refine bind_eq_ok.2 ⟨_, hyangle, ?_⟩
  refine bind_eq_ok.2 ⟨_, extensionItem_eq_ok.2 hmoon, ?_⟩
  refine bind_eq_ok.2 ⟨_, hzangle, ?_⟩
  -- the document is the dump of the response
  exact congrArg Checked.toPassport (LahiriResponse.model.decode_encode hvalid)

theorem AcceptableExtension.exists_response (h : AcceptableExtension tropical raw)
    (htropical : AstroPassportResponseV1.model.valid tropical = true) :
    ∃ r, lahiriResponse tropical raw = .ok r ∧ LahiriResponse.model.valid r = true := by
  obtain ⟨r, hr, hvalid, -⟩ := h.exists_angles htropical
  exact ⟨r, hr, hvalid⟩

/-- And no other extension has one. -/
theorem acceptable_of_lahiriResponse {r : LahiriResponse}
    (htropical : AstroPassportResponseV1.model.valid tropical = true)
    (h : lahiriResponse tropical raw = .ok r) : AcceptableExtension tropical raw := by
  simp only [lahiriResponse, bind_eq_ok, Checked.toPassport_eq_ok, Checked.ofOption_eq_ok,
    extensionItem_eq_ok, angle_eq_ok] at h
  obtain ⟨requested, hrequested, returned, hreturned, flags, hflags, ayanamsha, hayanamsha, _,
    ⟨yhex, ytext, rfl, hytext, rfl⟩, moon, hmoon, _, ⟨zhex, ztext, rfl, hztext, rfl⟩, requested',
    hrequested', returned', hreturned', flags', hflags', hdecode⟩ := h
  obtain ⟨hmembers, hcoherent⟩ := Codec.after_eq_ok.1 hdecode
  obtain ⟨ms, ⟨tropical', fact, _⟩, hms, hread, -, rfl⟩ := Codec.object_eq_ok.1 hmembers
  obtain rfl := JsonValue.obj.inj hms
  obtain ⟨-, hread⟩ := Fields.literal_eq_ok.1 hread
  obtain ⟨-, hread⟩ := Fields.literal_eq_ok.1 hread
  obtain ⟨-, hread⟩ := Fields.literal_eq_ok.1 hread
  obtain ⟨hpassport, hread⟩ := Fields.field_eq_ok.1 hread
  obtain ⟨hsidereal, -⟩ := Fields.field_eq_ok.1 hread
  rw [Codec.member_of_lookup rfl] at hpassport hsidereal
  obtain rfl : tropical = tropical' := Checked.ok.inj
    ((AstroPassportResponseV1.model.decode_encode htropical).symm.trans hpassport)
  -- the members of the fact
  obtain ⟨-, hsidereal⟩ := Codec.before_eq_ok.1 hsidereal
  obtain ⟨ms, ⟨ayanamsha, moon, _⟩, hms, hread, -, rfl⟩ := Codec.object_eq_ok.1 hsidereal
  obtain rfl := JsonValue.obj.inj hms
  obtain ⟨-, hread⟩ := Fields.literal_eq_ok.1 hread
  obtain ⟨-, hread⟩ := Fields.literal_eq_ok.1 hread
  obtain ⟨-, hread⟩ := Fields.constant_eq_ok.1 hread
  obtain ⟨-, hread⟩ := Fields.literal_eq_ok.1 hread
  obtain ⟨-, hread⟩ := Fields.literal_eq_ok.1 hread
  obtain ⟨h65538, hread⟩ := Fields.constant_eq_ok.1 hread
  obtain ⟨h65602, hread⟩ := Fields.constant_eq_ok.1 hread
  obtain ⟨h2, hread⟩ := Fields.constant_eq_ok.1 hread
  obtain ⟨-, hread⟩ := Fields.literal_eq_ok.1 hread
  obtain ⟨hydecode, hread⟩ := Fields.field_eq_ok.1 hread
  obtain ⟨hzdecode, -⟩ := Fields.field_eq_ok.1 hread
  rw [Codec.member_intLiteral_eq_ok] at h65538 h65602 h2
  rw [Codec.member_of_lookup rfl] at hydecode hzdecode
  obtain rfl : requested' = .int 65538 := Option.some.inj h65538
  obtain rfl : returned' = .int 65602 := Option.some.inj h65602
  obtain rfl : flags' = .int 2 := Option.some.inj h2
  obtain ⟨hyhex, y, hy⟩ := ayanamsha_of_decode hytext hydecode
  obtain ⟨hzhex, z, hz⟩ := moon_of_decode hztext hzdecode
  refine ⟨toJson?_eq_int.1 hrequested' ▸ hrequested, toJson?_eq_int.1 hreturned' ▸ hreturned,
    toJson?_eq_int.1 hflags' ▸ hflags, ?_⟩
  obtain ⟨x, hx⟩ := moon_of_valid htropical
  refine ⟨x, y, z, yhex, zhex, hx, hayanamsha, hy, hmoon, hz, ?_⟩
  have hyread : ayanamsha.binary64Hex.toList = y.hex := by
    rw [show ayanamsha.binary64Hex = String.ofList yhex from hyhex, String.toList_ofList, hy.1]
  have hzread : moon.binary64Hex.toList = z.hex := by
    rw [show moon.binary64Hex = String.ofList zhex from hzhex, String.toList_ofList, hz.1]
  simp only [LahiriResponse.coherent, hx, hyread, hzread, fromHex_hex, Checked.ok_bind,
    Checked.require_eq_ok] at hcoherent
  exact hcoherent

/-- Nothing that making the response raises is a `ScienceFailure`. -/
theorem lahiriResponse_raises :
    RaisesOnly (fun e => ∀ code, e ≠ .scienceFailure code) (lahiriResponse tropical raw) := by
  have hcheck : ∀ {α : Type} (x : Checked α),
      RaisesOnly (fun e => ∀ code, e ≠ PassportRaise.scienceFailure code) x.toPassport := by
    intro α x
    rcases x with a | _ | e <;> simp [Checked.toPassport]
  have hitem : ∀ name, RaisesOnly (fun e => ∀ code, e ≠ .scienceFailure code)
      (extensionItem raw name) := by
    intro name
    unfold extensionItem
    split <;> simp
  have hangle : ∀ v, RaisesOnly (fun e => ∀ code, e ≠ .scienceFailure code) (angle v) := by
    intro v
    unfold angle
    split
    · split
      · exact .bind (hcheck _) fun _ _ => raisesOnly_ok _
      · simp
    · simp
  exact .bind (hitem _) fun _ _ => .bind (hitem _) fun _ _ => .bind (hitem _) fun _ _ =>
    .bind (hitem _) fun _ _ => .bind (hangle _) fun _ _ => .bind (hitem _) fun _ _ =>
    .bind (hangle _) fun _ _ => .bind (hcheck _) fun _ _ => .bind (hcheck _) fun _ _ =>
    .bind (hcheck _) fun _ _ => hcheck _

end Extension

/-! ## What the second call does -/

/-- The values that have a `pop`. -/
def PyValue.poppable : PyValue → Bool
  | .dict _ => true
  | .list _ => true
  | _ => false

section Attempt

variable {s : SwissEphemeris} {request : EphemerisRequest}

theorem getItem_eq_ok {ms : List (PyKey × PyValue)} {name : String} {v : PyValue} :
    getItem ms name = .ok v ↔ ms.lookup (pyKey name) = some v := by
  unfold getItem
  split
  · next w hw => rw [hw, Except.ok.injEq, Option.some.injEq]
  · next hnone => simp only [hnone, reduceCtorEq]

theorem requireDict_eq_ok {v : PyValue} {ms : List (PyKey × PyValue)} :
    v.requireDict = .ok ms ↔ v = .dict ms := by
  cases v <;> simp [PyValue.requireDict]

/-- Only a value without a `pop` raises what no clause lists. -/
theorem listed_pop {v : PyValue} (h : v.poppable = true) (name : String) :
    RaisesOnly AdapterRaise.Listed (v.pop name) := by
  rcases v with _ | _ | _ | _ | _ | xs | ms
  case list => exact raisesOnly_error.2 listed_typeError
  case dict => exact .bind (listed_getItem ms name) fun _ _ => raisesOnly_ok _
  all_goals cases h

/-- An object with an extension reports no failure. -/
theorem raiseReported_of_lahiri {ms : List (PyKey × PyValue)} {v : PyValue}
    (h : ms.lookup (pyKey "lahiri") = some v) : raiseReported (.dict ms) = .ok () := by
  obtain ⟨pre, post, hms, -⟩ := List.lookup_eq_some_iff.mp h
  have hkeys : hasKeys ms ["error"] = false := by
    have hne : ¬ pyKey "lahiri" = pyKey "error" := by decide
    simp [hasKeys, hms, hne]
  simp [raiseReported, hkeys]

/-- How an attempt for an extension ends, by the value that was printed. -/
theorem attempt_of_loads {stdout : ByteArray} {value : PyValue}
    (hencoded : (s.worker request true).encoded = .ok stdout) (hloads : s.loads stdout = some value) :
    s.attempt request true = raiseReported value >>= fun _ => value.pop "lahiri" >>= fun popped =>
      popped.2.requireDict >>= fun extension => s.result request popped.1 >>= fun result =>
        pure (result, extension) := by
  simp only [SwissEphemeris.attempt, hencoded, PyValue.takeExtension, if_true]
  show (Checked.ofOption (s.loads stdout)).toAdapter >>= _ = _
  rw [hloads]
  rfl

theorem attempt_of_not_poppable {stdout : ByteArray} {value : PyValue}
    (hencoded : (s.worker request true).encoded = .ok stdout) (hloads : s.loads stdout = some value)
    (h : value.poppable = false) : s.attempt request true = .error .attributeError := by
  rw [attempt_of_loads hencoded hloads]
  cases value <;> first | rfl | cases h

theorem attempt_of_dict {stdout : ByteArray} {ms raw : List (PyKey × PyValue)}
    {astronomy : EphemerisResult} (hencoded : (s.worker request true).encoded = .ok stdout)
    (hloads : s.loads stdout = some (.dict ms))
    (hraw : ms.lookup (pyKey "lahiri") = some (.dict raw))
    (hresult : s.result request (.dict (Dict.erase (pyKey "lahiri") ms)) = .ok astronomy) :
    s.attempt request true = .ok (astronomy, raw) := by
  rw [attempt_of_loads hencoded hloads]
  refine bind_eq_ok.2 ⟨(), raiseReported_of_lahiri hraw, ?_⟩
  refine bind_eq_ok.2 ⟨(.dict (Dict.erase (pyKey "lahiri") ms), .dict raw), ?_, ?_⟩
  · exact bind_eq_ok.2 ⟨_, getItem_eq_ok.2 hraw, rfl⟩
  · exact bind_eq_ok.2 ⟨raw, rfl, bind_eq_ok.2 ⟨astronomy, hresult, rfl⟩⟩

/-- What an attempt for an extension returns was printed as an object. -/
theorem attempt_lahiri_eq_ok {raw : List (PyKey × PyValue)} {astronomy : EphemerisResult}
    (h : s.attempt request true = .ok (astronomy, raw)) : ∃ stdout ms,
    (s.worker request true).encoded = .ok stdout ∧ s.loads stdout = some (.dict ms) ∧
      ms.lookup (pyKey "lahiri") = some (.dict raw) ∧
      s.result request (.dict (Dict.erase (pyKey "lahiri") ms)) = .ok astronomy := by
  obtain ⟨stdout, hencoded, h'⟩ := bind_eq_ok.1 h
  obtain ⟨value, hloads, -⟩ := bind_eq_ok.1 h'
  rw [Checked.toAdapter_eq_ok, Checked.ofOption_eq_ok] at hloads
  rw [attempt_of_loads hencoded hloads] at h
  obtain ⟨_, -, h⟩ := bind_eq_ok.1 h
  obtain ⟨popped, hpopped, h⟩ := bind_eq_ok.1 h
  obtain ⟨extension, hextension, h⟩ := bind_eq_ok.1 h
  obtain ⟨result, hresult, h⟩ := bind_eq_ok.1 h
  cases h
  rcases value with _ | _ | _ | _ | _ | xs | ms
  case dict =>
    obtain ⟨member, hmember, hpopped⟩ := bind_eq_ok.1 hpopped
    cases hpopped
    obtain rfl := requireDict_eq_ok.1 hextension
    exact ⟨stdout, ms, hencoded, hloads, getItem_eq_ok.1 hmember, hresult⟩
  all_goals cases hpopped

/-- An attempt for an extension raises what a clause lists, unless a value without a `pop` was
    printed. -/
theorem listed_attempt_lahiri (h : ∀ stdout value, (s.worker request true).encoded = .ok stdout →
    s.loads stdout = some value → value.poppable = true) :
    RaisesOnly AdapterRaise.Listed (s.attempt request true) := by
  refine .bind (listed_encoded _) fun stdout hencoded => .bind (listed_ofOption _) fun value hloads =>
    .bind (listed_raiseReported value) fun _ _ => .bind (listed_pop ?_ _) fun popped _ =>
    .bind (listed_requireDict _) fun _ _ => .bind (listed_result s request _) fun _ _ =>
    raisesOnly_ok _
  rw [Checked.toAdapter_eq_ok, Checked.ofOption_eq_ok] at hloads
  exact h stdout value hencoded hloads

end Attempt

/-! ## The outcome -/

/-- A valid response, or a `ScienceFailure` with a status. -/
def Controlled (x : Except PassportRaise LahiriResponse) : Prop :=
  (∃ r, x = .ok r ∧ LahiriResponse.model.valid r = true) ∨
    ∃ code, x = .error (.scienceFailure code) ∧ (scienceStatus code).isSome = true

/-- A printed value that has a `pop`, and whose extension, once the result around it is accepted as
    that of the passport and its keys are the five, is acceptable. -/
structure UsableOutput (ephemeris : SwissEphemeris) (request : EphemerisRequest)
    (tropical : AstroPassportResponseV1) (value : PyValue) : Prop where
  poppable : value.poppable = true
  extension : ∀ ms raw astronomy, value = .dict ms →
    ms.lookup (pyKey "lahiri") = some (.dict raw) →
    ephemeris.result request (.dict (Dict.erase (pyKey "lahiri") ms)) = .ok astronomy →
    sameAstronomy astronomy tropical = true → hasKeys raw extensionKeys = true →
    AcceptableExtension tropical raw

section Outcome

variable {boundaries : TBBTimezoneBoundaryResolver} {civil : PinnedCivilTimeResolver}
  {ephemeris : SwissEphemeris} {capacity capacity' : BoundedSemaphore 2} {request : LahiriRequest}

theorem controlled_of_hasStatus {e : PassportRaise} {x : Except PassportRaise LahiriResponse}
    (hx : x = .error e.asScienceFailure) (he : e.HasStatus) : Controlled x := by
  obtain ⟨code, hcode, hstatus⟩ := he
  exact .inr ⟨code, hx.trans (congrArg Except.error hcode), hstatus⟩

theorem not_controlled_of_raises {e : PassportRaise} (h : ∀ code, e ≠ .scienceFailure code) :
    ¬ Controlled (.error e) := by
  rintro (⟨r, hr, -⟩ | ⟨code, hcode, -⟩)
  · cases hr
  · exact h code (Except.error.inj hcode)

theorem LahiriRequest.tropicalRequest_of_valid (h : model.valid request = true) :
    request.tropicalRequest = .ok ⟨request.selectedPlace, request.civil⟩ ∧
      AstroPassportRequestV1.model.valid ⟨request.selectedPlace, request.civil⟩ = true := by
  have hvalid : AstroPassportRequestV1.model.valid ⟨request.selectedPlace, request.civil⟩ = true := by
    simp only [model, fields, Codec.object_valid, Fields.literal_valid, Fields.field_valid,
      Fields.done_valid, Bool.and_true, Bool.and_eq_true] at h
    exact AstroPassportRequestV1.valid_iff.2 h
  exact ⟨AstroPassportRequestV1.model.decode_encode hvalid, hvalid⟩

/-- The instant of a valid response is one the ephemeris is asked for. -/
theorem ephemerisRequest_of_valid {v : AstroPassportResponseV1}
    (h : AstroPassportResponseV1.model.valid v = true) :
    ∃ utc, utcFromIso v.civil.utc.toList = some utc ∧
      EphemerisRequest.make (.utc utc) = .ok ⟨.utc utc⟩ := by
  obtain ⟨utc, -, hutc, hsupported⟩ := AstroPassportResponseV1.supportedUtc_of_valid h
  exact ⟨utc, hutc, if_pos ⟨rfl, rfl, hsupported⟩⟩

/-- After the tropical passport the calculation is the second call and what is made of it. -/
theorem lahiri_of_tropical {tropical : AstroPassportResponseV1} {utc : NaiveDateTime}
    {s : PassportScience} (hrequest : LahiriRequest.model.valid request = true)
    (htropical : s.calculate ⟨request.selectedPlace, request.civil⟩ = .ok tropical)
    (hutc : utcFromIso tropical.civil.utc.toList = some utc)
    (hmake : EphemerisRequest.make (.utc utc) = .ok ⟨.utc utc⟩) :
    s.lahiri ephemeris capacity' request =
      (ephemeris.calculateLahiri capacity' ⟨.utc utc⟩).mapError PassportRaise.ephemerisHandled >>=
        fun answer => requireResult (sameAstronomy answer.1 tropical) >>= fun _ =>
          requireResult (hasKeys answer.2 extensionKeys) >>= fun _ =>
            lahiriResponse tropical answer.2 := by
  obtain ⟨hrequest, -⟩ := LahiriRequest.tropicalRequest_of_valid hrequest
  have hread : (Checked.ofOption (utcFromIso tropical.civil.utc.toList)).toPassport = .ok utc := by
    rw [hutc]
    rfl
  have hasked : (EphemerisRequest.make (.utc utc)).toPassport = .ok ⟨.utc utc⟩ := by
    rw [hmake]
    rfl
  refine (bind_of_eq_ok (Checked.toPassport_eq_ok.2 hrequest)).trans ?_
  refine (bind_of_eq_ok htropical).trans ?_
  refine (bind_of_eq_ok hread).trans ?_
  exact bind_of_eq_ok hasked

/-- What is made of an answer is controlled unless it is used where it is not acceptable. -/
theorem controlled_answer_iff {tropical : AstroPassportResponseV1} {astronomy : EphemerisResult}
    {raw : List (PyKey × PyValue)}
    (htropical : AstroPassportResponseV1.model.valid tropical = true) :
    Controlled (requireResult (sameAstronomy astronomy tropical) >>= fun _ =>
        requireResult (hasKeys raw extensionKeys) >>= fun _ => lahiriResponse tropical raw) ↔
      (sameAstronomy astronomy tropical = true → hasKeys raw extensionKeys = true →
        AcceptableExtension tropical raw) := by
  by_cases hsame : sameAstronomy astronomy tropical = true
  · by_cases hkeys : hasKeys raw extensionKeys = true
    · simp only [requireResult, hsame, hkeys, if_true, forall_const]
      show Controlled (lahiriResponse tropical raw) ↔ _
      constructor
      · rintro (⟨r, hr, -⟩ | ⟨code, hcode, -⟩)
        · exact acceptable_of_lahiriResponse htropical hr
        · exact absurd rfl (lahiriResponse_raises _ hcode code)
      · intro h
        exact .inl (h.exists_response htropical)
    · refine iff_of_true ?_ fun _ h => absurd h hkeys
      simp only [requireResult, hsame, hkeys, if_true]
      exact .inr ⟨_, rfl, rfl⟩
  · refine iff_of_true ?_ fun h => absurd h hsame
    simp only [requireResult, hsame]
    exact .inr ⟨_, rfl, rfl⟩

/-- The second call finds a slot, and what it is told is acceptable wherever it is used. -/
def Usable (s : PassportScience) (ephemeris : SwissEphemeris) (capacity : BoundedSemaphore 2)
    (request : LahiriRequest) : Prop :=
  ∀ tropical utc stdout value,
    s.calculate ⟨request.selectedPlace, request.civil⟩ = .ok tropical →
    utcFromIso tropical.civil.utc.toList = some utc → capacity.value ≠ 0 →
    (ephemeris.worker ⟨.utc utc⟩ true).encoded = .ok stdout → ephemeris.loads stdout = some value →
    UsableOutput ephemeris ⟨.utc utc⟩ tropical value

theorem usable_of_controlled {s : PassportScience}
    (hrequest : LahiriRequest.model.valid request = true)
    (h : Controlled (s.lahiri ephemeris capacity' request)) :
    Usable s ephemeris capacity' request := by
  intro tropical utc stdout value htropical hutc hfree hencoded hloads
  have hvalid := calculate_valid htropical
  obtain ⟨utc', hutc', hmake⟩ := ephemerisRequest_of_valid hvalid
  obtain rfl : utc = utc' := Option.some.inj (hutc.symm.trans hutc')
  have hrun := @run_of_free ephemeris ⟨.utc utc⟩ true capacity' hmake hfree
  rw [lahiri_of_tropical hrequest htropical hutc hmake, SwissEphemeris.calculateLahiri, hrun] at h
  have hpoppable : value.poppable = true := by
    by_contra hpop
    rw [attempt_of_not_poppable hencoded hloads (Bool.eq_false_of_not_eq_true hpop)] at h
    exact not_controlled_of_raises (fun code hcode => PassportRaise.noConfusion hcode) h
  refine ⟨hpoppable, fun ms raw astronomy hms hraw hresult => ?_⟩
  subst hms
  rw [attempt_of_dict hencoded hloads hraw hresult] at h
  exact (controlled_answer_iff hvalid).mp h

theorem controlled_of_usable (hrequest : LahiriRequest.model.valid request = true)
    (h : Usable (PassportScience.ofParts boundaries civil ephemeris capacity) ephemeris capacity'
      request) :
    Controlled ((PassportScience.ofParts boundaries civil ephemeris capacity).lahiri ephemeris
      capacity' request) := by
  obtain ⟨htropicalRequest, hpassport⟩ := LahiriRequest.tropicalRequest_of_valid hrequest
  rcases passport_cases boundaries civil ephemeris capacity hpassport with
    ⟨tropical, htropical, hvalid⟩ | ⟨code, hfailure, hstatus⟩
  · obtain ⟨utc, hutc, hmake⟩ := ephemerisRequest_of_valid hvalid
    have husable := fun stdout value => h tropical utc stdout value htropical hutc
    rw [lahiri_of_tropical hrequest htropical hutc hmake, SwissEphemeris.calculateLahiri]
    by_cases hfree : capacity'.value ≠ 0
    · rw [@run_of_free ephemeris ⟨.utc utc⟩ true capacity' hmake hfree]
      have hlisted := @listed_attempt_lahiri ephemeris ⟨.utc utc⟩ fun stdout value hencoded hloads =>
        (husable stdout value hfree hencoded hloads).poppable
      rcases hlisted.cases with ⟨⟨astronomy, raw⟩, hattempt⟩ | ⟨e, hattempt, category, hcategory⟩
      · obtain ⟨stdout, ms, hencoded, hloads, hraw, hresult⟩ := attempt_lahiri_eq_ok hattempt
        rw [hattempt]
        exact (controlled_answer_iff hvalid).mpr
          ((husable stdout _ hfree hencoded hloads).extension ms raw astronomy rfl hraw hresult)
      · rw [hattempt, Except.mapError, hcategory]
        exact controlled_of_hasStatus rfl (hasStatus_stage (.ephemeris category))
    -- no slot: the call ends before the worker runs
    · obtain ⟨category, hrun⟩ := @run_of_not_free ephemeris ⟨.utc utc⟩ true capacity'
        fun hboth => hfree hboth.2
      rw [hrun]
      exact controlled_of_hasStatus rfl (hasStatus_stage (.ephemeris category))
  · right
    refine ⟨code, ?_, hstatus⟩
    refine (bind_of_eq_ok (Checked.toPassport_eq_ok.2 htropicalRequest)).trans ?_
    exact bind_eq_error.2 (.inl hfailure)

end Outcome

/-- **A Lahiri output is controlled exactly when it is usable.** Every call gives its slot back. The
    calculation of a valid request ends in a valid response or in a `ScienceFailure` with a status
    if and only if the value that the worker prints for the extension has a `pop` and its extension,
    where it comes to be used, holds the flags and the angles of a response. -/
theorem lahiri_controlled_iff (boundaries : TBBTimezoneBoundaryResolver)
    (civil : PinnedCivilTimeResolver) (ephemeris : SwissEphemeris)
    (capacity capacity' : BoundedSemaphore 2) {request : LahiriRequest}
    (hrequest : LahiriRequest.model.valid request = true) :
    (∀ ephemerisRequest, (ephemeris.run true capacity' ephemerisRequest).2 = capacity') ∧
    (Controlled ((PassportScience.ofParts boundaries civil ephemeris capacity).lahiri ephemeris
        capacity' request) ↔
      Usable (PassportScience.ofParts boundaries civil ephemeris capacity) ephemeris capacity'
        request) :=
  ⟨run_capacity ephemeris true capacity', usable_of_controlled hrequest,
    controlled_of_usable hrequest⟩

/-! ## An output that is not controlled -/

/-- The Lahiri request for the same place and clock. -/
def sydneyLahiriRequest : LahiriRequest := ⟨sydneyRequest.selectedPlace, sydneyRequest.civil⟩

theorem sydneyLahiriRequest_valid : LahiriRequest.model.valid sydneyLahiriRequest = true := by
  decide +kernel

/-- The service over that worker. -/
def nullScience : PassportScience :=
  .ofParts everywhereSydney ⟨fun _ => some sydneyFile, fun _ _ => rfl⟩ nullWorker (.new 2)

theorem nullScience_calculate : ∃ response, nullScience.calculate sydneyRequest = .ok response := by
  obtain ⟨response, hresponse, -⟩ :=
    sydney_calculate (@nullWorker_calculate ⟨.utc sydneyUtc⟩ (if_pos ⟨rfl, rfl, by decide⟩))
  exact ⟨response, hresponse⟩

/-- `null` has no `pop`, and no clause lists what asking it for one raises. -/
theorem lahiri_null_escapes :
    nullScience.lahiri nullWorker (.new 2) sydneyLahiriRequest = .error .attributeError ∧
      ¬ Controlled (nullScience.lahiri nullWorker (.new 2) sydneyLahiriRequest) := by
  have hnull : nullScience.lahiri nullWorker (.new 2) sydneyLahiriRequest =
      .error .attributeError := by
    obtain ⟨response, hresponse⟩ := nullScience_calculate
    obtain ⟨utc, hutc, hmake⟩ := ephemerisRequest_of_valid (calculate_valid hresponse)
    have hsize : (utf8 PlainJson.null.print).size ≤ 8192 := by decide
    have hencoded : (nullWorker.worker ⟨.utc utc⟩ true).encoded = .ok (utf8 PlainJson.null.print) :=
      encoded_exited hsize
    have hloads : nullWorker.loads (utf8 PlainJson.null.print) = some .none :=
      @jsonLoads_print .null trivial
    have hrun := @run_of_free nullWorker ⟨.utc utc⟩ true (.new 2) hmake (by decide)
    rw [attempt_of_not_poppable hencoded hloads rfl] at hrun
    rw [lahiri_of_tropical sydneyLahiriRequest_valid hresponse hutc hmake,
      SwissEphemeris.calculateLahiri, hrun]
    rfl
  refine ⟨hnull, ?_⟩
  rw [hnull]
  exact not_controlled_of_raises fun code hcode => PassportRaise.noConfusion hcode

theorem lahiri_controlled_iff_null :
    LahiriRequest.model.valid sydneyLahiriRequest = true ∧
    (Controlled (nullScience.lahiri nullWorker (.new 2) sydneyLahiriRequest) ↔
      Usable nullScience nullWorker (.new 2) sydneyLahiriRequest) :=
  ⟨sydneyLahiriRequest_valid, (lahiri_controlled_iff everywhereSydney
    ⟨fun _ => some sydneyFile, fun _ _ => rfl⟩ nullWorker (.new 2) (.new 2)
    sydneyLahiriRequest_valid).2⟩

end AstroPassport
