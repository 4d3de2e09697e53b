import AstroPassport.Contracts.Wire
import AstroPassport.Science.Civil.Replay
import AstroPassport.Science.Errors

set_option autoImplicit false

/-! # `PassportScience._calculate`

The stages of one passport in their order, the document made of what they return, and its validation
as a response. The boundary resolver and the ephemeris are ports: functions that return a value or
raise. A document is taken through JSON text and back unchanged, and the calculation runs in a
worker thread, which has no event loop of its own.

`natal` runs the stages: the coordinates of the place, the boundary, which must be resolved, the raw
input made of the request, the civil time, and the ephemeris at its instant. `attempt` adds the
document and its validation, and `calculate` the `except` clause, which turns the exceptions of the
stages into a `ScienceFailure` with a code and lets the others through. The exceptions keep the
stage they come from, so that it can be said of each whether it has a code. The parts of the
document are functions of their own, each of which one member of the response is read back from. -/

namespace AstroPassport

/-! ## Exceptions -/

/-- What leaves a stage or the calculation. -/
inductive PassportRaise where
  | stage (e : StageError)
  | scienceFailure (code : ErrorCode)
  | valueError
  | typeError
  | keyError
  | attributeError
  | escaped (e : Escape)
  deriving DecidableEq

/-- The exception of a check, as the code around it sees it. -/
def Checked.toPassport {α : Type} : Checked α → Except PassportRaise α
  | .ok a => .ok a
  | .valueError => .error .valueError
  | .escaped e => .error (.escaped e)

/-- An exception of the civil stage, as the service sees it. -/
def CivilRaise.toPassport : CivilRaise → PassportRaise
  | .civilTime category => .stage (.civilTime category)
  | .valueError => .valueError
  | .overflowError => .escaped .overflowError

/-- The `except` clause of `_calculate`. -/
def PassportRaise.asScienceFailure : PassportRaise → PassportRaise
  | .stage e =>
    match errorCodes.lookup e.value with
    | some code => .scienceFailure code
    | none => .keyError
  | r => r

/-! ## The document -/

section Document

/-- A `model_dump` of the provenance; the flags are tuples, written as arrays. -/
def EphemerisProvenance.dump (p : EphemerisProvenance) : List (String × JsonValue) :=
  [("adapter", .str "swiss-isolated.v1"),
    ("binding", .str "pysweph-2.10.3.6"),
    ("library", .str "2.10.03"),
    ("binary_sha256", .str p.binarySha256),
    ("binding_source_sha256", .str p.bindingSourceSha256),
    ("planet_data_sha256", .str p.planetDataSha256),
    ("moon_data_sha256", .str p.moonDataSha256),
    ("data_origin", .str "DE441"),
    ("requested_flags", .int 2),
    ("returned_flags", .arr [.int 2, .int 2]),
    ("projection", .str "geocentric-tropical-apparent-ecliptic-of-date"),
    ("numerical_policy", .str "binary64-to-decimal-9dp-half-even.v1"),
    ("time_policy", .str "pinned-leaps-2016-pre1972-ut1-proxy.v1"),
    ("delta_t_policy", .str "swiss-2.10.03-auto-model-tidal-DE441"),
    ("runtime", .str "CPython-3.12.14-Linux-x86_64"),
    ("source_repository", .str "https://github.com/Attory/astro-passport"),
    ("source_revision", .str p.sourceRevision)]

/-- `provenance` after its `update`, whose names are all new. -/
def provenanceDocument (r : EphemerisResult) : List (String × JsonValue) :=
  r.provenance.dump ++
    [("schema_version", .str "AstroPassportProvenance.v1"),
      ("ephemeris_schema", .str "ephemeris.v1"),
      ("tt_jd_binary64", .str r.jdTtHex),
      ("ut1_jd_binary64", .str r.jdUt1Hex),
      ("limitations", .arr (r.limitations.map .str))]

/-- The spelling of a body. -/
def Body.name : Body → String
  | .sun => "sun"
  | .moon => "moon"

/-- `format(longitude if longitude else 0, ".9f")`. -/
def degreesText (longitude : PyDecimal) : List Char :=
  if longitude.coeff = 0 then PyDecimal.fixedText 9 ⟨false, 0, 0⟩ else longitude.fixedText 9

/-- An item of `bodies`. -/
def bodyDocument (p : BodyLongitude) : JsonValue :=
  .obj [("body", .str p.body.name), ("binary64_hex", .str p.binary64Hex),
    ("decimal_degrees", .str (String.ofList (degreesText p.longitude)))]

/-- `None` or a string. -/
def optionalText : Option String → JsonValue
  | some s => .str s
  | none => .null

/-- `None` or an integer. -/
def optionalInt : Option ℤ → JsonValue
  | some n => .int n
  | none => .null

/-- `civil_input`. -/
def civilInputDocument (civil : ResolvedCivilTime) : JsonValue :=
  .obj [("date", .str (String.ofList (isoDate civil.localDate))),
    ("time", .str (String.ofList (isoTime civil.localTime.clock))),
    ("fold", optionalInt civil.foldChoice)]

/-- The provenance has the members of its wire model. -/
def boundaryDocument (boundary : TimezoneBoundaryResult) : JsonValue :=
  .obj [("schema_version", .str "timezone-boundary.v1"),
    ("outcome", .str "unique"),
    ("iana_zone", optionalText boundary.tzid),
    ("provenance", BoundaryProvenance.model.encode boundary.provenance)]

/-- So has the civil provenance; the offset of `utc` is zero. -/
def civilDocument (civil : ResolvedCivilTime) : JsonValue :=
  .obj [("schema_version", .str "civil-time.v1"),
    ("utc", .str (String.ofList (isoUtc civil.utc.naive))),
    ("offset_seconds", .int civil.offsetSeconds),
    ("resolution", .str civil.resolution.name),
    ("fold", optionalInt civil.foldChoice),
    ("provenance", CivilTimeProvenance.model.encode civil.provenance),
    ("limitations", .arr (civil.limitations.map .str))]

/-- `response`. -/
def passportDocument (place : SelectedPlace) (boundary : TimezoneBoundaryResult)
    (civil : ResolvedCivilTime) (astronomy : EphemerisResult) : JsonValue :=
  .obj [("schema_version", .str "AstroPassportResponse.v1"),
    ("contract_version", .str "1.0.0"),
    ("profile", .str "sun-moon.v1"),
    ("selected_place", SelectedPlace.model.encode place),
    ("civil_input", civilInputDocument civil),
    ("boundary", boundaryDocument boundary),
    ("civil", civilDocument civil),
    ("bodies", .arr [bodyDocument astronomy.positions.1, bodyDocument astronomy.positions.2]),
    ("provenance", .obj (provenanceDocument astronomy)),
    ("serialization", .str "astro-passport-json.v1"),
    ("authenticity", .str "unsigned-direct-client-only")]

end Document

/-! ## The calculation -/

/-- `self.boundaries`, `self.civil` and `self.ephemeris`. -/
structure PassportScience where
  boundaries : GeographicCoordinates → Except PassportRaise TimezoneBoundaryResult
  civil : PinnedCivilTimeResolver
  ephemeris : EphemerisRequest → Except PassportRaise EphemerisResult

/-- `GeographicCoordinates(latitude=..., longitude=...)`. -/
def SelectedPlace.coordinates (p : SelectedPlace) : Checked GeographicCoordinates :=
  (Checked.ok ⟨p.latitude, p.longitude⟩).whenever
    (GeographicCoordinates.valid ⟨p.latitude, p.longitude⟩)

/-- `RawBirthInput(...)` of the request, whose query is a constant. -/
def CivilInput.rawInput (v : CivilInput) : Option RawBirthInput := do
  let date ← dateFromIso v.date.toList
  let time ← clockFromIso v.time.toList
  some ⟨date, .naive time, "selected"⟩

/-- The codes of the outcomes other than a zone. -/
def requireResolved (boundary : TimezoneBoundaryResult) : Except PassportRaise Unit :=
  match boundary.status with
  | .resolved => .ok ()
  | .boundary => .error (.scienceFailure .boundaryBoundary)
  | .ambiguous => .error (.scienceFailure .boundaryAmbiguous)
  | .noMatch => .error (.scienceFailure .boundaryNoMatch)

/-- The `NatalFacts` of a result for a request, validated twice over; what the `except` clause does
    not list escapes. -/
def natalFacts (captured : EphemerisRequest) (astronomy : EphemerisResult) :
    Except PassportRaise EphemerisResult :=
  match astronomy.modelValidate >>= EphemerisResult.modelValidate with
  | .ok result =>
    if result.utc.naive = captured.utc.naive then .ok result
    else .error (.stage (.natal .invalidResult))
  | .valueError => .error (.stage (.natal .invalidResult))
  | .escaped .overflowError => .error (.stage (.natal .invalidResult))
  | .escaped .invalidOperation => .error (.escaped .invalidOperation)

namespace PassportScience

/-- `NatalService.calculate`. -/
def natal (s : PassportScience) (request : EphemerisRequest) : Except PassportRaise EphemerisResult :=
  match EphemerisRequest.make request.utc with
  | .ok captured => do
    let astronomy ← s.ephemeris captured
    natalFacts captured astronomy
  | _ => .error (.stage (.natal .invalidInput))

/-- The `try` block of `_calculate`. -/
def attempt (s : PassportScience) (request : AstroPassportRequestV1) :
    Except PassportRaise AstroPassportResponseV1 := do
  let value ← (AstroPassportRequestV1.model.decode
    (AstroPassportRequestV1.model.encode request)).toPassport
  let coordinates ← value.selectedPlace.coordinates.toPassport
  let boundary ← s.boundaries coordinates
  requireResolved boundary
  let raw ← (Checked.ofOption value.civil.rawInput).toPassport
  let raw ← raw.modelValidate.mapError CivilRaise.toPassport
  let civil ← (s.civil.resolve raw boundary value.civil.fold).mapError CivilRaise.toPassport
  let civil ← (s.civil.verifyResult civil).mapError CivilRaise.toPassport
  let ephemerisRequest ← (EphemerisRequest.make civil.utc).toPassport
  let astronomy ← s.natal ephemerisRequest
  (AstroPassportResponseV1.model.decode
    (passportDocument value.selectedPlace boundary civil astronomy)).toPassport

/-- `_calculate`. -/
def calculate (s : PassportScience) (request : AstroPassportRequestV1) :
    Except PassportRaise AstroPassportResponseV1 :=
  (s.attempt request).mapError PassportRaise.asScienceFailure

end PassportScience

end AstroPassport
