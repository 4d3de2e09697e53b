import Mathlib.Data.List.Basic

set_option autoImplicit false

/-! # The accepted leaf map

`contracts/accepted/comparator.json`, whose bytes the comparator pins by a digest: one row for every
leaf of a retained old record and of a new exchange. The rows of each side are in the order of the
file. A path is the list of its keys, which are an enumeration; `Key.text` is a key's spelling, and
an item of an array has its index for a key.

A row has what the comparator reads of it: the path, the classification, for an old row the targets
it is linked to and its rule, for a new row the leaves it is retained from. The rules are sentences
that many rows share, and a row names the sentence. The table is data and has no proofs of its own;
what it says once and for all is found by evaluation in the module on its links, and the walks over
it are those of the comparator. That keys are an enumeration makes a path cheap to compare, which
the evaluations over all rows live on. -/

namespace AstroPassport

/-- A key of a path of the map. -/
inductive Key where
  | zero
  | one
  | aceGitSha
  | adapter
  | archiveSha256
  | astronomy
  | attribution
  | authenticity
  | binary64Hex
  | binarySha256
  | binding
  | bindingSourceSha256
  | bodies
  | body
  | boundary
  | boundarySha256
  | buildPolicy
  | calendar
  | candidate
  | candidateIds
  | canonicalization
  | catalogSha256
  | civil
  | civilInput
  | civilSha256
  | code
  | contextSha256
  | contractVersion
  | coordinates
  | dataOrigin
  | dataset
  | date
  | decimalDegrees
  | deltaTPolicy
  | displayName
  | ephemeris
  | ephemerisSchema
  | error
  | executionTarget
  | facts
  | factsSha256
  | fold
  | foldChoice
  | geometrySha256
  | geosVersion
  | historicalAssurance
  | ianaVersion
  | ianaZone
  | inputSha256
  | jdTtHex
  | jdUt1Hex
  | latitude
  | library
  | license
  | licenseUrl
  | limit
  | limitations
  | localDate
  | localTime
  | longitude
  | manifest
  | manifestSha256
  | methodology
  | methodologySha256
  | moonDataSha256
  | natal
  | natalSha256
  | numericalPolicy
  | numpyVersion
  | offsetSeconds
  | outcome
  | pipeline
  | placeQuery
  | placeSchema
  | planetDataSha256
  | positions
  | profile
  | projection
  | provenance
  | provider
  | pythonRuntime
  | pythonVersion
  | query
  | raw
  | reason
  | release
  | request
  | requestedFlags
  | requestedLimit
  | resolution
  | resolver
  | response
  | resultCount
  | resultSha256
  | returnedFlags
  | runtime
  | schemaVersion
  | scoringProfile
  | scoringProfileSha256
  | searchRequest
  | selected
  | selectedIndex
  | selectedPlace
  | serialization
  | shapelyVersion
  | sourceId
  | sourceRepository
  | sourceRevision
  | status
  | synastrySha256
  | time
  | timePolicy
  | ttJdBinary64
  | tzcodeSourceSha256
  | tzdataSourceSha256
  | tzid
  | tzifSha256
  | ut1JdBinary64
  | utc
  | utcConvention
  | variant
  deriving DecidableEq

/-- The key as a path spells it. -/
def Key.text : Key → String
  | .zero => "0"
  | .one => "1"
  | .aceGitSha => "ace_git_sha"
  | .adapter => "adapter"
  | .archiveSha256 => "archive_sha256"
  | .astronomy => "astronomy"
  | .attribution => "attribution"
  | .authenticity => "authenticity"
  | .binary64Hex => "binary64_hex"
  | .binarySha256 => "binary_sha256"
  | .binding => "binding"
  | .bindingSourceSha256 => "binding_source_sha256"
  | .bodies => "bodies"
  | .body => "body"
  | .boundary => "boundary"
  | .boundarySha256 => "boundary_sha256"
  | .buildPolicy => "build_policy"
  | .calendar => "calendar"
  | .candidate => "candidate"
  | .candidateIds => "candidate_ids"
  | .canonicalization => "canonicalization"
  | .catalogSha256 => "catalog_sha256"
  | .civil => "civil"
  | .civilInput => "civil_input"
  | .civilSha256 => "civil_sha256"
  | .code => "code"
  | .contextSha256 => "context_sha256"
  | .contractVersion => "contract_version"
  | .coordinates => "coordinates"
  | .dataOrigin => "data_origin"
  | .dataset => "dataset"
  | .date => "date"
  | .decimalDegrees => "decimal_degrees"
  | .deltaTPolicy => "delta_t_policy"
  | .displayName => "display_name"
  | .ephemeris => "ephemeris"
  | .ephemerisSchema => "ephemeris_schema"
  | .error => "error"
  | .executionTarget => "execution_target"
  | .facts => "facts"
  | .factsSha256 => "facts_sha256"
  | .fold => "fold"
  | .foldChoice => "fold_choice"
  | .geometrySha256 => "geometry_sha256"
  | .geosVersion => "geos_version"
  | .historicalAssurance => "historical_assurance"
  | .ianaVersion => "iana_version"
  | .ianaZone => "iana_zone"
  | .inputSha256 => "input_sha256"
  | .jdTtHex => "jd_tt_hex"
  | .jdUt1Hex => "jd_ut1_hex"
  | .latitude => "latitude"
  | .library => "library"
  | .license => "license"
  | .licenseUrl => "license_url"
  | .limit => "limit"
  | .limitations => "limitations"
  | .localDate => "local_date"
  | .localTime => "local_time"
  | .longitude => "longitude"
  | .manifest => "manifest"
  | .manifestSha256 => "manifest_sha256"
  | .methodology => "methodology"
  | .methodologySha256 => "methodology_sha256"
  | .moonDataSha256 => "moon_data_sha256"
  | .natal => "natal"
  | .natalSha256 => "natal_sha256"
  | .numericalPolicy => "numerical_policy"
  | .numpyVersion => "numpy_version"
  | .offsetSeconds => "offset_seconds"
  | .outcome => "outcome"
  | .pipeline => "pipeline"
  | .placeQuery => "place_query"
  | .placeSchema => "place_schema"
  | .planetDataSha256 => "planet_data_sha256"
  | .positions => "positions"
  | .profile => "profile"
  | .projection => "projection"
  | .provenance => "provenance"
  | .provider => "provider"
  | .pythonRuntime => "python_runtime"
  | .pythonVersion => "python_version"
  | .query => "query"
  | .raw => "raw"
  | .reason => "reason"
  | .release => "release"
  | .request => "request"
  | .requestedFlags => "requested_flags"
  | .requestedLimit => "requested_limit"
  | .resolution => "resolution"
  | .resolver => "resolver"
  | .response => "response"
  | .resultCount => "result_count"
  | .resultSha256 => "result_sha256"
  | .returnedFlags => "returned_flags"
  | .runtime => "runtime"
  | .schemaVersion => "schema_version"
  | .scoringProfile => "scoring_profile"
  | .scoringProfileSha256 => "scoring_profile_sha256"
  | .searchRequest => "search_request"
  | .selected => "selected"
  | .selectedIndex => "selected_index"
  | .selectedPlace => "selected_place"
  | .serialization => "serialization"
  | .shapelyVersion => "shapely_version"
  | .sourceId => "source_id"
  | .sourceRepository => "source_repository"
  | .sourceRevision => "source_revision"
  | .status => "status"
  | .synastrySha256 => "synastry_sha256"
  | .time => "time"
  | .timePolicy => "time_policy"
  | .ttJdBinary64 => "tt_jd_binary64"
  | .tzcodeSourceSha256 => "tzcode_source_sha256"
  | .tzdataSourceSha256 => "tzdata_source_sha256"
  | .tzid => "tzid"
  | .tzifSha256 => "tzif_sha256"
  | .ut1JdBinary64 => "ut1_jd_binary64"
  | .utc => "utc"
  | .utcConvention => "utc_convention"
  | .variant => "variant"

/-- A path, and its spelling. -/
abbrev Path := List Key

/-- The spellings of the keys of a path. -/
def Path.texts (p : Path) : List String := p.map Key.text

/-- `CLASSES`. -/
inductive Classification where
  | exactEqual
  | expectedIdentitySubstitution
  | derivedRecompute
  | deliveryMetadataOnly
  | intentionallyAbsent
  | errorMapping
  | notComparableWithReason
  deriving DecidableEq, Repr

/-- The spelling of a classification in the file. -/
def Classification.text : Classification → String
  | .exactEqual => "EXACT_EQUAL"
  | .expectedIdentitySubstitution => "EXPECTED_IDENTITY_SUBSTITUTION"
  | .derivedRecompute => "DERIVED_RECOMPUTE"
  | .deliveryMetadataOnly => "DELIVERY_METADATA_ONLY"
  | .intentionallyAbsent => "INTENTIONALLY_ABSENT"
  | .errorMapping => "ERROR_MAPPING"
  | .notComparableWithReason => "NOT_COMPARABLE_WITH_REASON"

/-- A row of side `old`; `targets` are the new leaves it is compared with. -/
structure OldRow where
  path : Path
  classification : Classification
  rule : String
  targets : List Path

/-- A row of side `new`; `sources` are the old leaves it comes from. -/
structure NewRow where
  path : Path
  classification : Classification
  sources : List Path

/-! ## The rules -/

namespace OldRow

/-- The rule of the leaves that are compared as they are. -/
def exactValue : String :=
  "exact typed value; arrays include length/order/nulls; no epsilon"

/-- The rule of the local clock. -/
def naiveClock : String :=
  "fixed HH:mm:ss.ffffff from validated naive civil clock; exact microseconds, never offset " ++
    "conversion"

/-- The rule of the query of the place. -/
def agreedQuery : String :=
  "both legacy values must first agree EXACTLY after existing legacy validation; mismatch rejects " ++
    "before HTTP; no query normalization in transport"

/-- The rule of the schema version of the place. -/
def placeEncoding : String :=
  "selected-place.v1 -> SelectedPlaceInput.v1; encoding family only, actual selected values " ++
    "unchanged"

/-- The rule of the coordinates of the place. -/
def exactCoordinates : String :=
  "exact decoded finite binary64 bit pattern, including signed zero; no E7 rounding before lookup"

/-- The rule of the coordinates of the boundary. -/
def resolverInput : String :=
  "resolver input must equal retained selected binary64 exactly; no pre-rounding"

/-- The rule of the digest of the manifest. -/
def reviewedManifest : String :=
  "exact reviewed old/new manifest byte hashes; scientific data/runtime leaves remain exact. " ++
    "Proposed APT manifest removes private retention location, records public target as not yet " ++
    "uploaded; no blanket provenance exclusion"

/-- The rule of the outcome of the boundary. -/
def outcomeMapping : String :=
  "resolved -> success unique; boundary -> boundary_boundary; ambiguous -> boundary_ambiguous; " ++
    "no_match -> boundary_no_match"

/-- The rule of the zone. -/
def successZone : String :=
  "success only: exact tzid; failures have no successful response and use classified error mapping"

/-- The rule of the reason and the candidates of the boundary. -/
def successDiagnostics : String :=
  "success requires null reason and empty candidate_ids; failure diagnostics retained only in " ++
    "private stage-level reference evidence, not public error body. Public API parity proves " ++
    "classified outcome, not diagnostic-list equality; separate offline stage conformance required"

/-- The rule of the instant. -/
def zeroOffsetInstant : String :=
  "UTC zero-offset instant -> fixed YYYY-MM-DDTHH:mm:ss.ffffffZ; exact microseconds and same " ++
    "instant; reject unknown offset/fold"

/-- The rule of what wraps the positions. -/
def westernWrapper : String :=
  "ACE Western wrapper stays ACE-owned; raw astronomical frame and Sun/Moon order retained, no APT " ++
    "Western projection fingerprint"

/-- The rule of the decimal of a longitude. -/
def exactDecimal : String :=
  "format existing exact quantized Decimal as exactly nine decimal places; value MUST equal legacy " ++
    "shortest-binary64-decimal ROUND_HALF_EVEN modulo360 derivation; no re-quantization of exact " ++
    "binary rational"

/-- The rule of the revision of the source. -/
def approvedRevision : String :=
  "retain old exact approved ACE repo/revision and new exact APT repo/revision separately; unknown " ++
    "is inadmissible for reference acceptance"

/-- The rule of the identity of a pair. -/
def pairIdentity : String :=
  "ACE-owned composed pair-manifest identity, retained privately unchanged as baseline; not the " ++
    "single-person APT envelope identity. ace-calculation-json.v1 is NOT ACEP1"

/-- The rule of the leaves of the first participant. -/
def participantZero : String :=
  "exact typed value in passport for participant index 0; do not collapse participants"

/-- The rule of the leaves of the second participant. -/
def participantOne : String :=
  "exact typed value in passport for participant index 1; do not collapse participants"

/-- The rule of what stays private. -/
def privateContext : String :=
  "private downstream ACE context/methodology/projection/scoring leaf; never in APT scientific " ++
    "output or public corpus. Null values remain explicit in retained private manifest"

/-- The rule of the digest of a pair. -/
def pairDigest : String :=
  "ACE-owned pair manifest; recompute after approved client migration from exact new complete " ++
    "payload using its declared legacy serialization; retain both old/new digests; not an APT " ++
    "fingerprint and not expected equal"

end OldRow

/-! ## The rows -/

open OldRow in
/-- The rows of side `old`. -/
def oldRows : List OldRow :=
  [⟨[.selected, .raw, .date], .exactEqual, exactValue, [[.request, .civil, .date],
      [.response, .civilInput, .date]]⟩,
    ⟨[.selected, .raw, .time], .derivedRecompute, naiveClock, [[.request, .civil, .time],
      [.response, .civilInput, .time]]⟩,
    ⟨[.selected, .raw, .placeQuery], .exactEqual, agreedQuery, [[.request, .selectedPlace, .query],
      [.response, .selectedPlace, .query]]⟩,
    ⟨[.selected, .selectedPlace, .schemaVersion], .expectedIdentitySubstitution, placeEncoding,
      [[.request, .selectedPlace, .schemaVersion], [.response, .selectedPlace, .schemaVersion]]⟩,
    ⟨[.selected, .selectedPlace, .candidate, .provider], .exactEqual, exactValue,
      [[.request, .selectedPlace, .provider], [.response, .selectedPlace, .provider]]⟩,
    ⟨[.selected, .selectedPlace, .candidate, .sourceId], .exactEqual, exactValue,
      [[.request, .selectedPlace, .sourceId], [.response, .selectedPlace, .sourceId]]⟩,
    ⟨[.selected, .selectedPlace, .candidate, .displayName], .exactEqual, exactValue,
      [[.request, .selectedPlace, .displayName], [.response, .selectedPlace, .displayName]]⟩,
    ⟨[.selected, .selectedPlace, .candidate, .latitude], .exactEqual, exactCoordinates,
      [[.request, .selectedPlace, .latitude], [.response, .selectedPlace, .latitude]]⟩,
    ⟨[.selected, .selectedPlace, .candidate, .longitude], .exactEqual, exactCoordinates,
      [[.request, .selectedPlace, .longitude], [.response, .selectedPlace, .longitude]]⟩,
    ⟨[.selected, .selectedPlace, .candidate, .attribution], .exactEqual, exactValue,
      [[.request, .selectedPlace, .attribution], [.response, .selectedPlace, .attribution]]⟩,
    ⟨[.selected, .selectedPlace, .searchRequest, .query], .exactEqual, agreedQuery,
      [[.request, .selectedPlace, .query], [.response, .selectedPlace, .query]]⟩,
    ⟨[.selected, .selectedPlace, .searchRequest, .limit], .exactEqual, exactValue,
      [[.request, .selectedPlace, .requestedLimit], [.response, .selectedPlace, .requestedLimit]]⟩,
    ⟨[.selected, .selectedPlace, .selectedIndex], .exactEqual, exactValue,
      [[.request, .selectedPlace, .selectedIndex], [.response, .selectedPlace, .selectedIndex]]⟩,
    ⟨[.selected, .selectedPlace, .resultCount], .exactEqual, exactValue,
      [[.request, .selectedPlace, .resultCount], [.response, .selectedPlace, .resultCount]]⟩,
    ⟨[.selected, .foldChoice], .exactEqual, exactValue, [[.request, .civil, .fold],
      [.response, .civilInput, .fold], [.response, .civil, .fold]]⟩,
    ⟨[.facts, .boundary, .schemaVersion], .exactEqual, exactValue,
      [[.response, .boundary, .schemaVersion]]⟩,
    ⟨[.facts, .boundary, .coordinates, .latitude], .exactEqual, resolverInput,
      [[.request, .selectedPlace, .latitude], [.response, .selectedPlace, .latitude]]⟩,
    ⟨[.facts, .boundary, .coordinates, .longitude], .exactEqual, resolverInput,
      [[.request, .selectedPlace, .longitude], [.response, .selectedPlace, .longitude]]⟩,
    ⟨[.facts, .boundary, .provenance, .dataset], .exactEqual, exactValue,
      [[.response, .boundary, .provenance, .dataset]]⟩,
    ⟨[.facts, .boundary, .provenance, .release], .exactEqual, exactValue,
      [[.response, .boundary, .provenance, .release]]⟩,
    ⟨[.facts, .boundary, .provenance, .variant], .exactEqual, exactValue,
      [[.response, .boundary, .provenance, .variant]]⟩,
    ⟨[.facts, .boundary, .provenance, .manifestSha256], .derivedRecompute, reviewedManifest,
      [[.response, .boundary, .provenance, .manifestSha256]]⟩,
    ⟨[.facts, .boundary, .provenance, .archiveSha256], .exactEqual, exactValue,
      [[.response, .boundary, .provenance, .archiveSha256]]⟩,
    ⟨[.facts, .boundary, .provenance, .geometrySha256], .exactEqual, exactValue,
      [[.response, .boundary, .provenance, .geometrySha256]]⟩,
    ⟨[.facts, .boundary, .provenance, .catalogSha256], .exactEqual, exactValue,
      [[.response, .boundary, .provenance, .catalogSha256]]⟩,
    ⟨[.facts, .boundary, .provenance, .resolver], .exactEqual, exactValue,
      [[.response, .boundary, .provenance, .resolver]]⟩,
    ⟨[.facts, .boundary, .provenance, .shapelyVersion], .exactEqual, exactValue,
      [[.response, .boundary, .provenance, .shapelyVersion]]⟩,
    ⟨[.facts, .boundary, .provenance, .geosVersion], .exactEqual, exactValue,
      [[.response, .boundary, .provenance, .geosVersion]]⟩,
    ⟨[.facts, .boundary, .provenance, .numpyVersion], .exactEqual, exactValue,
      [[.response, .boundary, .provenance, .numpyVersion]]⟩,
    ⟨[.facts, .boundary, .provenance, .pythonVersion], .exactEqual, exactValue,
      [[.response, .boundary, .provenance, .pythonVersion]]⟩,
    ⟨[.facts, .boundary, .provenance, .executionTarget], .exactEqual, exactValue,
      [[.response, .boundary, .provenance, .executionTarget]]⟩,
    ⟨[.facts, .boundary, .provenance, .license], .exactEqual, exactValue,
      [[.response, .boundary, .provenance, .license]]⟩,
    ⟨[.facts, .boundary, .provenance, .attribution], .exactEqual, exactValue,
      [[.response, .boundary, .provenance, .attribution]]⟩,
    ⟨[.facts, .boundary, .provenance, .licenseUrl], .exactEqual, exactValue,
      [[.response, .boundary, .provenance, .licenseUrl]]⟩,
    ⟨[.facts, .boundary, .status], .errorMapping, outcomeMapping, [[.response, .boundary, .outcome],
      [.error, .code]]⟩,
    ⟨[.facts, .boundary, .tzid], .exactEqual, successZone, [[.response, .boundary, .ianaZone]]⟩,
    ⟨[.facts, .boundary, .reason], .intentionallyAbsent, successDiagnostics, []⟩,
    ⟨[.facts, .boundary, .candidateIds], .intentionallyAbsent, successDiagnostics, []⟩,
    ⟨[.facts, .civil, .schemaVersion], .exactEqual, exactValue,
      [[.response, .civil, .schemaVersion]]⟩,
    ⟨[.facts, .civil, .localDate], .exactEqual, exactValue, [[.request, .civil, .date],
      [.response, .civilInput, .date]]⟩,
    ⟨[.facts, .civil, .localTime], .derivedRecompute, naiveClock, [[.request, .civil, .time],
      [.response, .civilInput, .time]]⟩,
    ⟨[.facts, .civil, .boundary, .schemaVersion], .exactEqual, exactValue,
      [[.response, .boundary, .schemaVersion]]⟩,
    ⟨[.facts, .civil, .boundary, .coordinates, .latitude], .exactEqual, resolverInput,
      [[.request, .selectedPlace, .latitude], [.response, .selectedPlace, .latitude]]⟩,
    ⟨[.facts, .civil, .boundary, .coordinates, .longitude], .exactEqual, resolverInput,
      [[.request, .selectedPlace, .longitude], [.response, .selectedPlace, .longitude]]⟩,
    ⟨[.facts, .civil, .boundary, .provenance, .dataset], .exactEqual, exactValue,
      [[.response, .boundary, .provenance, .dataset]]⟩,
    ⟨[.facts, .civil, .boundary, .provenance, .release], .exactEqual, exactValue,
      [[.response, .boundary, .provenance, .release]]⟩,
    ⟨[.facts, .civil, .boundary, .provenance, .variant], .exactEqual, exactValue,
      [[.response, .boundary, .provenance, .variant]]⟩,
    ⟨[.facts, .civil, .boundary, .provenance, .manifestSha256], .derivedRecompute, reviewedManifest,
      [[.response, .boundary, .provenance, .manifestSha256]]⟩,
    ⟨[.facts, .civil, .boundary, .provenance, .archiveSha256], .exactEqual, exactValue,
      [[.response, .boundary, .provenance, .archiveSha256]]⟩,
    ⟨[.facts, .civil, .boundary, .provenance, .geometrySha256], .exactEqual, exactValue,
      [[.response, .boundary, .provenance, .geometrySha256]]⟩,
    ⟨[.facts, .civil, .boundary, .provenance, .catalogSha256], .exactEqual, exactValue,
      [[.response, .boundary, .provenance, .catalogSha256]]⟩,
    ⟨[.facts, .civil, .boundary, .provenance, .resolver], .exactEqual, exactValue,
      [[.response, .boundary, .provenance, .resolver]]⟩,
    ⟨[.facts, .civil, .boundary, .provenance, .shapelyVersion], .exactEqual, exactValue,
      [[.response, .boundary, .provenance, .shapelyVersion]]⟩,
    ⟨[.facts, .civil, .boundary, .provenance, .geosVersion], .exactEqual, exactValue,
      [[.response, .boundary, .provenance, .geosVersion]]⟩,
    ⟨[.facts, .civil, .boundary, .provenance, .numpyVersion], .exactEqual, exactValue,
      [[.response, .boundary, .provenance, .numpyVersion]]⟩,
    ⟨[.facts, .civil, .boundary, .provenance, .pythonVersion], .exactEqual, exactValue,
      [[.response, .boundary, .provenance, .pythonVersion]]⟩,
    ⟨[.facts, .civil, .boundary, .provenance, .executionTarget], .exactEqual, exactValue,
      [[.response, .boundary, .provenance, .executionTarget]]⟩,
    ⟨[.facts, .civil, .boundary, .provenance, .license], .exactEqual, exactValue,
      [[.response, .boundary, .provenance, .license]]⟩,
    ⟨[.facts, .civil, .boundary, .provenance, .attribution], .exactEqual, exactValue,
      [[.response, .boundary, .provenance, .attribution]]⟩,
    ⟨[.facts, .civil, .boundary, .provenance, .licenseUrl], .exactEqual, exactValue,
      [[.response, .boundary, .provenance, .licenseUrl]]⟩,
    ⟨[.facts, .civil, .boundary, .status], .errorMapping, outcomeMapping,
      [[.response, .boundary, .outcome], [.error, .code]]⟩,
    ⟨[.facts, .civil, .boundary, .tzid], .exactEqual, successZone,
      [[.response, .boundary, .ianaZone]]⟩,
    ⟨[.facts, .civil, .boundary, .reason], .intentionallyAbsent, successDiagnostics, []⟩,
    ⟨[.facts, .civil, .boundary, .candidateIds], .intentionallyAbsent, successDiagnostics, []⟩,
    ⟨[.facts, .civil, .utc], .derivedRecompute, zeroOffsetInstant, [[.response, .civil, .utc]]⟩,
    ⟨[.facts, .civil, .offsetSeconds], .exactEqual, exactValue,
      [[.response, .civil, .offsetSeconds]]⟩,
    ⟨[.facts, .civil, .resolution], .exactEqual, exactValue, [[.response, .civil, .resolution]]⟩,
    ⟨[.facts, .civil, .foldChoice], .exactEqual, exactValue, [[.request, .civil, .fold],
      [.response, .civilInput, .fold], [.response, .civil, .fold]]⟩,
    ⟨[.facts, .civil, .provenance, .ianaVersion], .exactEqual, exactValue,
      [[.response, .civil, .provenance, .ianaVersion]]⟩,
    ⟨[.facts, .civil, .provenance, .buildPolicy], .exactEqual, exactValue,
      [[.response, .civil, .provenance, .buildPolicy]]⟩,
    ⟨[.facts, .civil, .provenance, .archiveSha256], .exactEqual, exactValue,
      [[.response, .civil, .provenance, .archiveSha256]]⟩,
    ⟨[.facts, .civil, .provenance, .tzdataSourceSha256], .exactEqual, exactValue,
      [[.response, .civil, .provenance, .tzdataSourceSha256]]⟩,
    ⟨[.facts, .civil, .provenance, .tzcodeSourceSha256], .exactEqual, exactValue,
      [[.response, .civil, .provenance, .tzcodeSourceSha256]]⟩,
    ⟨[.facts, .civil, .provenance, .tzifSha256], .exactEqual, exactValue,
      [[.response, .civil, .provenance, .tzifSha256]]⟩,
    ⟨[.facts, .civil, .provenance, .resolver], .exactEqual, exactValue,
      [[.response, .civil, .provenance, .resolver]]⟩,
    ⟨[.facts, .civil, .provenance, .pythonRuntime], .exactEqual, exactValue,
      [[.response, .civil, .provenance, .pythonRuntime]]⟩,
    ⟨[.facts, .civil, .provenance, .calendar], .exactEqual, exactValue,
      [[.response, .civil, .provenance, .calendar]]⟩,
    ⟨[.facts, .civil, .provenance, .utcConvention], .exactEqual, exactValue,
      [[.response, .civil, .provenance, .utcConvention]]⟩,
    ⟨[.facts, .civil, .provenance, .historicalAssurance], .exactEqual, exactValue,
      [[.response, .civil, .provenance, .historicalAssurance]]⟩,
    ⟨[.facts, .civil, .limitations], .exactEqual, exactValue, [[.response, .civil, .limitations]]⟩,
    ⟨[.facts, .natal, .schemaVersion], .intentionallyAbsent, westernWrapper, []⟩,
    ⟨[.facts, .natal, .projection], .intentionallyAbsent, westernWrapper, []⟩,
    ⟨[.facts, .natal, .astronomy, .schemaVersion], .exactEqual, exactValue,
      [[.response, .provenance, .ephemerisSchema], [.provenance, .ephemerisSchema]]⟩,
    ⟨[.facts, .natal, .astronomy, .utc], .derivedRecompute, zeroOffsetInstant,
      [[.response, .civil, .utc]]⟩,
    ⟨[.facts, .natal, .astronomy, .positions, .zero, .body], .exactEqual, exactValue,
      [[.response, .bodies, .zero, .body]]⟩,
    ⟨[.facts, .natal, .astronomy, .positions, .zero, .longitude], .derivedRecompute, exactDecimal,
      [[.response, .bodies, .zero, .decimalDegrees]]⟩,
    ⟨[.facts, .natal, .astronomy, .positions, .zero, .binary64Hex], .exactEqual, exactValue,
      [[.response, .bodies, .zero, .binary64Hex]]⟩,
    ⟨[.facts, .natal, .astronomy, .positions, .one, .body], .exactEqual, exactValue,
      [[.response, .bodies, .one, .body]]⟩,
    ⟨[.facts, .natal, .astronomy, .positions, .one, .longitude], .derivedRecompute, exactDecimal,
      [[.response, .bodies, .one, .decimalDegrees]]⟩,
    ⟨[.facts, .natal, .astronomy, .positions, .one, .binary64Hex], .exactEqual, exactValue,
      [[.response, .bodies, .one, .binary64Hex]]⟩,
    ⟨[.facts, .natal, .astronomy, .jdTtHex], .exactEqual, exactValue,
      [[.response, .provenance, .ttJdBinary64], [.provenance, .ttJdBinary64]]⟩,
    ⟨[.facts, .natal, .astronomy, .jdUt1Hex], .exactEqual, exactValue,
      [[.response, .provenance, .ut1JdBinary64], [.provenance, .ut1JdBinary64]]⟩,
    ⟨[.facts, .natal, .astronomy, .limitations], .exactEqual, exactValue,
      [[.response, .provenance, .limitations], [.provenance, .limitations]]⟩,
    ⟨[.facts, .natal, .astronomy, .provenance, .adapter], .exactEqual, exactValue,
      [[.response, .provenance, .adapter], [.provenance, .adapter]]⟩,
    ⟨[.facts, .natal, .astronomy, .provenance, .binding], .exactEqual, exactValue,
      [[.response, .provenance, .binding], [.provenance, .binding]]⟩,
    ⟨[.facts, .natal, .astronomy, .provenance, .library], .exactEqual, exactValue,
      [[.response, .provenance, .library], [.provenance, .library]]⟩,
    ⟨[.facts, .natal, .astronomy, .provenance, .binarySha256], .exactEqual, exactValue,
      [[.response, .provenance, .binarySha256], [.provenance, .binarySha256]]⟩,
    ⟨[.facts, .natal, .astronomy, .provenance, .bindingSourceSha256], .exactEqual, exactValue,
      [[.response, .provenance, .bindingSourceSha256], [.provenance, .bindingSourceSha256]]⟩,
    ⟨[.facts, .natal, .astronomy, .provenance, .planetDataSha256], .exactEqual, exactValue,
      [[.response, .provenance, .planetDataSha256], [.provenance, .planetDataSha256]]⟩,
    ⟨[.facts, .natal, .astronomy, .provenance, .moonDataSha256], .exactEqual, exactValue,
      [[.response, .provenance, .moonDataSha256], [.provenance, .moonDataSha256]]⟩,
    ⟨[.facts, .natal, .astronomy, .provenance, .dataOrigin], .exactEqual, exactValue,
      [[.response, .provenance, .dataOrigin], [.provenance, .dataOrigin]]⟩,
    ⟨[.facts, .natal, .astronomy, .provenance, .requestedFlags], .exactEqual, exactValue,
      [[.response, .provenance, .requestedFlags], [.provenance, .requestedFlags]]⟩,
    ⟨[.facts, .natal, .astronomy, .provenance, .returnedFlags], .exactEqual, exactValue,
      [[.response, .provenance, .returnedFlags], [.provenance, .returnedFlags]]⟩,
    ⟨[.facts, .natal, .astronomy, .provenance, .projection], .exactEqual, exactValue,
      [[.response, .provenance, .projection], [.provenance, .projection]]⟩,
    ⟨[.facts, .natal, .astronomy, .provenance, .numericalPolicy], .exactEqual, exactValue,
      [[.response, .provenance, .numericalPolicy], [.provenance, .numericalPolicy]]⟩,
    ⟨[.facts, .natal, .astronomy, .provenance, .timePolicy], .exactEqual, exactValue,
      [[.response, .provenance, .timePolicy], [.provenance, .timePolicy]]⟩,
    ⟨[.facts, .natal, .astronomy, .provenance, .deltaTPolicy], .exactEqual, exactValue,
      [[.response, .provenance, .deltaTPolicy], [.provenance, .deltaTPolicy]]⟩,
    ⟨[.facts, .natal, .astronomy, .provenance, .runtime], .exactEqual, exactValue,
      [[.response, .provenance, .runtime], [.provenance, .runtime]]⟩,
    ⟨[.facts, .natal, .astronomy, .provenance, .sourceRepository], .expectedIdentitySubstitution,
      approvedRevision, [[.response, .provenance, .sourceRepository],
      [.provenance, .sourceRepository]]⟩,
    ⟨[.facts, .natal, .astronomy, .provenance, .aceGitSha], .expectedIdentitySubstitution,
      approvedRevision, [[.response, .provenance, .sourceRevision], [.provenance, .sourceRevision]]⟩,
    ⟨[.manifest, .schemaVersion], .notComparableWithReason, pairIdentity, []⟩,
    ⟨[.manifest, .pipeline], .notComparableWithReason, pairIdentity, []⟩,
    ⟨[.manifest, .canonicalization], .notComparableWithReason, pairIdentity, []⟩,
    ⟨[.manifest, .sourceRepository], .notComparableWithReason, pairIdentity, []⟩,
    ⟨[.manifest, .aceGitSha], .notComparableWithReason, pairIdentity, []⟩,
    ⟨[.manifest, .placeSchema], .notComparableWithReason, pairIdentity, []⟩,
    ⟨[.manifest, .boundary, .dataset], .exactEqual, exactValue,
      [[.response, .boundary, .provenance, .dataset]]⟩,
    ⟨[.manifest, .boundary, .release], .exactEqual, exactValue,
      [[.response, .boundary, .provenance, .release]]⟩,
    ⟨[.manifest, .boundary, .variant], .exactEqual, exactValue,
      [[.response, .boundary, .provenance, .variant]]⟩,
    ⟨[.manifest, .boundary, .manifestSha256], .derivedRecompute, reviewedManifest,
      [[.response, .boundary, .provenance, .manifestSha256]]⟩,
    ⟨[.manifest, .boundary, .archiveSha256], .exactEqual, exactValue,
      [[.response, .boundary, .provenance, .archiveSha256]]⟩,
    ⟨[.manifest, .boundary, .geometrySha256], .exactEqual, exactValue,
      [[.response, .boundary, .provenance, .geometrySha256]]⟩,
    ⟨[.manifest, .boundary, .catalogSha256], .exactEqual, exactValue,
      [[.response, .boundary, .provenance, .catalogSha256]]⟩,
    ⟨[.manifest, .boundary, .resolver], .exactEqual, exactValue,
      [[.response, .boundary, .provenance, .resolver]]⟩,
    ⟨[.manifest, .boundary, .shapelyVersion], .exactEqual, exactValue,
      [[.response, .boundary, .provenance, .shapelyVersion]]⟩,
    ⟨[.manifest, .boundary, .geosVersion], .exactEqual, exactValue,
      [[.response, .boundary, .provenance, .geosVersion]]⟩,
    ⟨[.manifest, .boundary, .numpyVersion], .exactEqual, exactValue,
      [[.response, .boundary, .provenance, .numpyVersion]]⟩,
    ⟨[.manifest, .boundary, .pythonVersion], .exactEqual, exactValue,
      [[.response, .boundary, .provenance, .pythonVersion]]⟩,
    ⟨[.manifest, .boundary, .executionTarget], .exactEqual, exactValue,
      [[.response, .boundary, .provenance, .executionTarget]]⟩,
    ⟨[.manifest, .boundary, .license], .exactEqual, exactValue,
      [[.response, .boundary, .provenance, .license]]⟩,
    ⟨[.manifest, .boundary, .attribution], .exactEqual, exactValue,
      [[.response, .boundary, .provenance, .attribution]]⟩,
    ⟨[.manifest, .boundary, .licenseUrl], .exactEqual, exactValue,
      [[.response, .boundary, .provenance, .licenseUrl]]⟩,
    ⟨[.manifest, .civil, .zero, .ianaVersion], .exactEqual, participantZero,
      [[.response, .civil, .provenance, .ianaVersion]]⟩,
    ⟨[.manifest, .civil, .zero, .buildPolicy], .exactEqual, participantZero,
      [[.response, .civil, .provenance, .buildPolicy]]⟩,
    ⟨[.manifest, .civil, .zero, .archiveSha256], .exactEqual, participantZero,
      [[.response, .civil, .provenance, .archiveSha256]]⟩,
    ⟨[.manifest, .civil, .zero, .tzdataSourceSha256], .exactEqual, participantZero,
      [[.response, .civil, .provenance, .tzdataSourceSha256]]⟩,
    ⟨[.manifest, .civil, .zero, .tzcodeSourceSha256], .exactEqual, participantZero,
      [[.response, .civil, .provenance, .tzcodeSourceSha256]]⟩,
    ⟨[.manifest, .civil, .zero, .tzifSha256], .exactEqual, participantZero,
      [[.response, .civil, .provenance, .tzifSha256]]⟩,
    ⟨[.manifest, .civil, .zero, .resolver], .exactEqual, participantZero,
      [[.response, .civil, .provenance, .resolver]]⟩,
    ⟨[.manifest, .civil, .zero, .pythonRuntime], .exactEqual, participantZero,
      [[.response, .civil, .provenance, .pythonRuntime]]⟩,
    ⟨[.manifest, .civil, .zero, .calendar], .exactEqual, participantZero,
      [[.response, .civil, .provenance, .calendar]]⟩,
    ⟨[.manifest, .civil, .zero, .utcConvention], .exactEqual, participantZero,
      [[.response, .civil, .provenance, .utcConvention]]⟩,
    ⟨[.manifest, .civil, .zero, .historicalAssurance], .exactEqual, participantZero,
      [[.response, .civil, .provenance, .historicalAssurance]]⟩,
    ⟨[.manifest, .civil, .one, .ianaVersion], .exactEqual, participantOne,
      [[.response, .civil, .provenance, .ianaVersion]]⟩,
    ⟨[.manifest, .civil, .one, .buildPolicy], .exactEqual, participantOne,
      [[.response, .civil, .provenance, .buildPolicy]]⟩,
    ⟨[.manifest, .civil, .one, .archiveSha256], .exactEqual, participantOne,
      [[.response, .civil, .provenance, .archiveSha256]]⟩,
    ⟨[.manifest, .civil, .one, .tzdataSourceSha256], .exactEqual, participantOne,
      [[.response, .civil, .provenance, .tzdataSourceSha256]]⟩,
    ⟨[.manifest, .civil, .one, .tzcodeSourceSha256], .exactEqual, participantOne,
      [[.response, .civil, .provenance, .tzcodeSourceSha256]]⟩,
    ⟨[.manifest, .civil, .one, .tzifSha256], .exactEqual, participantOne,
      [[.response, .civil, .provenance, .tzifSha256]]⟩,
    ⟨[.manifest, .civil, .one, .resolver], .exactEqual, participantOne,
      [[.response, .civil, .provenance, .resolver]]⟩,
    ⟨[.manifest, .civil, .one, .pythonRuntime], .exactEqual, participantOne,
      [[.response, .civil, .provenance, .pythonRuntime]]⟩,
    ⟨[.manifest, .civil, .one, .calendar], .exactEqual, participantOne,
      [[.response, .civil, .provenance, .calendar]]⟩,
    ⟨[.manifest, .civil, .one, .utcConvention], .exactEqual, participantOne,
      [[.response, .civil, .provenance, .utcConvention]]⟩,
    ⟨[.manifest, .civil, .one, .historicalAssurance], .exactEqual, participantOne,
      [[.response, .civil, .provenance, .historicalAssurance]]⟩,
    ⟨[.manifest, .ephemeris, .adapter], .exactEqual, exactValue,
      [[.response, .provenance, .adapter], [.provenance, .adapter]]⟩,
    ⟨[.manifest, .ephemeris, .binding], .exactEqual, exactValue,
      [[.response, .provenance, .binding], [.provenance, .binding]]⟩,
    ⟨[.manifest, .ephemeris, .library], .exactEqual, exactValue,
      [[.response, .provenance, .library], [.provenance, .library]]⟩,
    ⟨[.manifest, .ephemeris, .binarySha256], .exactEqual, exactValue,
      [[.response, .provenance, .binarySha256], [.provenance, .binarySha256]]⟩,
    ⟨[.manifest, .ephemeris, .bindingSourceSha256], .exactEqual, exactValue,
      [[.response, .provenance, .bindingSourceSha256], [.provenance, .bindingSourceSha256]]⟩,
    ⟨[.manifest, .ephemeris, .planetDataSha256], .exactEqual, exactValue,
      [[.response, .provenance, .planetDataSha256], [.provenance, .planetDataSha256]]⟩,
    ⟨[.manifest, .ephemeris, .moonDataSha256], .exactEqual, exactValue,
      [[.response, .provenance, .moonDataSha256], [.provenance, .moonDataSha256]]⟩,
    ⟨[.manifest, .ephemeris, .dataOrigin], .exactEqual, exactValue,
      [[.response, .provenance, .dataOrigin], [.provenance, .dataOrigin]]⟩,
    ⟨[.manifest, .ephemeris, .requestedFlags], .exactEqual, exactValue,
      [[.response, .provenance, .requestedFlags], [.provenance, .requestedFlags]]⟩,
    ⟨[.manifest, .ephemeris, .returnedFlags], .exactEqual, exactValue,
      [[.response, .provenance, .returnedFlags], [.provenance, .returnedFlags]]⟩,
    ⟨[.manifest, .ephemeris, .projection], .exactEqual, exactValue,
      [[.response, .provenance, .projection], [.provenance, .projection]]⟩,
    ⟨[.manifest, .ephemeris, .numericalPolicy], .exactEqual, exactValue,
      [[.response, .provenance, .numericalPolicy], [.provenance, .numericalPolicy]]⟩,
    ⟨[.manifest, .ephemeris, .timePolicy], .exactEqual, exactValue,
      [[.response, .provenance, .timePolicy], [.provenance, .timePolicy]]⟩,
    ⟨[.manifest, .ephemeris, .deltaTPolicy], .exactEqual, exactValue,
      [[.response, .provenance, .deltaTPolicy], [.provenance, .deltaTPolicy]]⟩,
    ⟨[.manifest, .ephemeris, .runtime], .exactEqual, exactValue,
      [[.response, .provenance, .runtime], [.provenance, .runtime]]⟩,
    ⟨[.manifest, .ephemeris, .sourceRepository], .expectedIdentitySubstitution, approvedRevision,
      [[.response, .provenance, .sourceRepository], [.provenance, .sourceRepository]]⟩,
    ⟨[.manifest, .ephemeris, .aceGitSha], .expectedIdentitySubstitution, approvedRevision,
      [[.response, .provenance, .sourceRevision], [.provenance, .sourceRevision]]⟩,
    ⟨[.manifest, .projection], .intentionallyAbsent, privateContext, []⟩,
    ⟨[.manifest, .methodology], .intentionallyAbsent, privateContext, []⟩,
    ⟨[.manifest, .methodologySha256], .intentionallyAbsent, privateContext, []⟩,
    ⟨[.manifest, .scoringProfile], .intentionallyAbsent, privateContext, []⟩,
    ⟨[.manifest, .scoringProfileSha256], .intentionallyAbsent, privateContext, []⟩,
    ⟨[.manifest, .numericalPolicy], .intentionallyAbsent, privateContext, []⟩,
    ⟨[.manifest, .inputSha256], .derivedRecompute, pairDigest, []⟩,
    ⟨[.manifest, .contextSha256], .intentionallyAbsent, privateContext, []⟩,
    ⟨[.manifest, .boundarySha256], .derivedRecompute, pairDigest, []⟩,
    ⟨[.manifest, .civilSha256], .derivedRecompute, pairDigest, []⟩,
    ⟨[.manifest, .natalSha256], .derivedRecompute, pairDigest, []⟩,
    ⟨[.manifest, .synastrySha256], .intentionallyAbsent, privateContext, []⟩,
    ⟨[.manifest, .factsSha256], .derivedRecompute, pairDigest, []⟩,
    ⟨[.manifest, .resultSha256], .derivedRecompute, pairDigest, []⟩]

/-- The rows of side `new`. -/
def newRows : List NewRow :=
  [⟨[.request, .civil, .date], .exactEqual, [[.selected, .raw, .date],
      [.facts, .civil, .localDate]]⟩,
    ⟨[.request, .civil, .fold], .exactEqual, [[.selected, .foldChoice],
      [.facts, .civil, .foldChoice]]⟩,
    ⟨[.request, .civil, .time], .derivedRecompute, [[.selected, .raw, .time],
      [.facts, .civil, .localTime]]⟩,
    ⟨[.request, .contractVersion], .expectedIdentitySubstitution, []⟩,
    ⟨[.request, .profile], .expectedIdentitySubstitution, []⟩,
    ⟨[.request, .schemaVersion], .expectedIdentitySubstitution, []⟩,
    ⟨[.request, .selectedPlace, .attribution], .exactEqual,
      [[.selected, .selectedPlace, .candidate, .attribution]]⟩,
    ⟨[.request, .selectedPlace, .displayName], .exactEqual,
      [[.selected, .selectedPlace, .candidate, .displayName]]⟩,
    ⟨[.request, .selectedPlace, .latitude], .exactEqual,
      [[.selected, .selectedPlace, .candidate, .latitude],
      [.facts, .boundary, .coordinates, .latitude],
      [.facts, .civil, .boundary, .coordinates, .latitude]]⟩,
    ⟨[.request, .selectedPlace, .longitude], .exactEqual,
      [[.selected, .selectedPlace, .candidate, .longitude],
      [.facts, .boundary, .coordinates, .longitude],
      [.facts, .civil, .boundary, .coordinates, .longitude]]⟩,
    ⟨[.request, .selectedPlace, .provider], .exactEqual,
      [[.selected, .selectedPlace, .candidate, .provider]]⟩,
    ⟨[.request, .selectedPlace, .query], .exactEqual, [[.selected, .raw, .placeQuery],
      [.selected, .selectedPlace, .searchRequest, .query]]⟩,
    ⟨[.request, .selectedPlace, .requestedLimit], .exactEqual,
      [[.selected, .selectedPlace, .searchRequest, .limit]]⟩,
    ⟨[.request, .selectedPlace, .resultCount], .exactEqual,
      [[.selected, .selectedPlace, .resultCount]]⟩,
    ⟨[.request, .selectedPlace, .schemaVersion], .expectedIdentitySubstitution,
      [[.selected, .selectedPlace, .schemaVersion]]⟩,
    ⟨[.request, .selectedPlace, .selectedIndex], .exactEqual,
      [[.selected, .selectedPlace, .selectedIndex]]⟩,
    ⟨[.request, .selectedPlace, .sourceId], .exactEqual,
      [[.selected, .selectedPlace, .candidate, .sourceId]]⟩,
    ⟨[.response, .authenticity], .expectedIdentitySubstitution, []⟩,
    ⟨[.response, .bodies, .zero, .binary64Hex], .exactEqual,
      [[.facts, .natal, .astronomy, .positions, .zero, .binary64Hex]]⟩,
    ⟨[.response, .bodies, .zero, .body], .exactEqual,
      [[.facts, .natal, .astronomy, .positions, .zero, .body]]⟩,
    ⟨[.response, .bodies, .zero, .decimalDegrees], .derivedRecompute,
      [[.facts, .natal, .astronomy, .positions, .zero, .longitude]]⟩,
    ⟨[.response, .bodies, .one, .binary64Hex], .exactEqual,
      [[.facts, .natal, .astronomy, .positions, .one, .binary64Hex]]⟩,
    ⟨[.response, .bodies, .one, .body], .exactEqual,
      [[.facts, .natal, .astronomy, .positions, .one, .body]]⟩,
    ⟨[.response, .bodies, .one, .decimalDegrees], .derivedRecompute,
      [[.facts, .natal, .astronomy, .positions, .one, .longitude]]⟩,
    ⟨[.response, .boundary, .schemaVersion], .exactEqual, [[.facts, .boundary, .schemaVersion],
      [.facts, .civil, .boundary, .schemaVersion]]⟩,
    ⟨[.response, .boundary, .outcome], .errorMapping, [[.facts, .boundary, .status],
      [.facts, .civil, .boundary, .status]]⟩,
    ⟨[.response, .boundary, .ianaZone], .exactEqual, [[.facts, .boundary, .tzid],
      [.facts, .civil, .boundary, .tzid]]⟩,
    ⟨[.response, .boundary, .provenance, .dataset], .exactEqual,
      [[.facts, .boundary, .provenance, .dataset],
      [.facts, .civil, .boundary, .provenance, .dataset], [.manifest, .boundary, .dataset]]⟩,
    ⟨[.response, .boundary, .provenance, .release], .exactEqual,
      [[.facts, .boundary, .provenance, .release],
      [.facts, .civil, .boundary, .provenance, .release], [.manifest, .boundary, .release]]⟩,
    ⟨[.response, .boundary, .provenance, .variant], .exactEqual,
      [[.facts, .boundary, .provenance, .variant],
      [.facts, .civil, .boundary, .provenance, .variant], [.manifest, .boundary, .variant]]⟩,
    ⟨[.response, .boundary, .provenance, .manifestSha256], .derivedRecompute,
      [[.facts, .boundary, .provenance, .manifestSha256],
      [.facts, .civil, .boundary, .provenance, .manifestSha256],
      [.manifest, .boundary, .manifestSha256]]⟩,
    ⟨[.response, .boundary, .provenance, .archiveSha256], .exactEqual,
      [[.facts, .boundary, .provenance, .archiveSha256],
      [.facts, .civil, .boundary, .provenance, .archiveSha256],
      [.manifest, .boundary, .archiveSha256]]⟩,
    ⟨[.response, .boundary, .provenance, .geometrySha256], .exactEqual,
      [[.facts, .boundary, .provenance, .geometrySha256],
      [.facts, .civil, .boundary, .provenance, .geometrySha256],
      [.manifest, .boundary, .geometrySha256]]⟩,
    ⟨[.response, .boundary, .provenance, .catalogSha256], .exactEqual,
      [[.facts, .boundary, .provenance, .catalogSha256],
      [.facts, .civil, .boundary, .provenance, .catalogSha256],
      [.manifest, .boundary, .catalogSha256]]⟩,
    ⟨[.response, .boundary, .provenance, .resolver], .exactEqual,
      [[.facts, .boundary, .provenance, .resolver],
      [.facts, .civil, .boundary, .provenance, .resolver], [.manifest, .boundary, .resolver]]⟩,
    ⟨[.response, .boundary, .provenance, .shapelyVersion], .exactEqual,
      [[.facts, .boundary, .provenance, .shapelyVersion],
      [.facts, .civil, .boundary, .provenance, .shapelyVersion],
      [.manifest, .boundary, .shapelyVersion]]⟩,
    ⟨[.response, .boundary, .provenance, .geosVersion], .exactEqual,
      [[.facts, .boundary, .provenance, .geosVersion],
      [.facts, .civil, .boundary, .provenance, .geosVersion], [.manifest, .boundary, .geosVersion]]⟩,
    ⟨[.response, .boundary, .provenance, .numpyVersion], .exactEqual,
      [[.facts, .boundary, .provenance, .numpyVersion],
      [.facts, .civil, .boundary, .provenance, .numpyVersion],
      [.manifest, .boundary, .numpyVersion]]⟩,
    ⟨[.response, .boundary, .provenance, .pythonVersion], .exactEqual,
      [[.facts, .boundary, .provenance, .pythonVersion],
      [.facts, .civil, .boundary, .provenance, .pythonVersion],
      [.manifest, .boundary, .pythonVersion]]⟩,
    ⟨[.response, .boundary, .provenance, .executionTarget], .exactEqual,
      [[.facts, .boundary, .provenance, .executionTarget],
      [.facts, .civil, .boundary, .provenance, .executionTarget],
      [.manifest, .boundary, .executionTarget]]⟩,
    ⟨[.response, .boundary, .provenance, .license], .exactEqual,
      [[.facts, .boundary, .provenance, .license],
      [.facts, .civil, .boundary, .provenance, .license], [.manifest, .boundary, .license]]⟩,
    ⟨[.response, .boundary, .provenance, .attribution], .exactEqual,
      [[.facts, .boundary, .provenance, .attribution],
      [.facts, .civil, .boundary, .provenance, .attribution], [.manifest, .boundary, .attribution]]⟩,
    ⟨[.response, .boundary, .provenance, .licenseUrl], .exactEqual,
      [[.facts, .boundary, .provenance, .licenseUrl],
      [.facts, .civil, .boundary, .provenance, .licenseUrl], [.manifest, .boundary, .licenseUrl]]⟩,
    ⟨[.response, .civil, .fold], .exactEqual, [[.selected, .foldChoice],
      [.facts, .civil, .foldChoice]]⟩,
    ⟨[.response, .civil, .offsetSeconds], .exactEqual, [[.facts, .civil, .offsetSeconds]]⟩,
    ⟨[.response, .civil, .resolution], .exactEqual, [[.facts, .civil, .resolution]]⟩,
    ⟨[.response, .civil, .utc], .derivedRecompute, [[.facts, .civil, .utc],
      [.facts, .natal, .astronomy, .utc]]⟩,
    ⟨[.response, .civil, .schemaVersion], .exactEqual, [[.facts, .civil, .schemaVersion]]⟩,
    ⟨[.response, .civil, .provenance, .ianaVersion], .exactEqual,
      [[.facts, .civil, .provenance, .ianaVersion], [.manifest, .civil, .zero, .ianaVersion],
      [.manifest, .civil, .one, .ianaVersion]]⟩,
    ⟨[.response, .civil, .provenance, .buildPolicy], .exactEqual,
      [[.facts, .civil, .provenance, .buildPolicy], [.manifest, .civil, .zero, .buildPolicy],
      [.manifest, .civil, .one, .buildPolicy]]⟩,
    ⟨[.response, .civil, .provenance, .archiveSha256], .exactEqual,
      [[.facts, .civil, .provenance, .archiveSha256], [.manifest, .civil, .zero, .archiveSha256],
      [.manifest, .civil, .one, .archiveSha256]]⟩,
    ⟨[.response, .civil, .provenance, .tzdataSourceSha256], .exactEqual,
      [[.facts, .civil, .provenance, .tzdataSourceSha256],
      [.manifest, .civil, .zero, .tzdataSourceSha256],
      [.manifest, .civil, .one, .tzdataSourceSha256]]⟩,
    ⟨[.response, .civil, .provenance, .tzcodeSourceSha256], .exactEqual,
      [[.facts, .civil, .provenance, .tzcodeSourceSha256],
      [.manifest, .civil, .zero, .tzcodeSourceSha256],
      [.manifest, .civil, .one, .tzcodeSourceSha256]]⟩,
    ⟨[.response, .civil, .provenance, .tzifSha256], .exactEqual,
      [[.facts, .civil, .provenance, .tzifSha256], [.manifest, .civil, .zero, .tzifSha256],
      [.manifest, .civil, .one, .tzifSha256]]⟩,
    ⟨[.response, .civil, .provenance, .resolver], .exactEqual,
      [[.facts, .civil, .provenance, .resolver], [.manifest, .civil, .zero, .resolver],
      [.manifest, .civil, .one, .resolver]]⟩,
    ⟨[.response, .civil, .provenance, .pythonRuntime], .exactEqual,
      [[.facts, .civil, .provenance, .pythonRuntime], [.manifest, .civil, .zero, .pythonRuntime],
      [.manifest, .civil, .one, .pythonRuntime]]⟩,
    ⟨[.response, .civil, .provenance, .calendar], .exactEqual,
      [[.facts, .civil, .provenance, .calendar], [.manifest, .civil, .zero, .calendar],
      [.manifest, .civil, .one, .calendar]]⟩,
    ⟨[.response, .civil, .provenance, .utcConvention], .exactEqual,
      [[.facts, .civil, .provenance, .utcConvention], [.manifest, .civil, .zero, .utcConvention],
      [.manifest, .civil, .one, .utcConvention]]⟩,
    ⟨[.response, .civil, .provenance, .historicalAssurance], .exactEqual,
      [[.facts, .civil, .provenance, .historicalAssurance],
      [.manifest, .civil, .zero, .historicalAssurance],
      [.manifest, .civil, .one, .historicalAssurance]]⟩,
    ⟨[.response, .civil, .limitations], .exactEqual, [[.facts, .civil, .limitations]]⟩,
    ⟨[.response, .civilInput, .date], .exactEqual, [[.selected, .raw, .date],
      [.facts, .civil, .localDate]]⟩,
    ⟨[.response, .civilInput, .fold], .exactEqual, [[.selected, .foldChoice],
      [.facts, .civil, .foldChoice]]⟩,
    ⟨[.response, .civilInput, .time], .derivedRecompute, [[.selected, .raw, .time],
      [.facts, .civil, .localTime]]⟩,
    ⟨[.response, .contractVersion], .expectedIdentitySubstitution, []⟩,
    ⟨[.response, .profile], .expectedIdentitySubstitution, []⟩,
    ⟨[.response, .provenance, .adapter], .exactEqual,
      [[.facts, .natal, .astronomy, .provenance, .adapter], [.manifest, .ephemeris, .adapter]]⟩,
    ⟨[.response, .provenance, .binding], .exactEqual,
      [[.facts, .natal, .astronomy, .provenance, .binding], [.manifest, .ephemeris, .binding]]⟩,
    ⟨[.response, .provenance, .library], .exactEqual,
      [[.facts, .natal, .astronomy, .provenance, .library], [.manifest, .ephemeris, .library]]⟩,
    ⟨[.response, .provenance, .binarySha256], .exactEqual,
      [[.facts, .natal, .astronomy, .provenance, .binarySha256],
      [.manifest, .ephemeris, .binarySha256]]⟩,
    ⟨[.response, .provenance, .bindingSourceSha256], .exactEqual,
      [[.facts, .natal, .astronomy, .provenance, .bindingSourceSha256],
      [.manifest, .ephemeris, .bindingSourceSha256]]⟩,
    ⟨[.response, .provenance, .planetDataSha256], .exactEqual,
      [[.facts, .natal, .astronomy, .provenance, .planetDataSha256],
      [.manifest, .ephemeris, .planetDataSha256]]⟩,
    ⟨[.response, .provenance, .moonDataSha256], .exactEqual,
      [[.facts, .natal, .astronomy, .provenance, .moonDataSha256],
      [.manifest, .ephemeris, .moonDataSha256]]⟩,
    ⟨[.response, .provenance, .dataOrigin], .exactEqual,
      [[.facts, .natal, .astronomy, .provenance, .dataOrigin],
      [.manifest, .ephemeris, .dataOrigin]]⟩,
    ⟨[.response, .provenance, .requestedFlags], .exactEqual,
      [[.facts, .natal, .astronomy, .provenance, .requestedFlags],
      [.manifest, .ephemeris, .requestedFlags]]⟩,
    ⟨[.response, .provenance, .returnedFlags], .exactEqual,
      [[.facts, .natal, .astronomy, .provenance, .returnedFlags],
      [.manifest, .ephemeris, .returnedFlags]]⟩,
    ⟨[.response, .provenance, .projection], .exactEqual,
      [[.facts, .natal, .astronomy, .provenance, .projection],
      [.manifest, .ephemeris, .projection]]⟩,
    ⟨[.response, .provenance, .numericalPolicy], .exactEqual,
      [[.facts, .natal, .astronomy, .provenance, .numericalPolicy],
      [.manifest, .ephemeris, .numericalPolicy]]⟩,
    ⟨[.response, .provenance, .timePolicy], .exactEqual,
      [[.facts, .natal, .astronomy, .provenance, .timePolicy],
      [.manifest, .ephemeris, .timePolicy]]⟩,
    ⟨[.response, .provenance, .deltaTPolicy], .exactEqual,
      [[.facts, .natal, .astronomy, .provenance, .deltaTPolicy],
      [.manifest, .ephemeris, .deltaTPolicy]]⟩,
    ⟨[.response, .provenance, .runtime], .exactEqual,
      [[.facts, .natal, .astronomy, .provenance, .runtime], [.manifest, .ephemeris, .runtime]]⟩,
    ⟨[.response, .provenance, .schemaVersion], .expectedIdentitySubstitution, []⟩,
    ⟨[.response, .provenance, .sourceRepository], .expectedIdentitySubstitution,
      [[.facts, .natal, .astronomy, .provenance, .sourceRepository],
      [.manifest, .ephemeris, .sourceRepository]]⟩,
    ⟨[.response, .provenance, .sourceRevision], .expectedIdentitySubstitution,
      [[.facts, .natal, .astronomy, .provenance, .aceGitSha], [.manifest, .ephemeris, .aceGitSha]]⟩,
    ⟨[.response, .provenance, .ephemerisSchema], .exactEqual,
      [[.facts, .natal, .astronomy, .schemaVersion]]⟩,
    ⟨[.response, .provenance, .ttJdBinary64], .exactEqual, [[.facts, .natal, .astronomy, .jdTtHex]]⟩,
    ⟨[.response, .provenance, .ut1JdBinary64], .exactEqual,
      [[.facts, .natal, .astronomy, .jdUt1Hex]]⟩,
    ⟨[.response, .provenance, .limitations], .exactEqual,
      [[.facts, .natal, .astronomy, .limitations]]⟩,
    ⟨[.response, .schemaVersion], .expectedIdentitySubstitution, []⟩,
    ⟨[.response, .selectedPlace, .attribution], .exactEqual,
      [[.selected, .selectedPlace, .candidate, .attribution]]⟩,
    ⟨[.response, .selectedPlace, .displayName], .exactEqual,
      [[.selected, .selectedPlace, .candidate, .displayName]]⟩,
    ⟨[.response, .selectedPlace, .latitude], .exactEqual,
      [[.selected, .selectedPlace, .candidate, .latitude],
      [.facts, .boundary, .coordinates, .latitude],
      [.facts, .civil, .boundary, .coordinates, .latitude]]⟩,
    ⟨[.response, .selectedPlace, .longitude], .exactEqual,
      [[.selected, .selectedPlace, .candidate, .longitude],
      [.facts, .boundary, .coordinates, .longitude],
      [.facts, .civil, .boundary, .coordinates, .longitude]]⟩,
    ⟨[.response, .selectedPlace, .provider], .exactEqual,
      [[.selected, .selectedPlace, .candidate, .provider]]⟩,
    ⟨[.response, .selectedPlace, .query], .exactEqual, [[.selected, .raw, .placeQuery],
      [.selected, .selectedPlace, .searchRequest, .query]]⟩,
    ⟨[.response, .selectedPlace, .requestedLimit], .exactEqual,
      [[.selected, .selectedPlace, .searchRequest, .limit]]⟩,
    ⟨[.response, .selectedPlace, .resultCount], .exactEqual,
      [[.selected, .selectedPlace, .resultCount]]⟩,
    ⟨[.response, .selectedPlace, .schemaVersion], .expectedIdentitySubstitution,
      [[.selected, .selectedPlace, .schemaVersion]]⟩,
    ⟨[.response, .selectedPlace, .selectedIndex], .exactEqual,
      [[.selected, .selectedPlace, .selectedIndex]]⟩,
    ⟨[.response, .selectedPlace, .sourceId], .exactEqual,
      [[.selected, .selectedPlace, .candidate, .sourceId]]⟩,
    ⟨[.response, .serialization], .expectedIdentitySubstitution, []⟩,
    ⟨[.provenance, .adapter], .exactEqual, [[.facts, .natal, .astronomy, .provenance, .adapter],
      [.manifest, .ephemeris, .adapter]]⟩,
    ⟨[.provenance, .binding], .exactEqual, [[.facts, .natal, .astronomy, .provenance, .binding],
      [.manifest, .ephemeris, .binding]]⟩,
    ⟨[.provenance, .library], .exactEqual, [[.facts, .natal, .astronomy, .provenance, .library],
      [.manifest, .ephemeris, .library]]⟩,
    ⟨[.provenance, .binarySha256], .exactEqual,
      [[.facts, .natal, .astronomy, .provenance, .binarySha256],
      [.manifest, .ephemeris, .binarySha256]]⟩,
    ⟨[.provenance, .bindingSourceSha256], .exactEqual,
      [[.facts, .natal, .astronomy, .provenance, .bindingSourceSha256],
      [.manifest, .ephemeris, .bindingSourceSha256]]⟩,
    ⟨[.provenance, .planetDataSha256], .exactEqual,
      [[.facts, .natal, .astronomy, .provenance, .planetDataSha256],
      [.manifest, .ephemeris, .planetDataSha256]]⟩,
    ⟨[.provenance, .moonDataSha256], .exactEqual,
      [[.facts, .natal, .astronomy, .provenance, .moonDataSha256],
      [.manifest, .ephemeris, .moonDataSha256]]⟩,
    ⟨[.provenance, .dataOrigin], .exactEqual,
      [[.facts, .natal, .astronomy, .provenance, .dataOrigin],
      [.manifest, .ephemeris, .dataOrigin]]⟩,
    ⟨[.provenance, .requestedFlags], .exactEqual,
      [[.facts, .natal, .astronomy, .provenance, .requestedFlags],
      [.manifest, .ephemeris, .requestedFlags]]⟩,
    ⟨[.provenance, .returnedFlags], .exactEqual,
      [[.facts, .natal, .astronomy, .provenance, .returnedFlags],
      [.manifest, .ephemeris, .returnedFlags]]⟩,
    ⟨[.provenance, .projection], .exactEqual,
      [[.facts, .natal, .astronomy, .provenance, .projection],
      [.manifest, .ephemeris, .projection]]⟩,
    ⟨[.provenance, .numericalPolicy], .exactEqual,
      [[.facts, .natal, .astronomy, .provenance, .numericalPolicy],
      [.manifest, .ephemeris, .numericalPolicy]]⟩,
    ⟨[.provenance, .timePolicy], .exactEqual,
      [[.facts, .natal, .astronomy, .provenance, .timePolicy],
      [.manifest, .ephemeris, .timePolicy]]⟩,
    ⟨[.provenance, .deltaTPolicy], .exactEqual,
      [[.facts, .natal, .astronomy, .provenance, .deltaTPolicy],
      [.manifest, .ephemeris, .deltaTPolicy]]⟩,
    ⟨[.provenance, .runtime], .exactEqual, [[.facts, .natal, .astronomy, .provenance, .runtime],
      [.manifest, .ephemeris, .runtime]]⟩,
    ⟨[.provenance, .schemaVersion], .expectedIdentitySubstitution, []⟩,
    ⟨[.provenance, .sourceRepository], .expectedIdentitySubstitution,
      [[.facts, .natal, .astronomy, .provenance, .sourceRepository],
      [.manifest, .ephemeris, .sourceRepository]]⟩,
    ⟨[.provenance, .sourceRevision], .expectedIdentitySubstitution,
      [[.facts, .natal, .astronomy, .provenance, .aceGitSha], [.manifest, .ephemeris, .aceGitSha]]⟩,
    ⟨[.provenance, .ephemerisSchema], .exactEqual, [[.facts, .natal, .astronomy, .schemaVersion]]⟩,
    ⟨[.provenance, .ttJdBinary64], .exactEqual, [[.facts, .natal, .astronomy, .jdTtHex]]⟩,
    ⟨[.provenance, .ut1JdBinary64], .exactEqual, [[.facts, .natal, .astronomy, .jdUt1Hex]]⟩,
    ⟨[.provenance, .limitations], .exactEqual, [[.facts, .natal, .astronomy, .limitations]]⟩,
    ⟨[.error, .code], .errorMapping, [[.facts, .boundary, .status],
      [.facts, .civil, .boundary, .status]]⟩,
    ⟨[.error, .contractVersion], .expectedIdentitySubstitution, []⟩,
    ⟨[.error, .schemaVersion], .expectedIdentitySubstitution, []⟩]

end AstroPassport
