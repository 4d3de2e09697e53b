import AstroPassport.Conformance.LeafMap
import AstroPassport.Contracts.Wire
import AstroPassport.Lib.JsonPlace
import AstroPassport.Science.Pipeline

set_option autoImplicit false

/-! # The comparator

`conformance/comparator.py`: `compare_pair`, which holds a pair of new exchanges against the
retained old records by the leaf map, `legacy_request` and `project_reference`, which derive the
request and the response that the old record stands for. A path is the list of its keys, since a key
with a `/` in it is refused.

Values are JSON values as Python has them, whose floats may be NaN and whose comparison is by
identity before it is by value; whether two NaNs are one object is left open (`oneNan`). `equal` is
the typed comparison of the source, `looselyEqual` the `==` it falls back to. What the comparator
takes from the standard library (clocks, instants, decimals, the digest of a manifest) is a record
of functions, `PyLibrary`. A row is dispatched on its classification and its last keys: `branch` is
the chain of tests of `compare`, read once and used by both walks over the map. -/

namespace AstroPassport

/-! ## Exceptions -/

/-- What the comparator raises. -/
inductive ConformanceRaise where
  | mismatch (category : String)
  | valueError
  | typeError
  | keyError
  | indexError
  | attributeError
  | escaped (e : Escape)
  deriving DecidableEq, Repr

/-- `if refused: raise Mismatch(category)`. -/
def refuse (category : String) (refused : Bool) : Except ConformanceRaise Unit :=
  if refused then .error (.mismatch category) else .ok ()

/-- The result of a validator; a `ValidationError` is a `ValueError`. -/
def Checked.orRaise {α : Type} : Checked α → Except ConformanceRaise α
  | .ok a => .ok a
  | .valueError => .error .valueError
  | .escaped e => .error (.escaped e)

/-! ## Python values -/

namespace JsonValue

/-- `value[name]`. -/
def item (name : String) : JsonValue → Except ConformanceRaise JsonValue
  | .obj ms =>
    match ms.lookup name with
    | some v => .ok v
    | none => .error .keyError
  | _ => .error .typeError

/-- The members that `**value` stands for. -/
def mapping : JsonValue → Except ConformanceRaise (List (String × JsonValue))
  | .obj ms => .ok ms
  | _ => .error .typeError

/-- The number that a value is compared by; `True` is 1. -/
def number? : JsonValue → Option ℚ
  | .bool b => some (if b then 1 else 0)
  | .int n => some n
  | .float (.finite x) => some x.value
  | _ => none

/-- The value is the float NaN. -/
def isNan : JsonValue → Bool
  | .float .nan => true
  | _ => false

section Equality

-- whether the NaNs of the values are one object, as `json.loads` makes them: a container compares its
-- items by identity first
variable (oneNan : Bool)

mutual

/-- `==`. -/
def looselyEqual : JsonValue → JsonValue → Bool
  | .null, .null => true
  | .str s, .str t => s == t
  | .arr xs, .arr ys => looselyEqualItems xs ys
  | .obj ms, .obj ns => ms.length == ns.length && looselyEqualMembers ms ns
  | .float (.inf s), .float (.inf t) => s == t
  | v, w =>
    match v.number?, w.number? with
    | some a, some b => a == b
    | _, _ => false

/-- `==` of two lists: of equal length, and item by item the same object or equal. -/
def looselyEqualItems : List JsonValue → List JsonValue → Bool
  | [], [] => true
  | x :: xs, y :: ys =>
    (oneNan && x.isNan && y.isNan || looselyEqual x y) && looselyEqualItems xs ys
  | _, _ => false

/-- Every member of the one is in the other, with the same object or an equal one. -/
def looselyEqualMembers : List (String × JsonValue) → List (String × JsonValue) → Bool
  | [], _ => true
  | (k, v) :: ms, ns =>
    (match ns.lookup k with
      | some w => oneNan && v.isNan && w.isNan || looselyEqual v w
      | none => false) && looselyEqualMembers ms ns

end

mutual

/-- `equal`: of one type, floats by their bits; dicts by `==`. The depth at which the interpreter's
    recursion limit ends it is not part of the model. -/
def equal : JsonValue → JsonValue → Bool
  | .null, .null => true
  | .bool a, .bool b => a == b
  | .int m, .int n => m == n
  | .float (.finite x), .float (.finite y) => x == y
  | .str s, .str t => s == t
  | .arr xs, .arr ys => equalItems xs ys
  | .obj ms, .obj ns => looselyEqual oneNan (.obj ms) (.obj ns)
  | _, _ => false

/-- `all(equal(x, y) for x, y in zip(left, right, strict=True))`. -/
def equalItems : List JsonValue → List JsonValue → Bool
  | [], [] => true
  | x :: xs, y :: ys => equal x y && equalItems xs ys
  | _, _ => false

end

end Equality

/-- The value is an object. -/
def isObj : JsonValue → Bool
  | .obj _ => true
  | _ => false

end JsonValue

/-! ## Leaves -/

/-- A flattened value: the leaf at each path. No two leaves have one path, so the dictionary is the
    list of its items. -/
abbrev Flat := List (List String × JsonValue)

/-- `flat[path]`. -/
def Flat.leaf (flat : Flat) (path : List String) : Except ConformanceRaise JsonValue :=
  match flat.lookup path with
  | some v => .ok v
  | none => .error .keyError

/-- The leaves of a part, under its key. -/
def Flat.within (key : String) (flat : Flat) : Flat := flat.map fun e => (key :: e.1, e.2)

/-- `"/" in k or "~" in k`. -/
def hasSeparator (k : String) : Bool := k.toList.any fun c => c == '/' || c == '~'

mutual

/-- `leaves`. -/
def leaves : JsonValue → Except ConformanceRaise Flat
  | .obj ms => do
    refuse "shape" (ms.isEmpty || ms.any fun m => hasSeparator m.1)
    leavesOfMembers ms
  | .arr items =>
    if items.any JsonValue.isObj then do
      refuse "shape" (!items.all JsonValue.isObj)
      leavesOfItems 0 items
    else .ok [([], .arr items)]
  | v => .ok [([], v)]

/-- The leaves below the members of an object, in their order. -/
def leavesOfMembers : List (String × JsonValue) → Except ConformanceRaise Flat
  | [] => .ok []
  | (k, v) :: ms => do
    let flat ← leaves v
    let rest ← leavesOfMembers ms
    .ok (flat.within k ++ rest)

/-- The leaves below the items of an array, of which the first has the index `i`. -/
def leavesOfItems (i : ℕ) : List JsonValue → Except ConformanceRaise Flat
  | [] => .ok []
  | v :: items => do
    let flat ← leaves v
    let rest ← leavesOfItems (i + 1) items
    .ok (flat.within (toString i) ++ rest)

end

/-- `set(flat) == expected`. -/
def Flat.sameKeys (flat : Flat) (expected : List (List String)) : Bool :=
  (flat.all fun e => expected.contains e.1) && expected.all fun p => (flat.map Prod.fst).contains p

/-! ## The library -/

/-- A parsed `datetime.time`; `zone` is what `isoformat` writes behind the clock of an aware one. -/
structure ParsedTime where
  time : PyTime
  zone : String

/-- `isoformat(timespec="microseconds")`. -/
def ParsedTime.isoformat (t : ParsedTime) : String := String.ofList (isoTime t.time.clock) ++ t.zone

/-- A parsed `Decimal`; a NaN or an infinity keeps its text, and a signaling one raises in a
    comparison. -/
inductive ParsedDecimal where
  | finite (d : PyDecimal)
  | special (text : String) (signals : Bool)

namespace ParsedDecimal

/-- `number != d`. -/
def differs (d : PyDecimal) : ParsedDecimal → Except ConformanceRaise Bool
  | .finite number => .ok (number.value != d.value)
  | .special _ signals => if signals then .error (.escaped .invalidOperation) else .ok true

/-- `format(number if number else 0, ".9f")`. -/
def text : ParsedDecimal → String
  | .finite number => String.ofList (degreesText number)
  | .special text _ => text

end ParsedDecimal

/-- Python's parsers of times, date-times and decimals, and the digest of a dump. Nothing is assumed
    of them but that each is a function of its argument. -/
structure PyLibrary where
  /-- Whether all NaNs are one object. -/
  oneNan : Bool
  /-- `dt.time.fromisoformat` of a string; no value for a `ValueError`. -/
  timeFromIso : String → Option ParsedTime
  /-- `dt.datetime.fromisoformat` of a string; no value for a `ValueError`. -/
  datetimeFromIso : String → Option PyDateTime
  /-- `Decimal(value)`. -/
  decimal : JsonValue → Except ConformanceRaise ParsedDecimal
  /-- `legacy_manifest_digest`; no value for the `ValueError` of a float that is not finite. -/
  legacyManifestDigest : JsonValue → Option String

namespace PyLibrary

variable (lib : PyLibrary)

/-- `dt.time.fromisoformat(value)`. -/
def time : JsonValue → Except ConformanceRaise ParsedTime
  | .str s =>
    match lib.timeFromIso s with
    | some t => .ok t
    | none => .error .valueError
  | _ => .error .typeError

/-- `dt.datetime.fromisoformat(value)`. -/
def datetime : JsonValue → Except ConformanceRaise PyDateTime
  | .str s =>
    match lib.datetimeFromIso s with
    | some d => .ok d
    | none => .error .valueError
  | _ => .error .typeError

/-- The digest of the manifest that is under a leaf. -/
def manifestDigest (v : JsonValue) : Except ConformanceRaise String :=
  match lib.legacyManifestDigest v with
  | some digest => .ok digest
  | none => .error .valueError

end PyLibrary

/-- `float.fromhex(value)`. -/
def floatFromHex : JsonValue → Except ConformanceRaise Binary64
  | .str s => (Binary64.fromHex s.toList).orRaise
  | _ => .error .typeError

/-! ## Constants -/

/-- `OLD_SHA`. -/
def oldSha : String := "18a3776bc1ab1dc52212b4de48a0df36709d72d2"

/-- `OLD_REPOSITORY`. -/
def oldRepository : String := "https://github.com/Attory/astrological-compatibility-engine"

/-- `NEW_REPOSITORY`. -/
def newRepository : String := "https://github.com/Attory/astro-passport"

/-- `OLD_MANIFEST`. -/
def oldManifest : String := "621f019c37089c68f7d9f48529965a7e697fd61d5112493966096d0ea74da3a9"

/-- `NEW_MANIFEST`. -/
def newManifest : String := "2721941b70ba791ab06052972bbe493d7c7758884dea7ba72f339fb939e106e9"

/-! ## The legacy request -/

/-- `legacy_request`. -/
def legacyRequest (lib : PyLibrary) (selected : JsonValue) : Except ConformanceRaise JsonValue := do
  let raw ← selected.item "raw"
  let place ← selected.item "selected_place"
  let placeQuery ← raw.item "place_query"
  let search ← place.item "search_request"
  let query ← search.item "query"
  refuse "legacy_query_coherence" (!placeQuery.looselyEqual lib.oneNan query)
  let candidate ← place.item "candidate"
  let date ← raw.item "date"
  let timeText ← raw.item "time"
  let time ← lib.time timeText
  let fold ← selected.item "fold_choice"
  let members ← candidate.mapping
  let limit ← search.item "limit"
  let index ← place.item "selected_index"
  let count ← place.item "result_count"
  let value : JsonValue := .obj
    [("schema_version", .str "AstroPassportRequest.v1"),
      ("contract_version", .str "1.0.0"),
      ("profile", .str "sun-moon.v1"),
      ("civil", .obj [("date", date), ("time", .str time.isoformat), ("fold", fold)]),
      ("selected_place", .obj (Dict.ofMembers
        ([("schema_version", .str "SelectedPlaceInput.v1")] ++ members ++
          [("query", query), ("requested_limit", limit), ("selected_index", index),
            ("result_count", count)])))]
  let _ ← (AstroPassportRequestV1.model.decode value).orRaise
  pure value

/-! ## How a row carries a value over -/

/-- `path.startswith(directory + "/")`. -/
def Path.under (directory path : Path) : Bool := directory.isPrefixOf path

/-- `path.endswith("/" + key)`. -/
def Path.endsWith (key : Key) (path : Path) : Bool := path.getLast? == some key

/-- How an old leaf becomes a new one. -/
inductive Rewrite where
  | keep
  | placeSchema
  | repository
  | revision
  | manifest
  | clock
  | instant
  | longitude
  | outcome
  deriving DecidableEq

/-- The branch of `compare_pair` that a row takes. -/
inductive OldBranch where
  | rewrite (r : Rewrite)
  | pairDigest
  | absent
  | unimplementedRule
  deriving DecidableEq

namespace OldRow

/-- `targets`, without those of the error envelope. -/
def linked (row : OldRow) : List Path := row.targets.filter fun t => !Path.under [.error] t

/-- `path.endswith("_sha256")`. -/
def endsInSha256 (row : OldRow) : Bool :=
  row.path.getLast?.any fun k => "_sha256".toList.isSuffixOf k.text.toList

/-- The branch of `compare` that a row of an old record takes. -/
def branch (row : OldRow) : OldBranch :=
  match row.classification with
  | .exactEqual => .rewrite .keep
  | .expectedIdentitySubstitution =>
    if row.path.endsWith .schemaVersion then .rewrite .placeSchema
    else if row.path.endsWith .sourceRepository then .rewrite .repository
    else if row.path.endsWith .aceGitSha then .rewrite .revision
    else .unimplementedRule
  | .derivedRecompute =>
    if row.path.endsWith .manifestSha256 then .rewrite .manifest
    else if row.path.endsWith .time || row.path.endsWith .localTime then .rewrite .clock
    else if row.path.endsWith .utc then .rewrite .instant
    else if row.path.endsWith .longitude then .rewrite .longitude
    else if Path.under [.manifest] row.path && row.endsInSha256 && row.linked.isEmpty then .pairDigest
    else .unimplementedRule
  | .errorMapping => .rewrite .outcome
  | .intentionallyAbsent => .absent
  | .notComparableWithReason =>
    if row.rule == "" || !row.linked.isEmpty || !Path.under [.manifest] row.path then
      .unimplementedRule
    else .rewrite .keep
  | .deliveryMetadataOnly => .unimplementedRule

end OldRow

/-- `"..."` as a value, and `value != "..."`. -/
def JsonValue.isNot (s : String) (v : JsonValue) : Bool := !v.looselyEqual false (.str s)

/-- `isinstance(value, str) and re.fullmatch(r"[0-9a-f]{64}", value)`. -/
def JsonValue.isDigestText : JsonValue → Bool
  | .str s => isDigest s
  | _ => false

/-- `wanted`, of a row in one of the branches that compare. -/
def Rewrite.wanted (lib : PyLibrary) (newRevision : String) (flat : Flat) (row : OldRow)
    (value : JsonValue) : Rewrite → Except ConformanceRaise JsonValue
  | .keep => .ok value
  | .placeSchema => do
    refuse row.classification.text (value.isNot "selected-place.v1")
    pure (.str "SelectedPlaceInput.v1")
  | .repository => do
    refuse row.classification.text (value.isNot oldRepository)
    pure (.str newRepository)
  | .revision => do
    refuse row.classification.text (value.isNot oldSha)
    pure (.str newRevision)
  | .manifest => do
    refuse row.classification.text (value.isNot oldManifest)
    pure (.str newManifest)
  | .clock => do
    let clock ← lib.time value
    refuse row.classification.text (clock.time.aware || clock.time.fold)
    pure (.str clock.isoformat)
  | .instant => do
    let instant ← lib.datetime value
    refuse row.classification.text (instant.utcoffset != some 0 || instant.fold)
    pure (.str (String.ofList (isoUtc instant.naive)))
  | .longitude => do
    let hex ← flat.leaf (Path.texts (row.path.dropLast ++ [Key.binary64Hex]))
    let raw ← floatFromHex hex
    let number ← lib.decimal value
    let exact ← (longitudeDecimal raw).orRaise
    let differs ← number.differs exact
    refuse row.classification.text differs
    pure (.str number.text)
  | .outcome => do
    refuse row.classification.text (value.isNot "resolved")
    pure (.str "unique")

/-- `wanted`, of any row. -/
def OldRow.wanted (lib : PyLibrary) (newRevision : String) (flat : Flat) (row : OldRow)
    (value : JsonValue) : Except ConformanceRaise JsonValue :=
  match row.branch with
  | .rewrite r => r.wanted lib newRevision flat row value
  | .pairDigest => do
    refuse row.classification.text (!value.isDigestText)
    pure value
  | .absent => do
    refuse row.classification.text
      (row.path.endsWith .reason && !value.looselyEqual lib.oneNan .null)
    refuse row.classification.text
      (row.path.endsWith .candidateIds && !value.looselyEqual lib.oneNan (.arr []))
    refuse "unimplemented_rule" (!row.linked.isEmpty)
    pure value
  | .unimplementedRule => .error (.mismatch "unimplemented_rule")

/-! ## Comparing a pair -/

/-- `int(key)`. -/
def Key.toInt : Key → Except ConformanceRaise ℕ
  | .zero => .ok 0
  | .one => .ok 1
  | _ => .error .valueError

namespace OldRow

/-- `index`: the participant that a row of a record is about. -/
def index (participant : ℕ) (row : OldRow) : Except ConformanceRaise ℕ :=
  match row.path with
  | .manifest :: .civil :: key :: _ => key.toInt
  | _ => .ok participant

/-- One row of one record. -/
def check (lib : PyLibrary) (newRevision : String) (newFlat : List Flat) (participant : ℕ)
    (flat : Flat) (row : OldRow) : Except ConformanceRaise Unit := do
  let value ← flat.leaf row.path.texts
  let index ← row.index participant
  let wanted ← row.wanted lib newRevision flat value
  row.linked.forM fun target => do
    let news ← (newFlat[index]?).elim (.error .indexError) .ok
    let leaf ← news.leaf target.texts
    refuse row.classification.text (!wanted.equal lib.oneNan leaf)

end OldRow

/-- A `Counter`. -/
abbrev Counts := List (Classification × ℕ)

/-- `counts[category] += 1`. -/
def Counts.count (category : Classification) (counts : Counts) : Counts :=
  Dict.set category ((counts.lookup category).getD 0 + 1) counts

/-- The paths of the old rows. -/
def expectedOld : List (List String) := oldRows.map fun row => row.path.texts

/-- The paths of the new rows of a response without an error. -/
def expectedNew : List (List String) :=
  (newRows.filter fun row => !Path.under [.error] row.path).map fun row => row.path.texts

/-- The leaves of one new exchange, which is valid and has the expected ones. -/
def newLeaves (newRevision : String) (request response : JsonValue) :
    Except ConformanceRaise Flat := do
  let _ ← (AstroPassportRequestV1.model.decode request).orRaise
  let _ ← (AstroPassportResponseV1.model.decode response).orRaise
  let provenance ← response.item "provenance"
  let flat ← leaves
    (.obj [("request", request), ("response", response), ("provenance", provenance)])
  refuse "new_leaf_coverage" (!flat.sameKeys expectedNew)
  let revision ← provenance.item "source_revision"
  refuse "EXPECTED_IDENTITY_SUBSTITUTION" (revision.isNot newRevision)
  pure flat

/-- One old record against the new leaves of both participants. -/
def compareRecord (lib : PyLibrary) (newRevision retainedManifestSha256 : String)
    (newFlat : List Flat) (request : JsonValue) (participant : ℕ) (record : JsonValue)
    (counts : Counts) : Except ConformanceRaise Counts := do
  let flat ← leaves record
  refuse "old_leaf_coverage" (!flat.sameKeys expectedOld)
  let manifest ← record.item "manifest"
  let digest ← lib.manifestDigest manifest
  refuse "retained_manifest_changed" (digest != retainedManifestSha256)
  let selected ← record.item "selected"
  let legacy ← legacyRequest lib selected
  refuse "legacy_request_mapping" (!legacy.looselyEqual lib.oneNan request)
  oldRows.foldlM (fun counts row => do
    row.check lib newRevision newFlat participant flat
    pure (counts.count row.classification)) counts

/-- The last loop over the rows. -/
def NewRow.check (row : NewRow) : Except ConformanceRaise Unit :=
  refuse "unclassified_new_value" (!Path.under [.error] row.path && row.sources.isEmpty &&
    row.classification != .expectedIdentitySubstitution)

/-- `compare_pair`; it takes two records, requests and responses. -/
def comparePair (lib : PyLibrary) (old requests responses : List PyJson)
    (newRevision retainedManifestSha256 : String) : Except ConformanceRaise Counts := do
  refuse "shape" (old.length != 2 || requests.length != 2 || responses.length != 2 ||
    !isRevision newRevision)
  let newFlat ← (requests.zip responses).mapM fun p =>
    newLeaves newRevision p.1.value p.2.value
  let counts ← ((old.zip requests).zipIdx).foldlM (fun counts p =>
    compareRecord lib newRevision retainedManifestSha256 newFlat p.1.2.value p.2 p.1.1.value counts) []
  newRows.forM NewRow.check
  pure counts

/-! ## The reference projection -/

namespace NewRow

/-- `sources`, without those of the pair manifest. -/
def retained (row : NewRow) : List Path := row.sources.filter fun s => !Path.under [.manifest] s

/-- `constants`. -/
def constants : List (Path × String) :=
  [([.response, .schemaVersion], "AstroPassportResponse.v1"),
    ([.response, .contractVersion], "1.0.0"),
    ([.response, .profile], "sun-moon.v1"),
    ([.response, .authenticity], "unsigned-direct-client-only"),
    ([.response, .serialization], "astro-passport-json.v1"),
    ([.response, .provenance, .schemaVersion], "AstroPassportProvenance.v1")]

/-- The branch of `project_reference` that a row takes. -/
def rewrite (row : NewRow) : Rewrite :=
  if row.path.endsWith .sourceRepository then .repository
  else if row.path.endsWith .sourceRevision then .revision
  else if row.path = [.response, .selectedPlace, .schemaVersion] then .placeSchema
  else if row.path = [.response, .boundary, .outcome] then .outcome
  else if row.path.endsWith .manifestSha256 then .manifest
  else if row.path = [.response, .civilInput, .time] then .clock
  else if row.path = [.response, .civil, .utc] then .instant
  else if row.path.endsWith .decimalDegrees then .longitude
  else .keep

/-- `value`, before it is rewritten. -/
def value (flat : Flat) (row : NewRow) : Except ConformanceRaise JsonValue :=
  match row.retained with
  | source :: _ => flat.leaf source.texts
  | [] => ((constants.lookup row.path).map JsonValue.str).elim (.error .keyError) .ok

end NewRow

/-- `value`, rewritten. -/
def Rewrite.projected (lib : PyLibrary) (newRevision : String) (value : JsonValue) :
    Rewrite → Except ConformanceRaise JsonValue
  | .keep => .ok value
  | .repository => .ok (.str newRepository)
  | .revision => .ok (.str newRevision)
  | .placeSchema => .ok (.str "SelectedPlaceInput.v1")
  | .outcome => do
    refuse "expected_success" (value.isNot "resolved")
    pure (.str "unique")
  | .manifest => do
    refuse "reference_manifest_identity" (value.isNot oldManifest)
    pure (.str newManifest)
  | .clock => do
    let clock ← lib.time value
    pure (.str clock.isoformat)
  | .instant => do
    let instant ← lib.datetime value
    refuse "reference_utc" (instant.utcoffset != some 0)
    pure (.str (String.ofList (isoUtc instant.naive)))
  | .longitude => do
    let number ← lib.decimal value
    pure (.str number.text)

/-- `setdefault` along all keys but the last, which is set. -/
def JsonValue.setPath (value : JsonValue) : List String → JsonValue → Except ConformanceRaise JsonValue
  | [], current => .ok current
  | [k], .obj ms => .ok (.obj (Dict.set k value ms))
  | [_], _ => .error .typeError
  | k :: path, .obj ms => do
    let child ← setPath value path ((ms.lookup k).getD (.obj []))
    pure (.obj (Dict.set k child ms))
  | _, _ => .error .attributeError

/-- One row of `project_reference`. -/
def NewRow.project (lib : PyLibrary) (newRevision : String) (flat : Flat) (projected : JsonValue)
    (row : NewRow) : Except ConformanceRaise JsonValue := do
  let value ← row.value flat
  let value ← row.rewrite.projected lib newRevision value
  value.setPath (Path.texts row.path.tail) projected

/-- The new rows below `response`. -/
def responseRows : List NewRow := newRows.filter fun row => Path.under [.response] row.path

/-- `project_reference`. -/
def projectReference (lib : PyLibrary) (record : JsonValue) (newRevision : String) :
    Except ConformanceRaise JsonValue := do
  let flat ← leaves record
  let projected ← responseRows.foldlM (NewRow.project lib newRevision flat) (.obj [])
  let bodies ← projected.item "bodies"
  let sun ← bodies.item "0"
  let moon ← bodies.item "1"
  let projected ← JsonValue.setPath (.arr [sun, moon]) ["bodies"] projected
  let _ ← (AstroPassportResponseV1.model.decode projected).orRaise
  pure projected

end AstroPassport
