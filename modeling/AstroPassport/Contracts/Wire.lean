import AstroPassport.Lib.IsoText
import AstroPassport.Lib.Schema
import AstroPassport.Science.Ephemeris.Contracts

set_option autoImplicit false

/-! # The wire models of `app/contracts.py`

The request and the response of the service as models of JSON values: members in the order of the
source, single-literal members without a field of their own, and each model's validators after its
members. A model of `app/contracts.py` whose members are those of a record of `app/science` has that
record as its type.

Each model has three parts. `fields` are its members with their names, bounds and patterns; the
validators have the source's names (`coherent`, `validClock`, `pinned`, `representation`); `model`
puts them together as a `Codec`, which brings with it that what is read is valid and that what is
valid is read back from its dump. The patterns are functions on characters, beside the regular
expression they stand for. At the end there is one response with all digests zero, valid at every
place, which the other modules use where they need a response (`valid_synthetic`,
`valid_withPlace`). -/

namespace AstroPassport

/-- `Digest`. -/
def digest : Codec String := .text isDigest

/-- `str = Field(min_length=low, max_length=high)`. -/
def sized (low high : ℕ) : Codec String :=
  .text fun s => decide (low ≤ s.length ∧ s.length ≤ high)

/-- `int = Field(ge=low, le=high)`. -/
def bounded (low high : ℤ) : Codec ℤ := .integer fun n => decide (low ≤ n ∧ n ≤ high)

/-- `Literal[0, 1] | None` with `exact_fold`. -/
def foldModel : Codec (Option ℤ) := .nullable (.integer fun n => decide (n = 0 ∨ n = 1)) nofun

/-! ## The selected place -/

/-- `[a-z0-9]`. -/
def isSlugChar (c : Char) : Bool := ('a' ≤ c && c ≤ 'z') || ('0' ≤ c && c ≤ '9')

/-- `[a-z0-9]*(?:-[a-z0-9]+)*`. -/
def isSlugTail : List Char → Bool
  | [] => true
  | '-' :: c :: cs => isSlugChar c && isSlugTail cs
  | c :: cs => isSlugChar c && isSlugTail cs

/-- `^[a-z][a-z0-9]*(?:-[a-z0-9]+)*$`. -/
def isProvider : List Char → Bool
  | [] => false
  | c :: cs => 'a' ≤ c && c ≤ 'z' && isSlugTail cs

/-- `SelectedPlace`, less its literal. -/
structure SelectedPlace where
  provider : String
  sourceId : String
  displayName : String
  latitude : Binary64
  longitude : Binary64
  attribution : Option String
  query : String
  requestedLimit : ℤ
  selectedIndex : ℤ
  resultCount : ℤ

namespace SelectedPlace

/-- The members of a selected place in the order of the class. -/
def fields :=
  Fields.literal "schema_version" "SelectedPlaceInput.v1" <|
  .field "provider" (.text fun s => isProvider s.toList && decide (s.length ≤ 64)) provider <|
  .field "source_id" (sized 1 256) sourceId <|
  .field "display_name" (sized 1 512) displayName <|
  .field "latitude" (.number (Binary64.inRange (-90) 90)) latitude <|
  .field "longitude" (.number (Binary64.inRange (-180) 180)) longitude <|
  .field "attribution" (.nullable (sized 1 512) nofun) attribution <|
  .field "query" (sized 1 256) query <|
  .field "requested_limit" (bounded 1 10) requestedLimit <|
  .field "selected_index" (bounded 0 9) selectedIndex <|
  .field "result_count" (bounded 1 10) resultCount .done

/-- `coherent`: the index is below the count, the count is within the limit, and no text is blank.
    -/
def coherent (p : SelectedPlace) : Checked Unit := do
  Checked.require (decide (p.selectedIndex < p.resultCount ∧ p.resultCount ≤ p.requestedLimit))
  Checked.require ([p.sourceId, p.displayName, p.query].all fun s => !(pyStrip s.toList).isEmpty)

/-- The validation of a selected place and its dump. -/
def model : Codec SelectedPlace :=
  (Codec.object fields (fun (a, b, c, d, e, f, g, h, i, j, _) => ⟨a, b, c, d, e, f, g, h, i, j⟩)
    (by decide) (fun _ => rfl) (fun _ => rfl)).after coherent

end SelectedPlace

/-! ## The request -/

/-- `CivilInput`. -/
structure CivilInput where
  date : String
  time : String
  fold : Option ℤ

namespace CivilInput

/-- The members of a civil input in the order of the class. -/
def fields :=
  Fields.field "date" (.text fun s => isDateText s.toList) date <|
  .field "time" (.text fun s => isClockText s.toList) time <|
  .field "fold" foldModel fold .done

/-- `valid_clock`: the date and the time are ones of the calendar, in the supported years. -/
def validClock (v : CivilInput) : Checked Unit := do
  let date ← Checked.ofOption (dateFromIso v.date.toList)
  let _ ← Checked.ofOption (clockFromIso v.time.toList)
  Checked.require (decide (1900 ≤ date.year ∧ date.year ≤ 2100))

/-- The validation of a civil input and its dump. -/
def model : Codec CivilInput :=
  (Codec.object fields (fun (a, b, c, _) => ⟨a, b, c⟩) (by decide) (fun _ => rfl)
    (fun _ => rfl)).after validClock

end CivilInput

/-- `AstroPassportRequestV1`, less its literals. -/
structure AstroPassportRequestV1 where
  selectedPlace : SelectedPlace
  civil : CivilInput

namespace AstroPassportRequestV1

/-- The members of a request in the order of the class. -/
def fields :=
  Fields.literal "schema_version" "AstroPassportRequest.v1" <|
  .literal "contract_version" "1.0.0" <|
  .literal "profile" "sun-moon.v1" <|
  .field "selected_place" SelectedPlace.model selectedPlace <|
  .field "civil" CivilInput.model civil .done

/-- The validation of a request and its dump. -/
def model : Codec AstroPassportRequestV1 :=
  .object fields (fun (a, b, _) => ⟨a, b⟩) (by decide) (fun _ => rfl) (fun _ => rfl)

theorem valid_iff {request : AstroPassportRequestV1} : model.valid request = true ↔
    SelectedPlace.model.valid request.selectedPlace = true ∧
      CivilInput.model.valid request.civil = true := by
  simp only [model, fields, Codec.object_valid, Fields.literal_valid, Fields.field_valid,
    Fields.done_valid, Bool.and_true, Bool.and_eq_true]

end AstroPassportRequestV1

/-! ## The boundary -/

namespace BoundaryProvenance

/-- The members of a boundary provenance in the order of the class. -/
def fields :=
  Fields.literal "dataset" "timezone-boundary-builder" <|
  .literal "release" "2026c" <|
  .literal "variant" "comprehensive-no-oceans" <|
  .field "manifest_sha256" digest manifestSha256 <|
  .field "archive_sha256" digest archiveSha256 <|
  .field "geometry_sha256" digest geometrySha256 <|
  .field "catalog_sha256" digest catalogSha256 <|
  .literal "resolver" "tbb-planar.v1" <|
  .literal "shapely_version" "2.1.2" <|
  .literal "geos_version" "3.13.1" <|
  .literal "numpy_version" "2.5.3" <|
  .literal "python_version" "3.12.14" <|
  .literal "execution_target" "linux-amd64" <|
  .literal "license" "ODbL-1.0" <|
  .field "attribution" (sized 1 512) attribution <|
  .literal "license_url" "https://opendatacommons.org/licenses/odbl/1-0/" .done

/-- `pinned`: the provenance is that of the accepted data set. -/
def pinned (p : BoundaryProvenance) : Checked Unit :=
  Checked.require (decide (p = pinnedProvenance))

/-- The validation of a boundary provenance and its dump. -/
def model : Codec BoundaryProvenance :=
  (Codec.object fields (fun (a, b, c, d, e, _) => ⟨a, b, c, d, e⟩) (by decide) (fun _ => rfl)
    (fun _ => rfl)).after pinned

/-- The value that is pinned passes. -/
theorem model_valid {p : BoundaryProvenance} (h : p.valid = true) (hpinned : p = pinnedProvenance) :
    model.valid p = true := by
  rw [model, Codec.after_valid]
  refine ⟨?_, Checked.require_eq_ok.2 (decide_eq_true hpinned)⟩
  simpa [fields, BoundaryProvenance.valid, digest, sized, and_assoc] using h

end BoundaryProvenance

/-- `BoundaryFact`, less its literals. -/
structure BoundaryFact where
  ianaZone : String
  provenance : BoundaryProvenance

namespace BoundaryFact

/-- The members of a boundary fact in the order of the class. -/
def fields :=
  Fields.literal "schema_version" "timezone-boundary.v1" <|
  .literal "outcome" "unique" <|
  .field "iana_zone"
    ((sized 1 128).after fun s => Checked.require (decide (s ∈ registeredZoneIds))) ianaZone <|
  .field "provenance" BoundaryProvenance.model provenance .done

/-- The validation of a boundary fact and its dump. -/
def model : Codec BoundaryFact :=
  .object fields (fun (a, b, _) => ⟨a, b⟩) (by decide) (fun _ => rfl) (fun _ => rfl)

theorem model_valid {tzid : String} {p : BoundaryProvenance}
    (hlength : 1 ≤ tzid.length ∧ tzid.length ≤ 128) (hregistered : tzid ∈ registeredZoneIds)
    (hp : BoundaryProvenance.model.valid p = true) : model.valid ⟨tzid, p⟩ = true := by
  simp only [model, fields, Codec.object_valid, Fields.literal_valid, Fields.field_valid,
    Fields.done_valid, hp, Bool.and_true, Codec.after_valid, sized, Codec.text_valid,
    decide_eq_true hlength, Checked.require_eq_ok, decide_eq_true hregistered, and_self]

end BoundaryFact

/-! ## The civil fact -/

namespace CivilTimeProvenance

/-- The members of `CivilProvenance`. -/
def fields :=
  Fields.literal "iana_version" "2026c" <|
  .literal "build_policy" "main-backzone-zone.tab-posix-slim.v1" <|
  .field "archive_sha256" digest archiveSha256 <|
  .field "tzdata_source_sha256" digest tzdataSourceSha256 <|
  .field "tzcode_source_sha256" digest tzcodeSourceSha256 <|
  .field "tzif_sha256" digest tzifSha256 <|
  .literal "resolver" "zoneinfo-roundtrip.v1" <|
  .literal "python_runtime" "CPython-3.12.14" <|
  .literal "calendar" "proleptic-gregorian" <|
  .literal "utc_convention" "posix-no-leap-seconds" <|
  .literal "historical_assurance" "pinned-dataset-rules-only" .done

/-- The validation of a civil provenance and its dump. -/
def model : Codec CivilTimeProvenance :=
  .object fields (fun (a, b, c, d, _) => ⟨a, b, c, d⟩) (by decide) (fun _ => rfl) (fun _ => rfl)

theorem model_valid {p : CivilTimeProvenance} (h : p.valid = true) : model.valid p = true := by
  simpa [model, fields, CivilTimeProvenance.valid, digest, and_assoc] using h

end CivilTimeProvenance

/-- The spelling of a resolution. -/
def Resolution.name : Resolution → String
  | .unique => "unique"
  | .explicitFold => "explicit_fold"

/-- `Literal["unique", "explicit_fold"]`. -/
def Resolution.model : Codec Resolution :=
  .choice [.unique, .explicitFold] name (by rintro (_ | _) <;> decide)
    (by rintro (_ | _) (_ | _) <;> decide)

/-- `CivilFact`, less its literal. -/
structure CivilFact where
  utc : String
  offsetSeconds : ℤ
  resolution : Resolution
  fold : Option ℤ
  provenance : CivilTimeProvenance
  limitations : List String

namespace CivilFact

/-- The members of a civil fact in the order of the class. -/
def fields :=
  Fields.literal "schema_version" "civil-time.v1" <|
  .field "utc" (.text fun s => isUtcText s.toList) utc <|
  .field "offset_seconds" (.integer fun n => decide (-86400 < n ∧ n < 86400)) offsetSeconds <|
  .field "resolution" Resolution.model resolution <|
  .field "fold" foldModel fold <|
  .field "provenance" CivilTimeProvenance.model provenance <|
  .field "limitations" (.strings fun l => decide (1 ≤ l.length ∧ l.length ≤ 2)) limitations .done

/-- `coherent`: the instant is one of the calendar, and there is a fold unless the clock was unique.
    -/
def coherent (v : CivilFact) : Checked Unit := do
  let _ ← Checked.ofOption (utcFromIso v.utc.toList)
  Checked.require ((v.resolution == .unique) == v.fold.isNone)

/-- The validation of a civil fact and its dump. -/
def model : Codec CivilFact :=
  (Codec.object fields (fun (a, b, c, d, e, f, _) => ⟨a, b, c, d, e, f⟩) (by decide)
    (fun _ => rfl) (fun _ => rfl)).after coherent

end CivilFact

/-! ## Longitudes -/

/-- `0|[1-9][0-9]?|[12][0-9]{2}|3[0-5][0-9]`, of digits. -/
def isDegrees : List ℕ → Bool
  | [_] => true
  | [a, _] => decide (1 ≤ a)
  | [a, b, _] => a == 1 || a == 2 || (a == 3 && decide (b ≤ 5))
  | _ => false

/-- `^(?:0|[1-9][0-9]?|[12][0-9]{2}|3[0-5][0-9])\.[0-9]{9}$`. -/
def isDegreesText (cs : List Char) : Bool :=
  match readDecimal cs with
  | some (neg, int, fraction) => !neg && isDegrees int && fraction.length == 9
  | none => false

/-- `Decimal(text)`, of a plain decimal. -/
def plainDecimal (s : String) : Option PyDecimal := (readDecimal s.toList).map .ofParts

/-- `Longitude`, less the name of the body. -/
structure Longitude where
  binary64Hex : String
  decimalDegrees : String

namespace Longitude

/-- The members of `SunLongitude` and of `MoonLongitude`. -/
def fields (body : String) :=
  Fields.literal "body" body <|
  .field "binary64_hex" (sized 8 32) binary64Hex <|
  .field "decimal_degrees" (.text fun s => isDegreesText s.toList) decimalDegrees .done

/-- `representation`: the float is spelt as `float.hex` spells it, and the decimal is its
    projection. -/
def representation (v : Longitude) : Checked Unit := do
  let value ← Binary64.fromHex v.binary64Hex.toList
  Checked.require (value.onCircle && decide (value.hex = v.binary64Hex.toList))
  let decimal ← Checked.ofOption (plainDecimal v.decimalDegrees)
  let projected ← longitudeDecimal value
  Checked.require (decide (decimal.value = projected.value))

/-- The validation of a longitude and its dump. -/
def model (body : String) : Codec Longitude :=
  (Codec.object (fields body) (fun (a, b, _) => ⟨a, b⟩) (show ["body", "binary64_hex", "decimal_degrees"].Nodup by decide) (fun _ => rfl)
    (fun _ => rfl)).after representation

end Longitude

/-! ## The provenance -/

/-- `ProvenanceV1`, less its literals. -/
structure ProvenanceV1 where
  sourceRevision : String
  binarySha256 : String
  bindingSourceSha256 : String
  planetDataSha256 : String
  moonDataSha256 : String
  ttJdBinary64 : String
  ut1JdBinary64 : String
  limitations : List String

namespace ProvenanceV1

/-- `str = Field(min_length=8, max_length=32)` with `finite_hex`. -/
def finiteHex : Codec String := (sized 8 32).after julianDate

/-- `tuple[Literal[2], Literal[2]]` with `exact_returned`. -/
def returnedFlags : Codec Unit where
  decode v := ((Codec.pair (.intLiteral 2) (.intLiteral 2)).decode v).map fun _ => ()
  encode _ := (Codec.pair (.intLiteral 2) (.intLiteral 2)).encode ((), ())
  valid _ := true
  decode_encode _ := rfl
  valid_of_decode _ := rfl

/-- The members of a provenance in the order of the class. -/
def fields :=
  Fields.literal "schema_version" "AstroPassportProvenance.v1" <|
  .literal "source_repository" "https://github.com/Attory/astro-passport" <|
  .field "source_revision" (.text isRevision) sourceRevision <|
  .literal "ephemeris_schema" "ephemeris.v1" <|
  .literal "adapter" "swiss-isolated.v1" <|
  .literal "binding" "pysweph-2.10.3.6" <|
  .literal "library" "2.10.03" <|
  .field "binary_sha256" digest binarySha256 <|
  .field "binding_source_sha256" digest bindingSourceSha256 <|
  .field "planet_data_sha256" digest planetDataSha256 <|
  .field "moon_data_sha256" digest moonDataSha256 <|
  .literal "data_origin" "DE441" <|
  .constant "requested_flags" (.intLiteral 2) <|
  .constant "returned_flags" returnedFlags <|
  .literal "projection" "geocentric-tropical-apparent-ecliptic-of-date" <|
  .literal "numerical_policy" "binary64-to-decimal-9dp-half-even.v1" <|
  .literal "time_policy" "pinned-leaps-2016-pre1972-ut1-proxy.v1" <|
  .literal "delta_t_policy" "swiss-2.10.03-auto-model-tidal-DE441" <|
  .literal "runtime" "CPython-3.12.14-Linux-x86_64" <|
  .field "tt_jd_binary64" finiteHex ttJdBinary64 <|
  .field "ut1_jd_binary64" finiteHex ut1JdBinary64 <|
  .field "limitations" (.strings fun l => decide (1 ≤ l.length ∧ l.length ≤ 2)) limitations .done

/-- The validation of a provenance and its dump. -/
def model : Codec ProvenanceV1 :=
  .object fields (fun (a, b, c, d, e, f, g, h, _) => ⟨a, b, c, d, e, f, g, h⟩) (by decide)
    (fun _ => rfl) (fun _ => rfl)

end ProvenanceV1

/-! ## The response -/

/-- `AstroPassportResponseV1`, less its literals. -/
structure AstroPassportResponseV1 where
  selectedPlace : SelectedPlace
  civilInput : CivilInput
  boundary : BoundaryFact
  civil : CivilFact
  bodies : Longitude × Longitude
  provenance : ProvenanceV1

namespace AstroPassportResponseV1

/-- The members of a response in the order of the class. -/
def fields :=
  Fields.literal "schema_version" "AstroPassportResponse.v1" <|
  .literal "contract_version" "1.0.0" <|
  .literal "profile" "sun-moon.v1" <|
  .field "selected_place" SelectedPlace.model selectedPlace <|
  .field "civil_input" CivilInput.model civilInput <|
  .field "boundary" BoundaryFact.model boundary <|
  .field "civil" CivilFact.model civil <|
  .field "bodies" (.pair (Longitude.model "sun") (Longitude.model "moon")) bodies <|
  .field "provenance" ProvenanceV1.model provenance <|
  .literal "serialization" "astro-passport-json.v1" <|
  .literal "authenticity" "unsigned-direct-client-only" .done

/-- `expected` in `coherent`. -/
def expectedLimitations (year : ℕ) : List String :=
  ["modelled-ut1-not-measured-earth-orientation"] ++
    if year < 1972 then ["pre1972-proleptic-utc-used-as-ut1-proxy"]
    else if 2017 ≤ year then ["leap-table-frozen-after-2016-not-a-future-prediction"]
    else []

/-- `datetime.fromisoformat(self.civil_input.date + "T" + self.civil_input.time)`. -/
def civilFromIso (v : CivilInput) : Option NaiveDateTime := do
  let date ← dateFromIso v.date.toList
  let time ← clockFromIso v.time.toList
  some ⟨date, time⟩

/-- The order of the bodies is that of their models. -/
def coherent (v : AstroPassportResponseV1) : Checked Unit := do
  let civil ← Checked.ofOption (civilFromIso v.civilInput)
  let utc ← Checked.ofOption (utcFromIso v.civil.utc.toList)
  let shifted ← Checked.orOverflow (utc.addSeconds v.civil.offsetSeconds)
  Checked.require (decide (shifted = civil))
  Checked.require (decide (v.civil.fold = v.civilInput.fold))
  Checked.require (decide (v.civilInput.time.toList = isoTime civil.time))
  Checked.require (decide (v.civil.limitations = limitationsFor civil.date))
  Checked.require (decide (v.provenance.limitations = expectedLimitations utc.date.year))

/-- The validation of a response and its dump. -/
def model : Codec AstroPassportResponseV1 :=
  (Codec.object fields (fun (a, b, c, d, e, f, _) => ⟨a, b, c, d, e, f⟩) (by decide)
    (fun _ => rfl) (fun _ => rfl)).after coherent

theorem valid_iff {v : AstroPassportResponseV1} : model.valid v = true ↔
    SelectedPlace.model.valid v.selectedPlace = true ∧ CivilInput.model.valid v.civilInput = true ∧
      BoundaryFact.model.valid v.boundary = true ∧ CivilFact.model.valid v.civil = true ∧
      ((Longitude.model "sun").valid v.bodies.1 = true ∧
        (Longitude.model "moon").valid v.bodies.2 = true) ∧
      ProvenanceV1.model.valid v.provenance = true ∧ v.coherent = .ok () := by
  simp only [model, fields, Codec.after_valid, Codec.object_valid, Fields.literal_valid,
    Fields.field_valid, Fields.done_valid, Codec.pair_valid, Bool.and_true, Bool.and_eq_true,
    and_assoc]

/-- The place is checked on its own, so another one that passes may stand in its place. -/
theorem valid_withPlace {v : AstroPassportResponseV1} {place : SelectedPlace}
    (h : model.valid v = true) (hplace : SelectedPlace.model.valid place = true) :
    model.valid { v with selectedPlace := place } = true := by
  obtain ⟨-, hrest⟩ := valid_iff.1 h
  exact valid_iff.2 ⟨hplace, hrest⟩

end AstroPassportResponseV1

/-! ## A response of a synthetic request -/

/-- A digest of zeros. -/
def zeroDigest : String := "0000000000000000000000000000000000000000000000000000000000000000"

theorem isDigest_zeroDigest : isDigest zeroDigest = true := by decide

/-- A revision of zeros. -/
def zeroRevision : String := "0000000000000000000000000000000000000000"

/-- The response whose Sun is at 10 and whose Moon is at 20 degrees. -/
def synthetic : AstroPassportResponseV1 where
  selectedPlace :=
    ⟨"synthetic", "synthetic", "Not a person", .ofRat (1 / 8), .ofRat (1 / 4), none, "test", 1, 0, 1⟩
  civilInput := ⟨"2000-01-02", "03:04:05.000000", none⟩
  boundary := ⟨"Africa/Abidjan", pinnedProvenance⟩
  civil := ⟨"2000-01-02T03:04:05.000000Z", 0, .unique, none,
    ⟨zeroDigest, zeroDigest, zeroDigest, zeroDigest⟩,
    ["modern-geography-not-date-specific-jurisdiction"]⟩
  bodies := (⟨"0x1.4000000000000p+3", "10.000000000"⟩, ⟨"0x1.4000000000000p+4", "20.000000000"⟩)
  provenance := ⟨zeroRevision, zeroDigest, zeroDigest, zeroDigest, zeroDigest,
    "0x1.2b42c80000000p+21", "0x1.2b42c80000000p+21",
    ["modelled-ut1-not-measured-earth-orientation"]⟩

theorem valid_synthetic : AstroPassportResponseV1.model.valid synthetic = true := by
  have hboundary : BoundaryFact.model.valid synthetic.boundary = true :=
    BoundaryFact.model_valid (by decide) (List.mem_cons_self ..)
      (BoundaryProvenance.model_valid pinnedProvenance_valid rfl)
  have hcivil : CivilFact.model.valid synthetic.civil = true := by decide
  have hprovenance : ProvenanceV1.model.valid synthetic.provenance = true := by decide +kernel
  rw [AstroPassportResponseV1.valid_iff]
  refine ⟨?_, ?_, hboundary, hcivil, ?_, hprovenance, ?_⟩
  all_goals decide +kernel

end AstroPassport
