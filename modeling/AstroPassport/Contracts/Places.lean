import AstroPassport.Contracts.Wire
import AstroPassport.Lib.SchemaPlace

set_option autoImplicit false

/-! # The leaves of the wire models

Where the request and the response have their leaves. Every member that is not a model of its own is
a leaf, arrays of scalars included; the bodies are an array of two records.

For each model there is the list of its members with the places below them, and the lemma that every
valid value has its leaves there and nowhere else when it is written (`placed`). The lists repeat
the names of the models, so that they can be compared with the paths of the leaf map, which are
written down in the same way; that the two agree is decided where the map is. A model inside a model
puts its name in front of its places (`under`), and the two bodies of a response stand under their
indices. The lemma for a record follows from those of its members, in their order, by the general
one of the library. -/

namespace AstroPassport

open JsonValue

/-- Members that are leaves. -/
def leafPlaces (names : List String) : List (String × List (List JsonStep)) :=
  names.map fun name => (name, [[]])

theorem foldModel_placed : foldModel.Placed [[]] := (Codec.placed_integer _).nullable rfl nofun

theorem sized_placed (low high : ℕ) : (sized low high).Placed [[]] := Codec.placed_text _

theorem bounded_placed (low high : ℤ) : (bounded low high).Placed [[]] := Codec.placed_integer _

theorem digest_placed : digest.Placed [[]] := Codec.placed_text _

/-! ## The request -/

/-- The places of `SelectedPlace`. -/
def SelectedPlace.places : List (String × List (List JsonStep)) :=
  leafPlaces ["schema_version", "provider", "source_id", "display_name", "latitude", "longitude",
    "attribution", "query", "requested_limit", "selected_index", "result_count"]

theorem SelectedPlace.placed : SelectedPlace.model.Placed (under places) := by
  refine .after (Codec.placed_object ?_) coherent
  exact .literal <| .field (Codec.placed_text _) _ <| .field (sized_placed ..) _ <|
    .field (sized_placed ..) _ <| .field (Codec.placed_number _) _ <|
    .field (Codec.placed_number _) _ <| .field ((sized_placed ..).nullable rfl nofun) _ <|
    .field (sized_placed ..) _ <| .field (bounded_placed ..) _ <| .field (bounded_placed ..) _ <|
    .field (bounded_placed ..) _ Fields.placed_done

/-- The places of `CivilInput`. -/
def CivilInput.places : List (String × List (List JsonStep)) :=
  leafPlaces ["date", "time", "fold"]

theorem CivilInput.placed : CivilInput.model.Placed (under places) := by
  refine .after (Codec.placed_object ?_) validClock
  exact .field (Codec.placed_text _) _ <| .field (Codec.placed_text _) _ <|
    .field foldModel_placed _ Fields.placed_done

/-- The places of a request. -/
def AstroPassportRequestV1.places : List (String × List (List JsonStep)) :=
  leafPlaces ["schema_version", "contract_version", "profile"] ++
    [("selected_place", under SelectedPlace.places), ("civil", under CivilInput.places)]

theorem AstroPassportRequestV1.placed : AstroPassportRequestV1.model.Placed (under places) := by
  refine Codec.placed_object ?_
  exact .literal <| .literal <| .literal <| .field SelectedPlace.placed _ <|
    .field CivilInput.placed _ Fields.placed_done

/-! ## The response -/

/-- The places of `BoundaryProvenance`. -/
def BoundaryProvenance.places : List (String × List (List JsonStep)) :=
  leafPlaces ["dataset", "release", "variant", "manifest_sha256", "archive_sha256",
    "geometry_sha256", "catalog_sha256", "resolver", "shapely_version", "geos_version",
    "numpy_version", "python_version", "execution_target", "license", "attribution", "license_url"]

theorem BoundaryProvenance.placed : BoundaryProvenance.model.Placed (under places) := by
  refine .after (Codec.placed_object ?_) pinned
  exact .literal <| .literal <| .literal <| .field digest_placed _ <| .field digest_placed _ <|
    .field digest_placed _ <| .field digest_placed _ <| .literal <| .literal <| .literal <|
    .literal <| .literal <| .literal <| .literal <| .field (sized_placed ..) _ <|
    .literal Fields.placed_done

/-- The places of `BoundaryFact`. -/
def BoundaryFact.places : List (String × List (List JsonStep)) :=
  leafPlaces ["schema_version", "outcome", "iana_zone"] ++
    [("provenance", under BoundaryProvenance.places)]

theorem BoundaryFact.placed : BoundaryFact.model.Placed (under places) := by
  refine Codec.placed_object ?_
  exact .literal <| .literal <| .field ((sized_placed ..).after _) _ <|
    .field BoundaryProvenance.placed _ Fields.placed_done

/-- The places of `CivilProvenance`. -/
def CivilTimeProvenance.places : List (String × List (List JsonStep)) :=
  leafPlaces ["iana_version", "build_policy", "archive_sha256", "tzdata_source_sha256",
    "tzcode_source_sha256", "tzif_sha256", "resolver", "python_runtime", "calendar",
    "utc_convention", "historical_assurance"]

theorem CivilTimeProvenance.placed : CivilTimeProvenance.model.Placed (under places) := by
  refine Codec.placed_object ?_
  exact .literal <| .literal <| .field digest_placed _ <| .field digest_placed _ <|
    .field digest_placed _ <| .field digest_placed _ <| .literal <| .literal <| .literal <|
    .literal <| .literal Fields.placed_done

/-- The places of `CivilFact`; its limitations are read as one value. -/
def CivilFact.places : List (String × List (List JsonStep)) :=
  leafPlaces ["schema_version", "utc", "offset_seconds", "resolution", "fold"] ++
    [("provenance", under CivilTimeProvenance.places), ("limitations", [[]])]

theorem CivilFact.placed : CivilFact.model.Placed (under places) := by
  refine .after (Codec.placed_object ?_) coherent
  exact .literal <| .field (Codec.placed_text _) _ <| .field (Codec.placed_integer _) _ <|
    .field Codec.placed_choice _ <| .field foldModel_placed _ <|
    .field CivilTimeProvenance.placed _ <| .field (Codec.placed_strings _) _ Fields.placed_done

/-- The places of a longitude. -/
def Longitude.places : List (String × List (List JsonStep)) :=
  leafPlaces ["body", "binary64_hex", "decimal_degrees"]

theorem Longitude.placed (body : String) : (Longitude.model body).Placed (under places) := by
  refine .after (Codec.placed_object ?_) representation
  exact .literal <| .field (sized_placed ..) _ <| .field (Codec.placed_text _) _ Fields.placed_done

namespace ProvenanceV1

/-- The flags are an array of scalars, so they are one leaf. -/
theorem returnedFlags_placed : returnedFlags.Placed [[]] where
  respects {v w} hsame := by
    have hpair := ((Codec.placed_intLiteral 2).pair (Codec.placed_intLiteral 2)).respects hsame
    exact congrArg (Checked.map fun _ => ()) hpair
  covers {v u} hread := by
    obtain ⟨flags, hflags, -⟩ := Checked.map_eq_ok.1 hread
    obtain ⟨x, y, rfl, hx, hy⟩ := Codec.pair_eq_ok.1 hflags
    refine covers_plain ?_
    cases x <;> cases y <;> first | rfl | cases hx | cases hy

/-- The places of `ProvenanceV1`; its limitations are read as one value. -/
def places : List (String × List (List JsonStep)) :=
  leafPlaces ["schema_version", "source_repository", "source_revision", "ephemeris_schema",
    "adapter", "binding", "library", "binary_sha256", "binding_source_sha256",
    "planet_data_sha256", "moon_data_sha256", "data_origin", "requested_flags", "returned_flags",
    "projection", "numerical_policy", "time_policy", "delta_t_policy", "runtime", "tt_jd_binary64",
    "ut1_jd_binary64", "limitations"]

theorem placed : ProvenanceV1.model.Placed (under places) := by
  refine Codec.placed_object ?_
  have hhex : finiteHex.Placed [[]] := (sized_placed ..).after _
  exact .literal <| .literal <| .field (Codec.placed_text _) _ <| .literal <| .literal <|
    .literal <| .literal <| .field digest_placed _ <| .field digest_placed _ <|
    .field digest_placed _ <| .field digest_placed _ <| .literal <|
    .constant (Codec.placed_intLiteral 2) <| .constant returnedFlags_placed <| .literal <|
    .literal <| .literal <| .literal <| .literal <| .field hhex _ <| .field hhex _ <|
    .field (Codec.placed_strings _) _ Fields.placed_done

end ProvenanceV1

namespace AstroPassportResponseV1

/-- The places of the response, given where the bodies have their leaves. -/
def placesWith (bodies : List (List JsonStep)) : List (String × List (List JsonStep)) :=
  leafPlaces ["schema_version", "contract_version", "profile"] ++
    [("selected_place", under SelectedPlace.places),
      ("civil_input", under CivilInput.places),
      ("boundary", under BoundaryFact.places),
      ("civil", under CivilFact.places),
      ("bodies", bodies),
      ("provenance", under ProvenanceV1.places)] ++
    leafPlaces ["serialization", "authenticity"]

/-- The places of a response, whose bodies are two longitudes. -/
def places : List (String × List (List JsonStep)) :=
  placesWith ((under Longitude.places).map (.index 0 :: ·) ++
    (under Longitude.places).map (.index 1 :: ·))

theorem fields_placed : AstroPassportResponseV1.fields.Placed places :=
  .literal <| .literal <| .literal <| .field SelectedPlace.placed _ <| .field CivilInput.placed _ <|
    .field BoundaryFact.placed _ <| .field CivilFact.placed _ <|
    .field ((Longitude.placed "sun").pair (Longitude.placed "moon")) _ <|
    .field ProvenanceV1.placed _ <| .literal <| .literal Fields.placed_done

theorem placed : AstroPassportResponseV1.model.Placed (under places) :=
  .after (Codec.placed_object fields_placed) coherent

end AstroPassportResponseV1

end AstroPassport
