import AstroPassport.Conformance.Flatten
import AstroPassport.Contracts.Places

set_option autoImplicit false

/-! # Links of the leaf map

What the table of rows says once and for all, by evaluation. The two walks over it agree: the first
retained source of a `/response` row is an old row that names it as a target and takes the same
branch (`linked_response`). The `/response` rows are the leaves of the response model, with the
bodies under their indices, and the rows behind a legacy request are linked to its leaves.

`compare_pair` walks over the old rows and checks every target of each; `project_reference` walks
over the new rows and reads the first source of each. Nothing in the code makes the two walks visit
the same links, it is the table that does, and so the agreement is decided on the table and used for
every pair of records. The leaves of the models are listed here in the form the table has them, each
list with the lemma that it is the list of the model (`under_requestMembers`,
`under_responseMembers`); nothing else of the models is needed later. -/

namespace AstroPassport

open JsonValue

/-- The place of a path, of keys only. -/
def Path.place (p : Path) : List JsonStep := keys p.texts

/-! ## The leaves of the models -/

/-- Keys in a directory. -/
def inside (directory : Path) (names : List Key) : List Path := names.map fun k => directory ++ [k]

/-- The keys of a selected place. -/
def placeKeys : List Key :=
  [.schemaVersion, .provider, .sourceId, .displayName, .latitude, .longitude, .attribution, .query,
    .requestedLimit, .selectedIndex, .resultCount]

/-- The leaves of a request, in the order of the model. -/
def requestPaths : List Path :=
  inside [] [.schemaVersion, .contractVersion, .profile] ++ inside [.selectedPlace] placeKeys ++
    inside [.civil] [.date, .time, .fold]

theorem under_requestMembers :
    under AstroPassportRequestV1.places = requestPaths.map Path.place := rfl

/-- The leaves of a response, in the order of the model. -/
def responsePaths : List Path :=
  inside [] [.schemaVersion, .contractVersion, .profile] ++ inside [.selectedPlace] placeKeys ++
    inside [.civilInput] [.date, .time, .fold] ++
    inside [.boundary] [.schemaVersion, .outcome, .ianaZone] ++
    inside [.boundary, .provenance]
      [.dataset, .release, .variant, .manifestSha256, .archiveSha256, .geometrySha256,
        .catalogSha256, .resolver, .shapelyVersion, .geosVersion, .numpyVersion, .pythonVersion,
        .executionTarget, .license, .attribution, .licenseUrl] ++
    inside [.civil] [.schemaVersion, .utc, .offsetSeconds, .resolution, .fold] ++
    inside [.civil, .provenance]
      [.ianaVersion, .buildPolicy, .archiveSha256, .tzdataSourceSha256, .tzcodeSourceSha256,
        .tzifSha256, .resolver, .pythonRuntime, .calendar, .utcConvention, .historicalAssurance] ++
    inside [.civil] [.limitations] ++
    inside [.bodies, .zero] [.body, .binary64Hex, .decimalDegrees] ++
    inside [.bodies, .one] [.body, .binary64Hex, .decimalDegrees] ++
    inside [.provenance]
      [.schemaVersion, .sourceRepository, .sourceRevision, .ephemerisSchema, .adapter, .binding,
        .library, .binarySha256, .bindingSourceSha256, .planetDataSha256, .moonDataSha256,
        .dataOrigin, .requestedFlags, .returnedFlags, .projection, .numericalPolicy, .timePolicy,
        .deltaTPolicy, .runtime, .ttJdBinary64, .ut1JdBinary64, .limitations] ++
    inside [] [.serialization, .authenticity]

/-- The leaves of the bodies as an object of two, under the indices. -/
def bodiesByIndex : List (String × List (List JsonStep)) :=
  [("0", under Longitude.places), ("1", under Longitude.places)]

theorem under_responseMembers :
    under (AstroPassportResponseV1.placesWith (under bodiesByIndex)) =
      responsePaths.map Path.place := rfl

/-! ## The rows -/

theorem responseRows_tail : responseRows.all (fun row => responsePaths.contains row.path.tail &&
    row.path == .response :: row.path.tail) = true := by
  decide

theorem responsePaths_rows : responsePaths.all (fun p =>
    responseRows.any fun row => row.path == .response :: p) = true := by
  decide

/-- A row of an old leaf outside of the pair manifest links it to a new leaf, in one branch. -/
def OldRow.links (source target : Path) (r : Rewrite) (row : OldRow) : Bool :=
  row.path == source && row.linked.contains target && row.branch == .rewrite r &&
    !Path.under [.manifest] source

/-- The two walks agree on every row of the response that has a retained source. -/
theorem linked_response : responseRows.all (fun row =>
    match row.retained with
    | source :: _ => oldRows.any (OldRow.links source row.path row.rewrite)
    | [] => row.rewrite == .keep && (NewRow.constants.lookup row.path).isSome) = true := by
  decide

/-- The old leaves that a legacy request is made of, each with its place in the request and how it
    gets there. -/
def requestSources : List (Path × Path × Rewrite) :=
  [([.selected, .raw, .date], [.civil, .date], .keep),
    ([.selected, .raw, .time], [.civil, .time], .clock),
    ([.selected, .foldChoice], [.civil, .fold], .keep),
    ([.selected, .selectedPlace, .candidate, .provider], [.selectedPlace, .provider], .keep),
    ([.selected, .selectedPlace, .candidate, .sourceId], [.selectedPlace, .sourceId], .keep),
    ([.selected, .selectedPlace, .candidate, .displayName], [.selectedPlace, .displayName], .keep),
    ([.selected, .selectedPlace, .candidate, .latitude], [.selectedPlace, .latitude], .keep),
    ([.selected, .selectedPlace, .candidate, .longitude], [.selectedPlace, .longitude], .keep),
    ([.selected, .selectedPlace, .candidate, .attribution], [.selectedPlace, .attribution], .keep),
    ([.selected, .selectedPlace, .searchRequest, .query], [.selectedPlace, .query], .keep),
    ([.selected, .selectedPlace, .searchRequest, .limit], [.selectedPlace, .requestedLimit], .keep),
    ([.selected, .selectedPlace, .selectedIndex], [.selectedPlace, .selectedIndex], .keep),
    ([.selected, .selectedPlace, .resultCount], [.selectedPlace, .resultCount], .keep)]

/-- The leaves of a request that are literals of its model. -/
def requestConstants : List Path :=
  [[.schemaVersion], [.contractVersion], [.profile], [.selectedPlace, .schemaVersion]]

theorem requestPaths_sources : requestPaths.all (fun p =>
    requestConstants.contains p || requestSources.any fun s => s.2.1 == p) = true := by
  decide

theorem linked_request : requestSources.all (fun s =>
    oldRows.any (OldRow.links s.1 (.request :: s.2.1) s.2.2)) = true := by
  decide

end AstroPassport
