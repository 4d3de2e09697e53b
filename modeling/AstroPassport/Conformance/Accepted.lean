import AstroPassport.Conformance.Matched
import AstroPassport.Conformance.Nested
import AstroPassport.Conformance.TypedEqual

set_option autoImplicit false

/-! # A pair that is accepted

The pair of the comparator's own test: a response, the request it answers, and an old record that
keeps at every leaf what the map links it to. Of each row it is decided on paths alone that its
leaves repeat one leaf of the response (`checks_oldRows`), so no text is compared with a text.

The pair is there to show that something is accepted at all, through every one of the rows and not
through an abbreviated map. It is built from the map: the trees of the request, of the response and
of the record are nested from the paths of the rows, and the values at the leaves are those of a few
leaves of the response (`syntheticLeaf`). That the trees have exactly the leaves of the map is
decided once on paths; that a row passes is proved for each way a row can carry a value over
(`wanted_kept`, `wanted_absent`), and `comparePair_synthetic` runs the comparison to its end. -/

namespace AstroPassport

open JsonValue

/-! ## When a comparison returns -/

/-- A loop of checks that counts returns when each check does. -/
theorem foldlM_of_checks {α β ε : Type} {check : α → Except ε Unit} {count : β → α → β} {xs : List α}
    (h : ∀ x ∈ xs, check x = .ok ()) (b : β) :
    ∃ c, xs.foldlM (fun b x => do check x; pure (count b x)) b = .ok c := by
  induction xs generalizing b with
  | nil => exact ⟨b, rfl⟩
  | cons x xs ih =>
      rw [List.forall_mem_cons] at h
      obtain ⟨c, hc⟩ := ih h.2 (count b x)
      refine ⟨c, ?_⟩
      rw [List.foldlM_cons, bind_of_eq_ok (a := count b x)]
      · exact hc
      · rw [bind_of_eq_ok h.1]
        rfl

theorem Flat.sameKeys_of_perm {flat : Flat} {expected : List (List String)}
    (h : (flat.map Prod.fst).Perm expected) : flat.sameKeys expected = true := by
  rw [Flat.sameKeys, Bool.and_eq_true, List.all_eq_true, List.all_eq_true]
  constructor
  · intro e he
    exact List.contains_iff_mem.2 (h.mem_iff.1 (List.mem_map_of_mem he))
  · intro p hp
    exact List.contains_iff_mem.2 (h.mem_iff.2 hp)

section Returning

variable {lib : PyLibrary} {newRevision retained : String}

theorem refuse_not {p : Bool} (h : p = true) (category : String) : refuse category (!p) = .ok () := by
  rw [h]
  rfl

theorem isNot_self (s : String) : (JsonValue.str s).isNot s = false := by
  rw [JsonValue.isNot, looselyEqual, beq_self_eq_true]
  rfl

theorem newLeaves_of_leaves {request response provenance : JsonValue} {flat : Flat}
    {a : AstroPassportRequestV1} {b : AstroPassportResponseV1}
    (hrequest : AstroPassportRequestV1.model.decode request = .ok a)
    (hresponse : AstroPassportResponseV1.model.decode response = .ok b)
    (hprovenance : response.item "provenance" = .ok provenance)
    (hleaves : leaves (.obj [("request", request), ("response", response),
      ("provenance", provenance)]) = .ok flat)
    (hkeys : flat.sameKeys expectedNew = true)
    (hrevision : provenance.item "source_revision" = .ok (.str newRevision)) :
    newLeaves newRevision request response = .ok flat := by
  refine bind_eq_ok.2 ⟨a, orRaise_eq_ok.2 hrequest, bind_eq_ok.2 ⟨b, orRaise_eq_ok.2 hresponse, ?_⟩⟩
  refine bind_eq_ok.2 ⟨provenance, hprovenance, bind_eq_ok.2 ⟨flat, hleaves, ?_⟩⟩
  refine bind_eq_ok.2 ⟨(), refuse_not hkeys _, bind_eq_ok.2 ⟨_, hrevision, ?_⟩⟩
  exact bind_eq_ok.2 ⟨(), refuse_eq_ok.2 (isNot_self newRevision), rfl⟩

theorem compareRecord_of_rows {newFlat : List Flat} {flat : Flat} {participant : ℕ}
    {record request manifest selected legacy : JsonValue} (hleaves : leaves record = .ok flat)
    (hkeys : flat.sameKeys expectedOld = true) (hmanifest : record.item "manifest" = .ok manifest)
    (hdigest : lib.manifestDigest manifest = .ok retained)
    (hselected : record.item "selected" = .ok selected)
    (hlegacy : legacyRequest lib selected = .ok legacy)
    (hsame : legacy.looselyEqual lib.oneNan request = true)
    (hrows : ∀ row ∈ oldRows, row.check lib newRevision newFlat participant flat = .ok ())
    (counts : Counts) :
    ∃ counts', compareRecord lib newRevision retained newFlat request participant record counts =
      .ok counts' := by
  have hloop : ∃ counts', oldRows.foldlM (fun counts row => do
      row.check lib newRevision newFlat participant flat
      pure (Counts.count row.classification counts)) counts = .ok counts' :=
    foldlM_of_checks hrows counts
  obtain ⟨counts', hcounts⟩ := hloop
  refine ⟨counts', ?_⟩
  refine bind_eq_ok.2 ⟨flat, hleaves, bind_eq_ok.2 ⟨(), refuse_not hkeys _, ?_⟩⟩
  refine bind_eq_ok.2 ⟨manifest, hmanifest, bind_eq_ok.2 ⟨retained, hdigest, ?_⟩⟩
  refine bind_eq_ok.2 ⟨(), refuse_eq_ok.2 (bne_self_eq_false retained), ?_⟩
  refine bind_eq_ok.2 ⟨selected, hselected, bind_eq_ok.2 ⟨legacy, hlegacy, ?_⟩⟩
  exact bind_eq_ok.2 ⟨(), refuse_not hsame _, hcounts⟩

/-- One record for both participants. -/
theorem comparePair_of_records {record request response : PyJson} {flat : Flat}
    (hrevision : isRevision newRevision = true)
    (hnews : newLeaves newRevision request.value response.value = .ok flat)
    (hrecord : ∀ participant < 2, ∀ counts, ∃ counts', compareRecord lib newRevision retained
      [flat, flat] request.value participant record.value counts = .ok counts')
    (hrows : ∀ row ∈ newRows, row.check = .ok ()) :
    ∃ counts, comparePair lib [record, record] [request, request] [response, response] newRevision
      retained = .ok counts := by
  obtain ⟨first, hfirst⟩ := hrecord 0 (by decide) []
  obtain ⟨second, hsecond⟩ := hrecord 1 (by decide) first
  refine ⟨second, ?_⟩
  -- two records, two requests and two responses, so the shape passes
  have hshape : refuse "shape" ([record, record].length != 2 || [request, request].length != 2 ||
      [response, response].length != 2 || !isRevision newRevision) = .ok () := by
    rw [hrevision]
    rfl
  have hflats : ([request, request].zip [response, response]).mapM
      (fun p => newLeaves newRevision p.1.value p.2.value) = .ok [flat, flat] := by
    show ([(request, response), (request, response)]).mapM _ = _
    rw [List.mapM_cons, bind_of_eq_ok hnews, List.mapM_cons, bind_of_eq_ok hnews]
    rfl
  refine bind_eq_ok.2 ⟨(), hshape, bind_eq_ok.2 ⟨_, hflats, bind_eq_ok.2 ⟨second, ?_, ?_⟩⟩⟩
  · show ([((record, request), 0), ((record, request), 1)]).foldlM _ [] = _
    rw [List.foldlM_cons, bind_of_eq_ok hfirst, List.foldlM_cons, bind_of_eq_ok hsecond]
    rfl
  · exact bind_eq_ok.2 ⟨(), forM_eq_ok.2 hrows, rfl⟩

end Returning

/-! ## The selected part of a record -/

section Selected

variable {lib : PyLibrary} {place : SelectedPlace} {civil : CivilInput}

/-- The members of the candidate of a place. -/
def candidateMembers (place : SelectedPlace) : List (Key × JsonValue) :=
  [(.provider, .str place.provider), (.sourceId, .str place.sourceId),
    (.displayName, .str place.displayName), (.latitude, .float place.latitude),
    (.longitude, .float place.longitude),
    (.attribution,
      match place.attribution with
      | none => .null
      | some s => .str s)]

/-- The selected place of an old record. -/
def legacyPlace (place : SelectedPlace) : JsonValue :=
  keyed [(.schemaVersion, .str "selected-place.v1"), (.candidate, keyed (candidateMembers place)),
    (.searchRequest, keyed [(.query, .str place.query), (.limit, .int place.requestedLimit)]),
    (.selectedIndex, .int place.selectedIndex), (.resultCount, .int place.resultCount)]

/-- The raw input of an old record. -/
def legacyRaw (place : SelectedPlace) (civil : CivilInput) : JsonValue :=
  keyed [(.date, .str civil.date), (.time, .str civil.time), (.placeQuery, .str place.query)]

/-- What an old record has of a request. -/
def legacySelected (place : SelectedPlace) (civil : CivilInput) : JsonValue :=
  keyed [(.raw, legacyRaw place civil), (.selectedPlace, legacyPlace place),
    (.foldChoice, foldModel.encode civil.fold)]

/-- The members of a place in the request. -/
def placeMembers (place : SelectedPlace) : List (Key × JsonValue) :=
  [(.schemaVersion, .str "SelectedPlaceInput.v1")] ++ candidateMembers place ++
    [(.query, .str place.query), (.requestedLimit, .int place.requestedLimit),
      (.selectedIndex, .int place.selectedIndex), (.resultCount, .int place.resultCount)]

theorem encode_place (place : SelectedPlace) : SelectedPlace.model.encode place =
    .obj (Dict.ofMembers ([("schema_version", JsonValue.str "SelectedPlaceInput.v1")] ++
      (candidateMembers place).map (fun m => (m.1.text, m.2)) ++
      [("query", .str place.query), ("requested_limit", .int place.requestedLimit),
        ("selected_index", .int place.selectedIndex), ("result_count", .int place.resultCount)])) := by
  have hkeys : ((placeMembers place).map Prod.fst).Nodup := show placeKeys.Nodup by decide
  have hmembers : SelectedPlace.model.encode place =
      .obj ((placeMembers place).map fun m => (m.1.text, m.2)) := by
    obtain ⟨_, _, _, _, _, attribution, _, _, _, _⟩ := place
    cases attribution <;> rfl
  rw [hmembers]
  exact (congrArg JsonValue.obj (ofMembers_keyed hkeys)).symm

/-- A request is read from its members in the order of `legacy_request`. -/
theorem decode_request {place : SelectedPlace} {civil : CivilInput}
    (hplace : SelectedPlace.model.valid place = true) (hcivil : CivilInput.model.valid civil = true) :
    AstroPassportRequestV1.model.decode (.obj [("schema_version", .str "AstroPassportRequest.v1"),
      ("contract_version", .str "1.0.0"), ("profile", .str "sun-moon.v1"),
      ("civil", CivilInput.model.encode civil),
      ("selected_place", SelectedPlace.model.encode place)]) = .ok ⟨place, civil⟩ := by
  refine Codec.object_decode ?_ ?_
  · exact Fields.literal_decode rfl <| Fields.literal_decode rfl <| Fields.literal_decode rfl <|
      Fields.field_decode rfl (SelectedPlace.model.decode_encode hplace) <|
      Fields.field_decode rfl (CivilInput.model.decode_encode hcivil) rfl
  · repeat refine List.forall_mem_cons.2 ⟨List.mem_of_elem_eq_true rfl, ?_⟩
    exact List.forall_mem_nil _

/-- `legacy_request` gives back the request whose time is in the form of the models. -/
theorem legacyRequest_selected {t : ParsedTime} (hplace : SelectedPlace.model.valid place = true)
    (hcivil : CivilInput.model.valid civil = true) (htime : lib.timeFromIso civil.time = some t)
    (htext : t.isoformat = civil.time) :
    legacyRequest lib (legacySelected place civil) = .ok (.obj
      [("schema_version", .str "AstroPassportRequest.v1"), ("contract_version", .str "1.0.0"),
        ("profile", .str "sun-moon.v1"), ("civil", CivilInput.model.encode civil),
        ("selected_place", SelectedPlace.model.encode place)]) := by
  have hquery : (!(JsonValue.str place.query).looselyEqual lib.oneNan (.str place.query)) = false := by
    rw [looselyEqual, beq_self_eq_true]
    rfl
  have hclock : lib.time (.str civil.time) = .ok t := by rw [PyLibrary.time, htime]
  refine bind_eq_ok.2 ⟨_, item_keyed (k := .raw) rfl, ?_⟩
  refine bind_eq_ok.2 ⟨_, item_keyed (k := .selectedPlace) rfl, ?_⟩
  refine bind_eq_ok.2 ⟨_, item_keyed (k := .placeQuery) rfl, ?_⟩
  refine bind_eq_ok.2 ⟨_, item_keyed (k := .searchRequest) rfl, ?_⟩
  refine bind_eq_ok.2 ⟨_, item_keyed (k := .query) rfl, ?_⟩
  -- the two queries of the selection are one text
  refine bind_eq_ok.2 ⟨(), refuse_eq_ok.2 hquery, ?_⟩
  refine bind_eq_ok.2 ⟨_, item_keyed (k := .candidate) rfl, ?_⟩
  refine bind_eq_ok.2 ⟨_, item_keyed (k := .date) rfl, ?_⟩
  refine bind_eq_ok.2 ⟨_, item_keyed (k := .time) rfl, ?_⟩
  refine bind_eq_ok.2 ⟨t, hclock, ?_⟩
  refine bind_eq_ok.2 ⟨_, item_keyed (k := .foldChoice) rfl, ?_⟩
  refine bind_eq_ok.2 ⟨_, rfl, ?_⟩
  refine bind_eq_ok.2 ⟨_, item_keyed (k := .limit) rfl, ?_⟩
  refine bind_eq_ok.2 ⟨_, item_keyed (k := .selectedIndex) rfl, ?_⟩
  refine bind_eq_ok.2 ⟨_, item_keyed (k := .resultCount) rfl, ?_⟩
  rw [htext]
  rw [← encode_place]
  exact bind_eq_ok.2 ⟨_, orRaise_eq_ok.2 (decode_request hplace hcivil), rfl⟩

end Selected

/-! ## A response and its leaves -/

/-- The leaves of the response: none is an object, and none holds an infinity or a NaN. -/
def syntheticLeaves : {es : List (Path × JsonValue) //
    (es.all fun e => e.2.isPlain && everyScalar isFinite e.2) = true} :=
  ⟨responsePaths.zip
    [.str "AstroPassportResponse.v1", .str "1.0.0", .str "sun-moon.v1",
      -- the selected place and the civil input
      .str "SelectedPlaceInput.v1", .str "synthetic", .str "synthetic", .str "Not a person",
      .float (.ofRat (1 / 8)), .float (.ofRat (1 / 4)), .null, .str "test", .int 1, .int 0, .int 1,
      .str "2000-01-02", .str "03:04:05.000000", .null,
      -- the boundary
      .str "timezone-boundary.v1", .str "unique", .str "Africa/Abidjan",
      .str "timezone-boundary-builder", .str "2026c", .str "comprehensive-no-oceans",
      .str pinnedProvenance.manifestSha256, .str pinnedProvenance.archiveSha256,
      .str pinnedProvenance.geometrySha256, .str pinnedProvenance.catalogSha256,
      .str "tbb-planar.v1", .str "2.1.2", .str "3.13.1", .str "2.5.3", .str "3.12.14",
      .str "linux-amd64", .str "ODbL-1.0", .str pinnedProvenance.attribution,
      .str "https://opendatacommons.org/licenses/odbl/1-0/",
      -- the civil fact
      .str "civil-time.v1", .str "2000-01-02T03:04:05.000000Z", .int 0, .str "unique", .null,
      .str "2026c", .str "main-backzone-zone.tab-posix-slim.v1", .str zeroDigest, .str zeroDigest,
      .str zeroDigest, .str zeroDigest, .str "zoneinfo-roundtrip.v1", .str "CPython-3.12.14",
      .str "proleptic-gregorian", .str "posix-no-leap-seconds", .str "pinned-dataset-rules-only",
      .arr [.str "modern-geography-not-date-specific-jurisdiction"],
      -- the bodies
      .str "sun", .str "0x1.4000000000000p+3", .str "10.000000000",
      .str "moon", .str "0x1.4000000000000p+4", .str "20.000000000",
      -- the provenance
      .str "AstroPassportProvenance.v1", .str newRepository, .str zeroRevision,
      .str "ephemeris.v1", .str "swiss-isolated.v1", .str "pysweph-2.10.3.6", .str "2.10.03",
      .str zeroDigest, .str zeroDigest, .str zeroDigest, .str zeroDigest, .str "DE441", .int 2,
      .arr [.int 2, .int 2], .str "geocentric-tropical-apparent-ecliptic-of-date",
      .str "binary64-to-decimal-9dp-half-even.v1", .str "pinned-leaps-2016-pre1972-ut1-proxy.v1",
      .str "swiss-2.10.03-auto-model-tidal-DE441", .str "CPython-3.12.14-Linux-x86_64",
      .str "0x1.2b42c80000000p+21", .str "0x1.2b42c80000000p+21",
      .arr [.str "modelled-ut1-not-measured-earth-orientation"],
      .str "astro-passport-json.v1", .str "unsigned-direct-client-only"],
    by decide +kernel⟩

/-- The leaf of the response at a path. -/
def syntheticLeaf (p : Path) : JsonValue := (syntheticLeaves.1.lookup p).getD .null

/-- The leaf of the response that a new leaf repeats. -/
def Path.repeated : Path → Path
  | .request :: .civil :: p => .civilInput :: p
  | .request :: p => p
  | .response :: .civil :: .fold :: p => .civilInput :: .fold :: p
  | .response :: p => p
  | p => p

/-- The leaf of the exchange at a path. -/
def newLeaf (p : Path) : JsonValue :=
  if p = [.request, .schemaVersion] then .str "AstroPassportRequest.v1"
  else syntheticLeaf p.repeated

/-- The leaves of a request, in the order of `legacy_request`. -/
def legacyPaths : List Path :=
  inside [] [.schemaVersion, .contractVersion, .profile] ++
    inside [.civil] [.date, .time, .fold] ++ inside [.selectedPlace] placeKeys

/-- The paths of the leaves of the provenance of a response. -/
def provenancePaths : List Path := responsePaths.filter (Path.under [.provenance])

/-- The tree of a request; at each leaf its path in the exchange. -/
def requestTree : Nested.Proper Path :=
  ⟨.ofEntries (legacyPaths.map fun p => (p, .request :: p)), by decide⟩

/-- The tree of a response; at each leaf its path in the exchange. -/
def responseTree : Nested.Proper Path :=
  ⟨.ofEntries (responsePaths.map fun p => (p, .response :: p)), by decide⟩

/-- The tree of the provenance beside the response; at each leaf its path in the response. -/
def provenanceTree : Nested.Proper Path :=
  ⟨.ofEntries (provenancePaths.map fun p => (p.tail, p)), by decide⟩

/-- An exchange, as `compare_pair` flattens it. -/
def exchangeTree : Nested.Proper Path :=
  ⟨.node .request requestTree.1 (.node .response responseTree.1
    (.node .provenance provenanceTree.1 .nil)), by decide⟩

/-- The paths of the leaves of an exchange, in the order of `compare_pair`. -/
def newPaths : List Path :=
  legacyPaths.map (.request :: ·) ++ responsePaths.map (.response :: ·) ++ provenancePaths

theorem syntheticLeaf_spec (p : Path) :
    (syntheticLeaf p).isPlain = true ∧ everyScalar isFinite (syntheticLeaf p) = true := by
  unfold syntheticLeaf
  rcases h : syntheticLeaves.1.lookup p with _ | v
  · exact ⟨rfl, rfl⟩
  · exact Bool.and_eq_true_iff.1 (List.all_eq_true.1 syntheticLeaves.2 _ (mem_of_lookup h))

theorem isPlain_newLeaf (p : Path) : (newLeaf p).isPlain = true := by
  unfold newLeaf
  split
  · rfl
  · exact (syntheticLeaf_spec _).1

theorem entries_exchangeTree : exchangeTree.1.entries = newPaths.map fun p => (p, p) := by
  decide

/-- The paths of the map for an exchange without an error. -/
def expectedPaths : List Path :=
  (newRows.filter fun row => !Path.under [.error] row.path).map NewRow.path

theorem perm_newPaths : newPaths.Perm expectedPaths := by
  have hnodup : newPaths.Nodup := by
    have h := Nested.nodup_entries exchangeTree.2
    rw [entries_exchangeTree, List.map_map] at h
    exact List.map_id newPaths ▸ h
  have hsubset : newPaths.all expectedPaths.contains = true := by decide
  refine (List.subperm_of_subset hnodup fun p hp => ?_).perm_of_length_le (by decide +kernel)
  exact List.contains_iff_mem.1 (List.all_eq_true.1 hsubset p hp)

theorem members_exchangeTree : exchangeTree.1.members newLeaf =
    [("request", .obj (requestTree.1.members newLeaf)),
      ("response", .obj (responseTree.1.members newLeaf)),
      ("provenance", .obj (provenanceTree.1.members newLeaf))] := by
  have hpairs : requestTree.1.isPair = false ∧ responseTree.1.isPair = false ∧
      provenanceTree.1.isPair = false := by decide
  rw [exchangeTree, Nested.members_node hpairs.1, Nested.members_node hpairs.2.1,
    Nested.members_node hpairs.2.2]
  rfl

/-- The leaves of the exchange. -/
def newFlat : Flat := newPaths.map fun p => (p.texts, newLeaf p)

theorem newFlat_eq : newFlat = exchangeTree.1.entries.map fun e => (e.1.texts, newLeaf e.2) := by
  rw [entries_exchangeTree, List.map_map]
  rfl

theorem newFlat_leaf {p : Path} (h : p ∈ newPaths) : newFlat.leaf p.texts = .ok (newLeaf p) := by
  rw [leaf_eq_ok, newFlat_eq]
  refine Nested.lookup_entries exchangeTree.2 ?_
  rw [entries_exchangeTree]
  exact List.mem_map.2 ⟨p, h, rfl⟩

/-! ## The record that keeps them -/

/-- The leaf of the response that the targets of a row repeat. -/
def OldRow.repeated (row : OldRow) : Path := (row.linked.head?.map Path.repeated).getD []

/-- What an old record has where the response has a leaf. -/
def Rewrite.kept (leaf : JsonValue) : Rewrite → JsonValue
  | .placeSchema => .str "selected-place.v1"
  | .repository => .str oldRepository
  | .revision => .str oldSha
  | .manifest => .str oldManifest
  | .outcome => .str "resolved"
  | _ => leaf

/-- The leaf of the record at a row. -/
def oldLeaf (row : OldRow) : JsonValue :=
  match row.branch with
  | .rewrite r => r.kept (syntheticLeaf row.repeated)
  | .pairDigest => .str zeroDigest
  | .absent => if row.path.endsWith .candidateIds then .arr [] else .null
  | .unimplementedRule => .null

/-- The tree of an old record; at each leaf its row. -/
def recordTree : Nested.Proper OldRow :=
  ⟨.ofEntries (oldRows.map fun row => (row.path, row)), by decide +kernel⟩

theorem isPlain_oldLeaf (row : OldRow) : (oldLeaf row).isPlain = true := by
  unfold oldLeaf
  split
  · next r _ => cases r <;> first | rfl | exact (syntheticLeaf_spec _).1
  · rfl
  · split <;> rfl
  · rfl

theorem entries_recordTree : recordTree.1.entries = oldRows.map fun row => (row.path, row) := by
  have htree : recordTree.1 = .ofEntries (oldRows.map fun row => (row.path, row)) := by
    rw [recordTree]
  rw [htree]
  refine Nested.entries_ofEntries fun e he => ?_
  have hpaths : (oldRows.all fun row => decide (row.path ≠ [])) = true := by decide
  obtain ⟨row, hrow, rfl⟩ := List.mem_map.1 he
  exact of_decide_eq_true (List.all_eq_true.1 hpaths row hrow)

/-- The leaves of the record. -/
def oldFlat : Flat := oldRows.map fun row => (row.path.texts, oldLeaf row)

theorem oldFlat_eq : oldFlat = recordTree.1.entries.map fun e => (e.1.texts, oldLeaf e.2) := by
  rw [entries_recordTree, List.map_map]
  rfl

theorem oldFlat_leaf {row : OldRow} (h : row ∈ oldRows) :
    oldFlat.leaf row.path.texts = .ok (oldLeaf row) := by
  rw [leaf_eq_ok, oldFlat_eq]
  refine Nested.lookup_entries recordTree.2 ?_
  rw [entries_recordTree]
  exact List.mem_map.2 ⟨row, h, rfl⟩

/-! ## The rows -/

/-- The leaves of the response that are rewritten. -/
def Rewrite.places : Rewrite → List Path
  | .keep => []
  | .placeSchema => [[.selectedPlace, .schemaVersion]]
  | .repository => [[.provenance, .sourceRepository]]
  | .revision => [[.provenance, .sourceRevision]]
  | .manifest => [[.boundary, .provenance, .manifestSha256]]
  | .clock => [[.civilInput, .time]]
  | .instant => [[.civil, .utc]]
  | .longitude => [[.bodies, .zero, .decimalDegrees], [.bodies, .one, .decimalDegrees]]
  | .outcome => [[.boundary, .outcome]]

/-- The targets of a row repeat one leaf, which is one that its branch rewrites. -/
def OldRow.repeats (row : OldRow) : Bool :=
  match row.branch with
  | .rewrite r =>
    row.linked.all (fun t => newPaths.contains t && t.repeated == row.repeated &&
        t != [.request, .schemaVersion]) &&
      (r == .keep || r.places.contains row.repeated)
  | .unimplementedRule => false
  | _ => row.linked.isEmpty

/-- Both participants have their leaves. -/
def OldRow.hasIndex (row : OldRow) : Bool :=
  [0, 1].all fun participant => [0, 1].any fun i => decide (row.index participant = .ok i)

/-- Beside a longitude the record has its binary64. -/
def OldRow.besideHex (row : OldRow) : Bool :=
  row.branch != .rewrite .longitude ||
    oldRows.any fun r => r.path == row.path.dropLast ++ [.binary64Hex] &&
      r.branch == .rewrite .keep && r.repeated == row.repeated.dropLast ++ [.binary64Hex]

theorem checks_oldRows {row : OldRow} (h : row ∈ oldRows) :
    row.repeats = true ∧ row.hasIndex = true ∧ row.besideHex = true := by
  have hall : (oldRows.all fun row => row.repeats && row.hasIndex && row.besideHex) = true := by
    decide +kernel
  simpa [and_assoc] using List.all_eq_true.1 hall row h

/-- The digest that the old record names its manifest by. -/
def syntheticDigest : String := "2bb7a1d3c46f57657b5cec4661292b0707f8f4300c908b64191986fe5ec0585f"

/-- A library that reads clocks, instants and decimals as the models do, and knows one digest. -/
def syntheticLib : PyLibrary where
  oneNan := true
  timeFromIso s := (clockFromIso s.toList).map fun t => ⟨.naive t, ""⟩
  datetimeFromIso s := (utcFromIso s.toList).map .utc
  decimal
    | .str s => (plainDecimal s).elim (.error (.escaped .invalidOperation)) fun d => .ok (.finite d)
    | _ => .error .typeError
  legacyManifestDigest _ := some syntheticDigest

theorem timeFromIso_of_clock {time : String}
    (htext : (clockFromIso time.toList).map (fun t => String.ofList (isoTime t)) = some time) :
    ∃ t, syntheticLib.timeFromIso time = some ⟨.naive t, ""⟩ ∧
      (ParsedTime.mk (.naive t) "").isoformat = time := by
  obtain ⟨t, ht, htext⟩ := Option.map_eq_some_iff.1 htext
  refine ⟨t, Option.map_eq_some_iff.2 ⟨t, ht, rfl⟩, ?_⟩
  rw [← htext]
  exact String.append_empty

/-- A time in the form that the models demand is wanted as it is. -/
theorem wanted_clock {row : OldRow} {time : String}
    (htext : (clockFromIso time.toList).map (fun t => String.ofList (isoTime t)) = some time) :
    Rewrite.wanted syntheticLib zeroRevision oldFlat row (.str time) .clock = .ok (.str time) := by
  obtain ⟨t, hparsed, htext⟩ := timeFromIso_of_clock htext
  have hclock : syntheticLib.time (.str time) = .ok ⟨.naive t, ""⟩ := by
    rw [PyLibrary.time, hparsed]
  refine bind_eq_ok.2 ⟨_, hclock, bind_eq_ok.2 ⟨(), rfl, ?_⟩⟩
  rw [htext]
  rfl

theorem wanted_instant {row : OldRow} {utc : String}
    (htext : (utcFromIso utc.toList).map (fun t => String.ofList (isoUtc t)) = some utc) :
    Rewrite.wanted syntheticLib zeroRevision oldFlat row (.str utc) .instant = .ok (.str utc) := by
  obtain ⟨t, ht, htext⟩ := Option.map_eq_some_iff.1 htext
  have hparsed : syntheticLib.datetimeFromIso utc = some (.utc t) :=
    Option.map_eq_some_iff.2 ⟨t, ht, rfl⟩
  have hinstant : syntheticLib.datetime (.str utc) = .ok (.utc t) := by
    rw [PyLibrary.datetime, hparsed]
  refine bind_eq_ok.2 ⟨_, hinstant, bind_eq_ok.2 ⟨(), rfl, ?_⟩⟩
  show Except.ok (JsonValue.str (String.ofList (isoUtc t))) = _
  rw [htext]

/-- A longitude in the form that the models demand is wanted as it is. -/
theorem wanted_longitude {row : OldRow} {hex degrees : String}
    (hhex : oldFlat.leaf (Path.texts (row.path.dropLast ++ [Key.binary64Hex])) = .ok (.str hex))
    (hvalid : Longitude.representation ⟨hex, degrees⟩ = .ok ())
    (htext : (plainDecimal degrees).map (fun d => String.ofList (degreesText d)) = some degrees) :
    Rewrite.wanted syntheticLib zeroRevision oldFlat row (.str degrees) .longitude =
      .ok (.str degrees) := by
  obtain ⟨raw, hraw, h⟩ := Checked.bind_eq_ok.1 hvalid
  obtain ⟨_, -, h⟩ := Checked.bind_eq_ok.1 h
  obtain ⟨number, hnumber, h⟩ := Checked.bind_eq_ok.1 h
  obtain ⟨exact, hexact, h⟩ := Checked.bind_eq_ok.1 h
  rw [Checked.require_eq_ok, decide_eq_true_eq] at h
  rw [Checked.ofOption_eq_ok] at hnumber
  rw [hnumber, Option.map_some, Option.some.injEq] at htext
  refine bind_eq_ok.2 ⟨_, hhex, bind_eq_ok.2 ⟨raw, orRaise_eq_ok.2 hraw, ?_⟩⟩
  refine bind_eq_ok.2 ⟨.finite number, ?_, bind_eq_ok.2 ⟨exact, orRaise_eq_ok.2 hexact, ?_⟩⟩
  · show (plainDecimal degrees).elim _ _ = _
    rw [hnumber]
    rfl
  · refine bind_eq_ok.2 ⟨false, ?_, bind_eq_ok.2 ⟨(), rfl, ?_⟩⟩
    · show Except.ok (number.value != exact.value) = _
      rw [h, bne_self_eq_false]
    · show Except.ok (JsonValue.str (String.ofList (degreesText number))) = _
      rw [htext]

theorem oldFlat_hex {row : OldRow} (hrow : row ∈ oldRows)
    (hbranch : row.branch = .rewrite .longitude) :
    oldFlat.leaf (Path.texts (row.path.dropLast ++ [Key.binary64Hex])) =
      .ok (syntheticLeaf (row.repeated.dropLast ++ [.binary64Hex])) := by
  obtain ⟨-, -, hhex⟩ := checks_oldRows hrow
  rw [OldRow.besideHex, hbranch, bne_self_eq_false, Bool.false_or, List.any_eq_true] at hhex
  obtain ⟨r, hr, h⟩ := hhex
  simp only [Bool.and_eq_true, beq_iff_eq] at h
  obtain ⟨⟨hpath, hkeep⟩, hrepeated⟩ := h
  rw [← hpath, oldFlat_leaf hr, oldLeaf, hkeep, ← hrepeated]
  rfl

/-- What a row wants is the leaf that its targets repeat. -/
theorem wanted_kept {row : OldRow} (hrow : row ∈ oldRows) {r : Rewrite}
    (hbranch : row.branch = .rewrite r) (hplace : r = .keep ∨ row.repeated ∈ r.places) :
    r.wanted syntheticLib zeroRevision oldFlat row (r.kept (syntheticLeaf row.repeated)) =
      .ok (syntheticLeaf row.repeated) := by
  -- a constant of the old record becomes one of the new service
  have hconstant : ∀ old new : String,
      (do refuse row.classification.text ((JsonValue.str old).isNot old)
          pure (JsonValue.str new) : Except ConformanceRaise JsonValue) = .ok (.str new) := by
    intro old new
    exact bind_eq_ok.2 ⟨(), refuse_eq_ok.2 (isNot_self old), rfl⟩
  cases r with
  | keep => rfl
  | placeSchema | repository | revision | manifest | outcome =>
      rw [List.mem_singleton.1 (hplace.resolve_left nofun)]
      exact hconstant _ _
  | clock =>
      rw [List.mem_singleton.1 (hplace.resolve_left nofun)]
      have htime : syntheticLeaf [.civilInput, .time] = .str "03:04:05.000000" := rfl
      rw [htime]
      exact wanted_clock (by decide)
  | instant =>
      rw [List.mem_singleton.1 (hplace.resolve_left nofun)]
      have hutc : syntheticLeaf [.civil, .utc] = .str "2000-01-02T03:04:05.000000Z" := rfl
      rw [hutc]
      exact wanted_instant (by decide)
  | longitude =>
      have hhex := oldFlat_hex hrow hbranch
      rcases List.mem_pair.1 (hplace.resolve_left nofun) with hplace | hplace
      · have hdegrees : syntheticLeaf [.bodies, .zero, .decimalDegrees] = .str "10.000000000" := rfl
        rw [hplace] at hhex ⊢
        rw [hdegrees]
        exact wanted_longitude hhex (by decide +kernel) (by decide +kernel)
      · have hdegrees : syntheticLeaf [.bodies, .one, .decimalDegrees] = .str "20.000000000" := rfl
        rw [hplace] at hhex ⊢
        rw [hdegrees]
        exact wanted_longitude hhex (by decide +kernel) (by decide +kernel)

/-- An absent leaf passes its checks. -/
theorem wanted_absent {row : OldRow} (hbranch : row.branch = .absent) (hlinked : row.linked = []) :
    row.wanted syntheticLib zeroRevision oldFlat (oldLeaf row) = .ok (oldLeaf row) := by
  have hreason : (row.path.endsWith .reason && !(oldLeaf row).looselyEqual true .null) = false := by
    rw [oldLeaf, hbranch]
    by_cases hids : row.path.endsWith .candidateIds = true
    · rw [Path.endsWith, beq_iff_eq] at hids
      rw [Path.endsWith, hids]
      rfl
    · dsimp only
      rw [if_neg hids, looselyEqual, Bool.not_true, Bool.and_false]
  have hids : (row.path.endsWith .candidateIds && !(oldLeaf row).looselyEqual true (.arr [])) =
      false := by
    rw [oldLeaf, hbranch]
    by_cases hids : row.path.endsWith .candidateIds = true
    · dsimp only
      rw [if_pos hids]
      exact Bool.and_false _
    · rw [Bool.not_eq_true] at hids
      rw [hids, Bool.false_and]
  rw [OldRow.wanted, hbranch]
  refine bind_eq_ok.2 ⟨(), refuse_eq_ok.2 hreason, bind_eq_ok.2 ⟨(), refuse_eq_ok.2 hids, ?_⟩⟩
  exact bind_eq_ok.2 ⟨(), by rw [hlinked]; rfl, rfl⟩

theorem newLeaf_of_repeated {p : Path} {q : Path} (hp : p ≠ [.request, .schemaVersion])
    (h : p.repeated = q) : newLeaf p = syntheticLeaf q := by
  rw [newLeaf, if_neg hp, h]

theorem check_oldRows {row : OldRow} (hrow : row ∈ oldRows) {participant : ℕ}
    (hparticipant : participant < 2) :
    row.check syntheticLib zeroRevision [newFlat, newFlat] participant oldFlat = .ok () := by
  obtain ⟨hrepeats, hindices, -⟩ := checks_oldRows hrow
  have hindex : ∃ i, row.index participant = .ok i ∧ [newFlat, newFlat][i]? = some newFlat := by
    have hmem : participant ∈ [0, 1] := by
      simp only [List.mem_cons, List.not_mem_nil, or_false]
      omega
    obtain ⟨i, hi, h⟩ := List.any_eq_true.1 (List.all_eq_true.1 hindices participant hmem)
    refine ⟨i, of_decide_eq_true h, ?_⟩
    rcases List.mem_pair.1 hi with rfl | rfl <;> rfl
  obtain ⟨i, hi, hflat⟩ := hindex
  have hcheck : ∀ wanted, row.wanted syntheticLib zeroRevision oldFlat (oldLeaf row) = .ok wanted →
      (∀ t ∈ row.linked, t ∈ newPaths ∧ newLeaf t = wanted ∧ equal true wanted wanted = true) →
      row.check syntheticLib zeroRevision [newFlat, newFlat] participant oldFlat = .ok () := by
    intro wanted hwanted htargets
    refine bind_eq_ok.2 ⟨_, oldFlat_leaf hrow, bind_eq_ok.2 ⟨i, hi, bind_eq_ok.2 ⟨wanted, hwanted, ?_⟩⟩⟩
    refine forM_eq_ok.2 fun t ht => ?_
    obtain ⟨hmem, hleaf, hequal⟩ := htargets t ht
    refine bind_eq_ok.2 ⟨newFlat, by rw [hflat]; rfl, ?_⟩
    refine bind_eq_ok.2 ⟨_, newFlat_leaf hmem, ?_⟩
    rw [hleaf]
    exact refuse_not hequal _
  have hnone : row.linked = [] → ∀ t ∈ row.linked, t ∈ newPaths ∧ newLeaf t = oldLeaf row ∧
      equal true (oldLeaf row) (oldLeaf row) = true := by
    intro hlinked t ht
    rw [hlinked] at ht
    cases ht
  unfold OldRow.repeats at hrepeats
  cases hbranch : row.branch with
  | rewrite r =>
      rw [hbranch] at hrepeats
      simp only [Bool.and_eq_true, Bool.or_eq_true, List.all_eq_true, List.contains_iff_mem,
        beq_iff_eq, bne_iff_ne] at hrepeats
      obtain ⟨htargets, hplace⟩ := hrepeats
      have hleaf : oldLeaf row = r.kept (syntheticLeaf row.repeated) := by rw [oldLeaf, hbranch]
      refine hcheck (syntheticLeaf row.repeated) ?_ fun t ht => ?_
      · rw [OldRow.wanted, hbranch, hleaf]
        exact wanted_kept hrow hbranch hplace
      · obtain ⟨⟨hmem, hrepeated⟩, hne⟩ := htargets t ht
        exact ⟨hmem, newLeaf_of_repeated hne hrepeated,
          equal_self (syntheticLeaf_spec _).2
            (Nested.distinct_of_isPlain (syntheticLeaf_spec _).1) true⟩
  | pairDigest =>
      rw [hbranch, List.isEmpty_iff] at hrepeats
      have hleaf : oldLeaf row = .str zeroDigest := by rw [oldLeaf, hbranch]
      refine hcheck (oldLeaf row) ?_ (hnone hrepeats)
      rw [OldRow.wanted, hbranch, hleaf]
      exact bind_eq_ok.2 ⟨(), refuse_not isDigest_zeroDigest _, rfl⟩
  | absent =>
      rw [hbranch, List.isEmpty_iff] at hrepeats
      exact hcheck (oldLeaf row) (wanted_absent hbranch hrepeats) (hnone hrepeats)
  | unimplementedRule =>
      rw [hbranch] at hrepeats
      cases hrepeats

/-! ## The exchange -/

/-- The request of the exchange. -/
def syntheticRequest : PyJson :=
  ⟨.obj (requestTree.1.members newLeaf), Nested.distinct_members isPlain_newLeaf requestTree.2⟩

/-- The response of the exchange. -/
def syntheticResponse : PyJson :=
  ⟨.obj (responseTree.1.members newLeaf), Nested.distinct_members isPlain_newLeaf responseTree.2⟩

/-- The old record that the exchange is compared with. -/
def syntheticRecord : PyJson :=
  ⟨.obj (recordTree.1.members oldLeaf), Nested.distinct_members isPlain_oldLeaf recordTree.2⟩

theorem syntheticResponse_value :
    syntheticResponse.value = AstroPassportResponseV1.model.encode synthetic := by
  unfold syntheticResponse
  exact rfl

theorem decode_synthetic :
    AstroPassportResponseV1.model.decode syntheticResponse.value = .ok synthetic := by
  rw [syntheticResponse_value]
  exact AstroPassportResponseV1.model.decode_encode valid_synthetic

theorem syntheticRequest_value : syntheticRequest.value =
    .obj [("schema_version", .str "AstroPassportRequest.v1"), ("contract_version", .str "1.0.0"),
      ("profile", .str "sun-moon.v1"), ("civil", CivilInput.model.encode synthetic.civilInput),
      ("selected_place", SelectedPlace.model.encode synthetic.selectedPlace)] := by
  unfold syntheticRequest
  exact rfl

theorem decode_syntheticRequest : AstroPassportRequestV1.model.decode syntheticRequest.value =
    .ok ⟨synthetic.selectedPlace, synthetic.civilInput⟩ := by
  obtain ⟨hplace, hcivil, -⟩ := AstroPassportResponseV1.valid_iff.1 valid_synthetic
  rw [syntheticRequest_value]
  exact decode_request hplace hcivil



theorem sameKeys_newFlat : newFlat.sameKeys expectedNew = true := by
  have hkeys : newFlat.map Prod.fst = newPaths.map Path.texts := List.map_map
  have hexpected : expectedNew = expectedPaths.map Path.texts := List.map_map.symm
  apply Flat.sameKeys_of_perm
  rw [hkeys, hexpected]
  exact perm_newPaths.map Path.texts

theorem sameKeys_oldFlat : oldFlat.sameKeys expectedOld = true := by
  have hkeys : oldFlat.map Prod.fst = expectedOld := List.map_map
  apply Flat.sameKeys_of_perm
  rw [hkeys]



theorem leaves_exchange : leaves (.obj [("request", syntheticRequest.value),
    ("response", syntheticResponse.value), ("provenance", .obj (provenanceTree.1.members newLeaf))]) =
      .ok newFlat := by
  rw [newFlat_eq]
  show leaves (.obj [("request", .obj (requestTree.1.members newLeaf)),
    ("response", .obj (responseTree.1.members newLeaf)),
    ("provenance", .obj (provenanceTree.1.members newLeaf))]) = _
  rw [← members_exchangeTree]
  exact Nested.leaves_value isPlain_newLeaf exchangeTree.2 (List.cons_ne_nil _ _)

theorem item_provenance :
    syntheticResponse.value.item "provenance" = .ok (.obj (provenanceTree.1.members newLeaf)) := by
  refine Nested.item_members (k := .provenance) responseTree.2 ?_
  exact List.mem_of_getElem? (i := 8) rfl

theorem item_sourceRevision : (JsonValue.obj (provenanceTree.1.members newLeaf)).item "source_revision" =
    .ok (.str zeroRevision) := by
  refine Nested.item_members (k := .sourceRevision) provenanceTree.2 ?_
  exact List.mem_of_getElem? (i := 2) rfl

theorem newLeaves_synthetic :
    newLeaves zeroRevision syntheticRequest.value syntheticResponse.value = .ok newFlat :=
  newLeaves_of_leaves decode_syntheticRequest decode_synthetic item_provenance leaves_exchange
    sameKeys_newFlat item_sourceRevision

/-! ## The record -/

theorem manifest_mem : Key.manifest ∈ recordTree.1.keys := by decide +kernel

theorem leaves_record : leaves syntheticRecord.value = .ok oldFlat := by
  rw [oldFlat_eq]
  exact Nested.leaves_value isPlain_oldLeaf recordTree.2 (List.ne_nil_of_mem manifest_mem)

set_option maxRecDepth 4000 in
theorem item_selected : syntheticRecord.value.item "selected" =
    .ok (legacySelected synthetic.selectedPlace synthetic.civilInput) := by
  refine Nested.item_members (k := .selected) recordTree.2 ?_
  exact List.mem_of_getElem? (i := 0) rfl

theorem item_manifest : ∃ manifest, syntheticRecord.value.item "manifest" = .ok manifest :=
  Nested.exists_item (k := .manifest) recordTree.2 manifest_mem

theorem compareRecord_synthetic (participant : ℕ) (h : participant < 2) (counts : Counts) :
    ∃ counts', compareRecord syntheticLib zeroRevision
      syntheticDigest [newFlat, newFlat]
      syntheticRequest.value participant syntheticRecord.value counts = .ok counts' := by
  obtain ⟨hplace, hcivil, -⟩ := AstroPassportResponseV1.valid_iff.1 valid_synthetic
  obtain ⟨manifest, hmanifest⟩ := item_manifest
  have hsame : syntheticRequest.value.looselyEqual true syntheticRequest.value = true := by
    have hfinite : everyScalar isFinite syntheticRequest.value = true := by decide +kernel
    exact equal_self hfinite syntheticRequest.distinct true
  have htime : (clockFromIso synthetic.civilInput.time.toList).map
      (fun t => String.ofList (isoTime t)) = some synthetic.civilInput.time := by decide
  obtain ⟨t, ht, htext⟩ := timeFromIso_of_clock htime
  refine compareRecord_of_rows leaves_record sameKeys_oldFlat hmanifest rfl item_selected
    (legacyRequest_selected hplace hcivil ht htext) ?_
    (fun row hrow => check_oldRows hrow h) counts
  rw [← syntheticRequest_value]
  exact hsame


/-- The comparison returns. -/
theorem comparePair_synthetic : ∃ counts,
    comparePair syntheticLib [syntheticRecord, syntheticRecord] [syntheticRequest, syntheticRequest]
      [syntheticResponse, syntheticResponse] zeroRevision
      syntheticDigest = .ok counts := by
  have hchecks : (newRows.all fun row => !(!Path.under [.error] row.path && row.sources.isEmpty &&
      row.classification != .expectedIdentitySubstitution)) = true := by decide
  refine comparePair_of_records (by decide) newLeaves_synthetic compareRecord_synthetic ?_
  intro row hrow
  have hcheck := List.all_eq_true.1 hchecks row hrow
  rw [Bool.not_eq_true'] at hcheck
  exact refuse_eq_ok.2 hcheck

end AstroPassport
