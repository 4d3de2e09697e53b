import AstroPassport.Conformance.Accepted
import AstroPassport.Conformance.Projection

set_option autoImplicit false

/-! # What an accepted pair is

`compare_pair` returns for one pair of requests and responses only, up to the order of members: the
requests that `legacy_request` makes of the old records and the responses that `project_reference`
makes of them.

For the response, every new row gives the value that the accepted response has at the row's place
(`Matched.gives`), the rows of the table are all the leaves of the model, and so the projection,
which is built from these rows, is the response (`Matched.projectReference_same`). For the request,
the leaves that `legacy_request` reads are carried over by old rows without a change or through a
clock (`legacyRequest_carried`), and what it writes itself are the constants of the model
(`request_constants`). The two functions have one result at most, and no part of it is left open by
the comparison, so the old records determine the pair (`StandsFor.unique`, `comparePair_pinned`).
The pair of the other module is one to which this applies. -/

namespace AstroPassport

open JsonValue

variable {lib : PyLibrary} {newRevision : String}

/-! ## An accepted response -/

/-- The response with its two bodies in an object, under their indices. -/
def spreadBodies (ms : List (String × JsonValue)) (sun moon : JsonValue) : JsonValue :=
  .obj (Dict.set "bodies" (.obj [("0", sun), ("1", moon)]) ms)

theorem spreadBodies_lookup (ms : List (String × JsonValue)) (sun moon : JsonValue) (k : String) :
    (Dict.set "bodies" (JsonValue.obj [("0", sun), ("1", moon)]) ms).lookup k =
      if k = "bodies" then some (.obj [("0", sun), ("1", moon)]) else ms.lookup k := lookup_set

/-- The members of a response other than the bodies do not depend on where these have leaves. -/
theorem mem_placesWith {bodies bodies' : List (List JsonStep)}
    {m : String × List (List JsonStep)}
    (h : m ∈ AstroPassportResponseV1.placesWith bodies) :
    m = ("bodies", bodies) ∨
      m ∈ AstroPassportResponseV1.placesWith bodies' ∧ m.1 ≠ "bodies" := by
  simp only [AstroPassportResponseV1.placesWith, leafPlaces, List.map_cons, List.map_nil,
    List.cons_append, List.nil_append, List.mem_cons, List.not_mem_nil, or_false] at h ⊢
  rcases h with rfl | rfl | rfl | rfl | rfl | rfl | rfl | rfl | rfl | rfl | rfl <;> simp

/-- What is used of a valid response: its bodies, its constants, and where it has its leaves. -/
structure ResponseShape (ms : List (String × JsonValue)) (sun moon : JsonValue) : Prop where
  bodies : ms.lookup "bodies" = some (.arr [sun, moon])
  sun_obj : sun.isPlain = false
  moon_obj : moon.isPlain = false
  constants : ∀ c ∈ NewRow.constants,
    (spreadBodies ms sun moon).get (Path.place c.1.tail) = some (.str c.2)
  covers : Covers (responsePaths.map Path.place) (spreadBodies ms sun moon)

theorem isPlain_of_longitude {body : String} {v : JsonValue} {l : Longitude}
    (h : (Longitude.model body).decode v = .ok l) : v.isPlain = false := by
  obtain ⟨ms, a, rfl, -⟩ := Codec.object_eq_ok.1 (Codec.after_eq_ok.1 h).1
  rfl

theorem responseShape {response : JsonValue} {a : AstroPassportResponseV1}
    (h : AstroPassportResponseV1.model.decode response = .ok a) :
    ∃ ms sun moon, response = .obj ms ∧ ResponseShape ms sun moon := by
  obtain ⟨ms, fields, rfl, hread, hnames, -⟩ := Codec.object_eq_ok.1 (Codec.after_eq_ok.1 h).1
  have hmembers := AstroPassportResponseV1.fields_placed.covers hread
  have hall := hread
  simp only [AstroPassportResponseV1.fields, Fields.literal_eq_ok, Fields.field_eq_ok] at hall
  obtain ⟨hschema, hcontract, hprofile, -, -, -, -, hbodies, hprovenance, hserialization,
    hauthenticity, -⟩ := hall
  obtain ⟨_, hbodies, hpair⟩ := Codec.member_eq_ok.1 hbodies
  obtain ⟨sun, moon, rfl, hsun, hmoon⟩ := Codec.pair_eq_ok.1 hpair
  obtain ⟨_, hprovenance, hvalue⟩ := Codec.member_eq_ok.1 hprovenance
  obtain ⟨ps, _, rfl, hfields, -⟩ := Codec.object_eq_ok.1 hvalue
  have hversion := (Fields.literal_eq_ok.1 hfields).1
  have hindexed : Covers (under bodiesByIndex) (.obj [("0", sun), ("1", moon)]) := by
    refine covers_obj (List.cons_ne_nil _ _) ?_ ?_
    · simp [bodiesByIndex]
    · simp only [bodiesByIndex, List.forall_mem_cons, List.not_mem_nil, false_implies, implies_true,
        and_true]
      exact ⟨⟨sun, rfl, (Longitude.placed "sun").covers hsun⟩,
        ⟨moon, rfl, (Longitude.placed "moon").covers hmoon⟩⟩
  refine ⟨ms, sun, moon, rfl, hbodies, isPlain_of_longitude hsun, isPlain_of_longitude hmoon, ?_, ?_⟩
  · simp only [NewRow.constants, List.forall_mem_cons, List.not_mem_nil, false_implies, implies_true,
      and_true]
    have hconstant : ∀ k s, k ≠ "bodies" → ms.lookup k = some (.str s) →
        (spreadBodies ms sun moon).get [.key k] = some (.str s) := by
      intro k s hk hs
      rw [spreadBodies, get_key, spreadBodies_lookup, if_neg hk, hs]
      rfl
    refine ⟨hconstant _ _ (by decide) hschema, hconstant _ _ (by decide) hcontract,
      hconstant _ _ (by decide) hprofile, hconstant _ _ (by decide) hauthenticity,
      hconstant _ _ (by decide) hserialization, ?_⟩
    show (spreadBodies ms sun moon).get [.key "provenance", .key "schema_version"] = _
    rw [spreadBodies, get_key, spreadBodies_lookup, if_neg (by decide), hprovenance]
    exact (Option.bind_eq_some_iff.mpr ⟨_, hversion, rfl⟩ :)
  · rw [← under_responseMembers]
    refine covers_obj (List.cons_ne_nil _ _) ?_ ?_
    · intro m hm
      have heq : (AstroPassportResponseV1.placesWith (under bodiesByIndex)).map Prod.fst =
        AstroPassportResponseV1.fields.names := rfl
      rw [heq]
      rcases List.mem_cons.mp (Dict.set_subset _ _ _ hm) with rfl | hm
      · rw [← heq]
        exact List.mem_map.mpr ⟨("bodies", under bodiesByIndex),
          by simp [AstroPassportResponseV1.placesWith], rfl⟩
      · exact hnames m hm
    · intro m hm
      rcases mem_placesWith hm with rfl | ⟨hm, hne⟩
      · exact ⟨_, by rw [spreadBodies_lookup, if_pos rfl], hindexed⟩
      · obtain ⟨x, hx, hcovers⟩ := hmembers m hm
        exact ⟨x, by rw [spreadBodies_lookup, if_neg hne, hx], hcovers⟩

theorem throughObjects_keys (p : List String) : throughObjects (keys p) = true := by
  induction p with
  | nil => rfl
  | cons k p ih => exact ih

theorem text_keys (p : List String) : (keys p).map JsonStep.text = p := by
  rw [keys, List.map_map]
  exact List.map_id' p

/-- A leaf of the response with spread bodies is a leaf of the response, at a place of that path. -/
theorem place_of_spread {ms : List (String × JsonValue)} {sun moon x : JsonValue} {p : List String}
    (hshape : ResponseShape ms sun moon) (hx : (spreadBodies ms sun moon).get (keys p) = some x)
    (hplain : x.isPlain = true) :
    ∃ q, throughObjects q = true ∧ q.map JsonStep.text = p ∧ (JsonValue.obj ms).get q = some x := by
  rcases p with _ | ⟨k, p⟩
  · cases hx
    cases hplain
  · have hget : ((Dict.set "bodies" (JsonValue.obj [("0", sun), ("1", moon)]) ms).lookup k).bind
      (JsonValue.get (keys p)) = some x := hx
    rw [spreadBodies_lookup] at hget
    split at hget
    · next hk =>
        subst hk
        -- below the bodies an index stands for a key
        have hbody : ∀ (i : ℕ) (body : JsonValue), [sun, moon][i]? = some body → body.isPlain = false →
            ∀ l, toString i = l → ∀ p, body.get (keys p) = some x →
            ∃ q, throughObjects q = true ∧ q.map JsonStep.text = "bodies" :: l :: p ∧
              (JsonValue.obj ms).get q = some x := by
          intro i body hi hbody l hl p hp
          rcases p with _ | ⟨m, p⟩
          · cases hp
            rw [hplain] at hbody
            cases hbody
          · refine ⟨.key "bodies" :: .index i :: .key m :: keys p, throughObjects_keys p, ?_, ?_⟩
            · rw [List.map_cons, List.map_cons, List.map_cons, text_keys, ← hl]
              rfl
            · rw [get_key, hshape.bodies, Option.bind_some, get_index, hi]
              exact hp
        rcases p with _ | ⟨l, p⟩
        · cases hget
          cases hplain
        · have hpair : ([("0", sun), ("1", moon)].lookup l).bind (JsonValue.get (keys p)) = some x :=
            hget
          rw [List.lookup_cons] at hpair
          split at hpair
          · next hl => exact hbody 0 sun rfl hshape.sun_obj l (eq_of_beq hl).symm p hpair
          · rw [List.lookup_cons] at hpair
            split at hpair
            · next hl => exact hbody 1 moon rfl hshape.moon_obj l (eq_of_beq hl).symm p hpair
            · cases hpair
    · exact ⟨keys (k :: p), throughObjects_keys _, text_keys _, hget⟩

/-! ## The response -/

section Response

variable {record request response : JsonValue} {news old : Flat} {selected legacy : JsonValue}
  {ms : List (String × JsonValue)} {sun moon : JsonValue}

/-- Every row of the response gives what the response has at its place. -/
theorem Matched.gives
    (hm : Matched lib newRevision record request (.obj ms) news old selected legacy)
    (hshape : ResponseShape ms sun moon) {row : NewRow} (hrow : row ∈ responseRows) :
    row.Gives lib newRevision old (spreadBodies ms sun moon) := by
  have htail := List.all_eq_true.mp responseRows_tail row hrow
  rw [Bool.and_eq_true, List.contains_iff_mem, beq_iff_eq] at htail
  obtain ⟨hmem, hpath⟩ := htail
  obtain ⟨x, hx, hplain⟩ := hshape.covers.leaf _ (List.mem_map_of_mem hmem)
  obtain ⟨q, hq, htext, hget⟩ := place_of_spread hshape hx hplain
  obtain ⟨-, -, provenance, hleaves⟩ := newLeaves_eq_ok hm.news_eq
  have hnews : news.lookup (Path.texts row.path) = some x := by
    have hlookup : news.lookup ("response" :: q.map JsonStep.text) = some x :=
      news_lookup hleaves rfl hq hget hplain
    rw [htext] at hlookup
    rw [hpath]
    exact hlookup
  have hx : (spreadBodies ms sun moon).get (keys row.parts) = some x := hx
  refine ⟨fun hnil => ?_, ?_⟩
  · rw [hnil] at hx
    cases hx
    cases hplain
  · have hlink := List.all_eq_true.mp linked_response row hrow
    rcases hretained : row.retained with _ | ⟨source, _⟩
    · -- a constant of the envelope
      rw [hretained, Bool.and_eq_true, beq_iff_eq] at hlink
      obtain ⟨hkeep, hconstant⟩ := hlink
      obtain ⟨s, hs⟩ := Option.isSome_iff_exists.mp hconstant
      have hmemConstants : (row.path, s) ∈ NewRow.constants := mem_of_lookup hs
      refine ⟨.str s, .str s, ?_, ?_, hshape.constants _ hmemConstants, rfl⟩
      · rw [NewRow.value, hretained, hs]
        rfl
      · rw [hkeep]
        rfl
    · rw [hretained] at hlink
      obtain ⟨value, hvalue, hprojected⟩ := hm.projected hlink hnews hplain
      refine ⟨value, x, ?_, hprojected, hx, hplain⟩
      rw [NewRow.value, hretained]
      exact leaf_eq_ok.2 hvalue

/-- The loop over the rows builds the response with spread bodies. -/
theorem Matched.foldlM_same
    (hm : Matched lib newRevision record request (.obj ms) news old selected legacy)
    (hshape : ResponseShape ms sun moon) :
    ∃ built, responseRows.foldlM (NewRow.project lib newRevision old) (.obj []) = .ok built ∧
      Same built (spreadBodies ms sun moon) := by
  obtain ⟨built, hbuilt, hb⟩ := foldlM_project (fun row hrow => hm.gives hshape hrow)
    (Built.empty (spreadBodies ms sun moon)) (fun p hp => by cases hp)
  rw [List.append_nil] at hb
  have hget : ∀ p ∈ responsePaths.map Path.place,
      built.get p = (spreadBodies ms sun moon).get p := by
    intro p hp
    obtain ⟨path, hpath, rfl⟩ := List.mem_map.mp hp
    obtain ⟨row, hrow, heq⟩ := List.any_eq_true.mp (List.all_eq_true.mp responsePaths_rows path hpath)
    have hparts : path.texts = row.parts := by rw [NewRow.parts, eq_of_beq heq, List.tail_cons]
    rw [Path.place, hparts]
    exact hb.get_eq _ (List.mem_reverse.mpr (List.mem_map_of_mem hrow))
  have hcovers : Covers (responsePaths.map Path.place) built := by
    refine ⟨fun p hp => hget p hp ▸ hshape.covers.leaf p hp, fun q hq => ?_⟩
    rcases hb.onWay q hq with rfl | ⟨p, hp, hway⟩
    · obtain ⟨p, hp, -⟩ := hshape.covers.onWay [] rfl
      exact ⟨p, hp, .inl List.nil_prefix⟩
    · obtain ⟨row, hrow, rfl⟩ := List.mem_map.mp (List.mem_reverse.mp hp)
      have htail := List.all_eq_true.mp responseRows_tail row hrow
      rw [Bool.and_eq_true, List.contains_iff_mem] at htail
      exact ⟨_, List.mem_map_of_mem htail.1, hway⟩
  exact ⟨built, hbuilt, same_of_covers hcovers hshape.covers hget⟩

/-- `project_reference` gives back the response that passed. -/
theorem Matched.projectReference_same
    (hm : Matched lib newRevision record request response news old selected legacy) :
    ∃ projected, projectReference lib record newRevision = .ok projected ∧
      Same projected response := by
  obtain ⟨-, ⟨a, ha⟩, -⟩ := newLeaves_eq_ok hm.news_eq
  obtain ⟨ms, sun, moon, rfl, hshape⟩ := responseShape ha
  obtain ⟨built, hbuilt, hsame⟩ := hm.foldlM_same hshape
  obtain ⟨bs, rfl, hback⟩ := Same.obj hsame.symm
  have hrel : ∀ k, Option.Rel Same
      (if k = "bodies" then some (JsonValue.obj [("0", sun), ("1", moon)]) else ms.lookup k)
      (bs.lookup k) := fun k => by
    rw [← spreadBodies_lookup]
    exact Same.rel hback k
  -- the two bodies are found under their indices
  obtain ⟨bodies, hbodies, hobj⟩ := hsame.symm.child (s := .key "bodies") (x := _)
    ((spreadBodies_lookup ms sun moon "bodies").trans (if_pos rfl))
  obtain ⟨bodyMembers, rfl, hbodyMembers⟩ := Same.obj hobj
  obtain ⟨sun', hsun', hsunSame⟩ := Same.child (s := .key "0") hbodyMembers (x := sun) rfl
  obtain ⟨moon', hmoon', hmoonSame⟩ := Same.child (s := .key "1") hbodyMembers (x := moon) rfl
  have hresult : Same (.obj (Dict.set "bodies" (.arr [sun', moon']) bs)) (.obj ms) := by
    refine same_obj fun k => ?_
    rw [lookup_set]
    by_cases hk : k = "bodies"
    · rw [if_pos hk, hk, hshape.bodies]
      exact .some (same_pair hsunSame.symm hmoonSame.symm)
    · have hkrel := hrel k
      rw [if_neg hk] at hkrel ⊢
      generalize ms.lookup k = x, bs.lookup k = y at hkrel
      rcases hkrel with hxy | _
      · exact .some hxy.symm
      · exact .none
  refine ⟨_, ?_, hresult⟩
  have hdecode : AstroPassportResponseV1.model.decode
      (.obj (Dict.set "bodies" (.arr [sun', moon']) bs)) = .ok a := by
    rw [AstroPassportResponseV1.placed.respects hresult, ha]
  rw [projectReference, bind_of_eq_ok hm.old_eq, bind_of_eq_ok hbuilt,
    bind_of_eq_ok (item_eq_ok.2 hbodies), bind_of_eq_ok (item_eq_ok.2 hsun'),
    bind_of_eq_ok (item_eq_ok.2 hmoon'), JsonValue.setPath]
  show (AstroPassportResponseV1.model.decode _).orRaise >>= _ = _
  rw [bind_of_eq_ok (orRaise_eq_ok.2 hdecode)]
  rfl

end Response

/-! ## The request -/

section Request

variable {record request response : JsonValue} {news old : Flat} {selected legacy : JsonValue}

/-- The literals of a valid request. -/
theorem request_constants {v : JsonValue} {a : AstroPassportRequestV1}
    (h : AstroPassportRequestV1.model.decode v = .ok a) :
    v.get (Path.place [.schemaVersion]) = some (.str "AstroPassportRequest.v1") ∧
      v.get (Path.place [.contractVersion]) = some (.str "1.0.0") ∧
      v.get (Path.place [.profile]) = some (.str "sun-moon.v1") ∧
      v.get (Path.place [.selectedPlace, .schemaVersion]) = some (.str "SelectedPlaceInput.v1") := by
  obtain ⟨ms, fields, rfl, hread, -⟩ := Codec.object_eq_ok.1 h
  simp only [AstroPassportRequestV1.fields, Fields.literal_eq_ok, Fields.field_eq_ok] at hread
  obtain ⟨hschema, hcontract, hprofile, hplace, -⟩ := hread
  obtain ⟨place, hplace, hvalue⟩ := Codec.member_eq_ok.1 hplace
  obtain ⟨ps, _, rfl, hfields, -⟩ := Codec.object_eq_ok.1 (Codec.after_eq_ok.1 hvalue).1
  have hversion := (Fields.literal_eq_ok.1 hfields).1
  have hconstant : ∀ k s, ms.lookup k = some (.str s) →
      (JsonValue.obj ms).get [.key k] = some (.str s) := by
    intro k s hs
    rw [get_key, hs]
    rfl
  refine ⟨hconstant _ _ hschema, hconstant _ _ hcontract, hconstant _ _ hprofile, ?_⟩
  show (JsonValue.obj ms).get [.key "selected_place", .key "schema_version"] = _
  rw [get_key, hplace]
  exact (Option.bind_eq_some_iff.mpr ⟨_, hversion, rfl⟩ :)

/-- A place of the request holds what the value at a place of the record is rewritten to. -/
def Carried (lib : PyLibrary) (newRevision : String) (record legacy : JsonValue)
    (s : Path × Path × Rewrite) : Prop :=
  ∃ v x, record.get s.1.place = some v ∧ v.isPlain = true ∧ legacy.get s.2.1.place = some x ∧
    ∀ y, s.2.2.projected lib newRevision v = .ok y → y = x

theorem time_eq_ok {v : JsonValue} {t : ParsedTime} (h : lib.time v = .ok t) : ∃ s, v = .str s := by
  cases v with
  | str s => exact ⟨s, rfl⟩
  | _ => cases h

theorem mapping_eq_ok {v : JsonValue} {ms : List (String × JsonValue)} (h : v.mapping = .ok ms) :
    v = .obj ms := by
  cases v <;> cases h
  rfl

/-- `legacy_request` fills every place of the request that is not a constant. -/
theorem legacyRequest_carried (hdistinct : record.distinct = true)
    (hselected : record.item "selected" = .ok selected)
    (h : legacyRequest lib selected = .ok legacy) :
    (∃ a, AstroPassportRequestV1.model.decode legacy = .ok a) ∧
      ∀ s ∈ requestSources, Carried lib newRevision record legacy s := by
  obtain ⟨raw, hraw, h⟩ := bind_eq_ok.1 h
  obtain ⟨place, hplace, h⟩ := bind_eq_ok.1 h
  obtain ⟨placeQuery, _, h⟩ := bind_eq_ok.1 h
  obtain ⟨search, hsearch, h⟩ := bind_eq_ok.1 h
  obtain ⟨query, hquery, h⟩ := bind_eq_ok.1 h
  obtain ⟨_, _, h⟩ := bind_eq_ok.1 h
  obtain ⟨candidate, hcandidate, h⟩ := bind_eq_ok.1 h
  obtain ⟨date, hdate, h⟩ := bind_eq_ok.1 h
  obtain ⟨timeText, htimeText, h⟩ := bind_eq_ok.1 h
  obtain ⟨time, htime, h⟩ := bind_eq_ok.1 h
  obtain ⟨fold, hfold, h⟩ := bind_eq_ok.1 h
  obtain ⟨members, hmembers, h⟩ := bind_eq_ok.1 h
  obtain ⟨limit, hlimit, h⟩ := bind_eq_ok.1 h
  obtain ⟨index, hindex, h⟩ := bind_eq_ok.1 h
  obtain ⟨count, hcount, h⟩ := bind_eq_ok.1 h
  obtain ⟨a, ha, h⟩ := bind_eq_ok.1 h
  cases h
  rw [orRaise_eq_ok] at ha
  obtain rfl := mapping_eq_ok hmembers
  obtain ⟨text, rfl⟩ := time_eq_ok htime
  rw [item_eq_ok] at hselected hraw hplace hsearch hquery hcandidate hdate
  rw [item_eq_ok] at htimeText hfold hlimit hindex hcount
  have hcovers := AstroPassportRequestV1.placed.covers ha
  rw [under_requestMembers] at hcovers
  refine ⟨⟨a, ha⟩, ?_⟩
  generalize hlegacy : JsonValue.obj _ = legacy at ha hcovers ⊢
  have hleaf : ∀ target ∈ requestPaths,
      ∃ x, legacy.get (Path.place target) = some x ∧ x.isPlain = true :=
    fun target htarget => hcovers.leaf _ (List.mem_map_of_mem htarget)
  have hkeep : ∀ source target x, target ∈ requestPaths →
      record.get (Path.place source) = some x → legacy.get (Path.place target) = some x →
      Carried lib newRevision record legacy (source, target, .keep) := by
    intro source target x htarget hsource hget
    obtain ⟨y, hy, hplain⟩ := hleaf target htarget
    rw [hget] at hy
    cases hy
    exact ⟨x, x, hsource, hplain, hget, fun y hy => by cases hy; rfl⟩
  have hrecord : ∀ {p x}, selected.get p = some x → record.get (.key "selected" :: p) = some x :=
    get_step hselected
  have hplaceAt : ∀ {p x}, place.get p = some x →
      record.get (.key "selected" :: .key "selected_place" :: p) = some x :=
    fun h => hrecord (get_step hplace h)
  have hsearchAt : ∀ {p x}, search.get p = some x → record.get
      (.key "selected" :: .key "selected_place" :: .key "search_request" :: p) = some x :=
    fun h => hplaceAt (get_step hsearch h)
  have hrawAt : ∀ {p x}, raw.get p = some x →
      record.get (.key "selected" :: .key "raw" :: p) = some x :=
    fun h => hrecord (get_step hraw h)
  -- the members of the candidate are spread between the schema and the query
  have hnodup : (members.map Prod.fst).Nodup :=
    distinct_names <| distinct_child (distinct_child (distinct_child hdistinct hselected) hplace)
      hcandidate
  have hspread : ∀ k, legacy.get [.key "selected_place", .key k] =
      (([("query", query), ("requested_limit", limit), ("selected_index", index),
        ("result_count", count)] : List (String × JsonValue)).lookup k).or
        ((members.lookup k).or
          ([("schema_version", JsonValue.str "SelectedPlaceInput.v1")].lookup k)) := by
    intro k
    rw [← hlegacy]
    show ((Dict.ofMembers ([("schema_version", JsonValue.str "SelectedPlaceInput.v1")] ++ members ++
      [("query", query), ("requested_limit", limit), ("selected_index", index),
        ("result_count", count)])).lookup k).bind some = _
    rw [Option.bind_fun_some, Dict.ofMembers, List.foldl_append, List.foldl_append,
      lookup_foldl_set (by simp), lookup_foldl_set hnodup, lookup_foldl_set (by simp)]
    simp
  have hcandidateKeep : ∀ k : Key, [.selectedPlace, k] ∈ requestPaths →
      k.text ∉ ["schema_version", "query", "requested_limit", "selected_index", "result_count"] →
      Carried lib newRevision record legacy
        ([.selected, .selectedPlace, .candidate, k], [.selectedPlace, k], .keep) := by
    intro k hk hother
    obtain ⟨x, hx, -⟩ := hleaf _ hk
    have hmember : members.lookup k.text = some x := by
      have hget := (hspread k.text).symm.trans hx
      simp only [List.mem_cons, List.not_mem_nil, or_false, not_or] at hother
      obtain ⟨hschema, hquery, hlimit, hindex, hcount⟩ := hother
      simpa [List.lookup_cons, beq_false_of_ne, hschema, hquery, hlimit, hindex, hcount] using hget
    exact hkeep _ _ x hk (hplaceAt (get_step hcandidate (get_step (w := x) hmember rfl))) hx
  have hclock : Carried lib newRevision record legacy
      ([.selected, .raw, .time], [.civil, .time], .clock) := by
    refine ⟨.str text, .str time.isoformat, hrawAt (get_step htimeText rfl), rfl, ?_, ?_⟩
    · rw [← hlegacy]
      rfl
    · intro y hy
      obtain ⟨time', htime', hy⟩ := bind_eq_ok.1 hy
      rw [htime] at htime'
      cases htime'
      cases hy
      rfl
  simp only [requestSources, List.forall_mem_cons, List.not_mem_nil, false_implies, implies_true,
    and_true]
  refine ⟨hkeep _ _ date (by decide) (hrawAt (get_step hdate rfl)) (by rw [← hlegacy]; rfl), hclock,
    hkeep _ _ fold (by decide) (hrecord (get_step hfold rfl)) (by rw [← hlegacy]; rfl),
    hcandidateKeep _ (by decide) (by decide), hcandidateKeep _ (by decide) (by decide),
    hcandidateKeep _ (by decide) (by decide), hcandidateKeep _ (by decide) (by decide),
    hcandidateKeep _ (by decide) (by decide), hcandidateKeep _ (by decide) (by decide),
    hkeep _ _ query (by decide) (hsearchAt (get_step hquery rfl)) ((hspread _).trans ?_),
    hkeep _ _ limit (by decide) (hsearchAt (get_step hlimit rfl)) ((hspread _).trans ?_),
    hkeep _ _ index (by decide) (hplaceAt (get_step hindex rfl)) ((hspread _).trans ?_),
    hkeep _ _ count (by decide) (hplaceAt (get_step hcount rfl)) ((hspread _).trans ?_)⟩
  all_goals simp [Key.text, List.lookup_cons]

/-- The request that passed is the legacy request. -/
theorem Matched.legacy_same (hdistinct : record.distinct = true)
    (hm : Matched lib newRevision record request response news old selected legacy) :
    Same legacy request := by
  obtain ⟨⟨b, hb⟩, -, provenance, hleaves⟩ := newLeaves_eq_ok hm.news_eq
  obtain ⟨⟨a, ha⟩, hcarried⟩ : (∃ a, AstroPassportRequestV1.model.decode legacy = .ok a) ∧
      ∀ s ∈ requestSources, Carried lib newRevision record legacy s :=
    legacyRequest_carried hdistinct hm.selected_eq hm.legacy_eq
  have hcovers := AstroPassportRequestV1.placed.covers hb
  refine same_of_covers (AstroPassportRequestV1.placed.covers ha) hcovers ?_
  rw [under_requestMembers] at hcovers ⊢
  intro p hp
  obtain ⟨target, htarget, rfl⟩ := List.mem_map.mp hp
  have hkind := List.all_eq_true.mp requestPaths_sources target htarget
  rw [Bool.or_eq_true, List.contains_iff_mem, List.any_eq_true] at hkind
  rcases hkind with hconstant | ⟨s, hs, heq⟩
  · obtain ⟨hschema, hcontract, hprofile, hplace⟩ := request_constants ha
    obtain ⟨hschema', hcontract', hprofile', hplace'⟩ := request_constants hb
    simp only [requestConstants, List.mem_cons, List.not_mem_nil, or_false] at hconstant
    rcases hconstant with rfl | rfl | rfl | rfl
    · rw [hschema, hschema']
    · rw [hcontract, hcontract']
    · rw [hprofile, hprofile']
    · rw [hplace, hplace']
  · -- filled from the record, so it has the value that the row was compared with
    obtain rfl := eq_of_beq heq
    obtain ⟨v, x, hv, hvplain, hx, hunique⟩ := hcarried s hs
    obtain ⟨y, hy, hyplain⟩ := hcovers.leaf _ hp
    have hnews : news.lookup (Path.texts (.request :: s.2.1)) = some y := by
      have hlookup : news.lookup ("request" :: (Path.place s.2.1).map JsonStep.text) = some y :=
        news_lookup hleaves rfl (throughObjects_keys _) hy hyplain
      rw [Path.place, text_keys] at hlookup
      exact hlookup
    obtain ⟨value, hvalue, hprojected⟩ :=
      hm.projected (List.all_eq_true.mp linked_request s hs) hnews hyplain
    have hold := leaf_of_get (throughObjects_keys _) hm.old_eq hv hvplain
    rw [text_keys, hvalue] at hold
    cases hold
    rw [hx, hy, hunique y hprojected]

end Request

/-! ## The pair -/

/-- The new exchange of a record is the one the record stands for. -/
def StandsFor (lib : PyLibrary) (newRevision : String) (record request response : JsonValue) :
    Prop :=
  (∃ selected legacy, record.item "selected" = .ok selected ∧
    legacyRequest lib selected = .ok legacy ∧ Same legacy request) ∧
  ∃ projected, projectReference lib record newRevision = .ok projected ∧ Same projected response

theorem Matched.standsFor {record : PyJson} {request response : JsonValue} {news old : Flat}
    {selected legacy : JsonValue}
    (hm : Matched lib newRevision record.value request response news old selected legacy) :
    StandsFor lib newRevision record.value request response :=
  ⟨⟨selected, legacy, hm.selected_eq, hm.legacy_eq, hm.legacy_same record.distinct⟩,
    hm.projectReference_same⟩

/-- A record stands for one exchange. -/
theorem StandsFor.unique {record request response request' response' : JsonValue}
    (h : StandsFor lib newRevision record request response)
    (h' : StandsFor lib newRevision record request' response') :
    Same request request' ∧ Same response response' := by
  obtain ⟨⟨selected, legacy, hselected, hlegacy, hrequest⟩, projected, hprojected, hresponse⟩ := h
  obtain ⟨⟨_, _, hselected', hlegacy', hrequest'⟩, _, hprojected', hresponse'⟩ := h'
  rw [hselected] at hselected'
  cases hselected'
  rw [hlegacy] at hlegacy'
  cases hlegacy'
  rw [hprojected] at hprojected'
  cases hprojected'
  exact ⟨hrequest.symm.trans hrequest', hresponse.symm.trans hresponse'⟩

/-- The exchanges of a pair of records, request and response of each. -/
def PairStandsFor (lib : PyLibrary) (newRevision : String) (old requests responses : List PyJson) :
    Prop :=
  ∃ record₀ record₁ request₀ request₁ response₀ response₁,
    old = [record₀, record₁] ∧ requests = [request₀, request₁] ∧
    responses = [response₀, response₁] ∧
    StandsFor lib newRevision record₀.value request₀.value response₀.value ∧
    StandsFor lib newRevision record₁.value request₁.value response₁.value

/-- An accepted pair is the one the old records stand for, so it is the only one. -/
theorem comparePair_pinned {old requests responses : List PyJson} {retained : String}
    {counts : Counts}
    (h : comparePair lib old requests responses newRevision retained = .ok counts) :
    PairStandsFor lib newRevision old requests responses ∧
      ∀ requests' responses' retained' counts',
        comparePair lib old requests' responses' newRevision retained' = .ok counts' →
        List.Forall₂ (fun a b => Same a.value b.value) requests requests' ∧
          List.Forall₂ (fun a b => Same a.value b.value) responses responses' := by
  obtain ⟨r₀, r₁, q₀, q₁, s₀, s₁, rfl, rfl, rfl, ⟨_, _, _, _, hm₀⟩, _, _, _, _, hm₁⟩ :=
    comparePair_eq_ok h
  refine ⟨⟨r₀, r₁, q₀, q₁, s₀, s₁, rfl, rfl, rfl, hm₀.standsFor, hm₁.standsFor⟩, ?_⟩
  intro requests' responses' retained' counts' h'
  obtain ⟨_, _, q₀', q₁', s₀', s₁', heq, rfl, rfl, ⟨_, _, _, _, hm₀'⟩, _, _, _, _, hm₁'⟩ :=
    comparePair_eq_ok h'
  cases heq
  obtain ⟨hq₀, hs₀⟩ := hm₀.standsFor.unique hm₀'.standsFor
  obtain ⟨hq₁, hs₁⟩ := hm₁.standsFor.unique hm₁'.standsFor
  exact ⟨.cons hq₀ (.cons hq₁ .nil), .cons hs₀ (.cons hs₁ .nil)⟩

theorem comparePair_pinned_synthetic : ∃ counts,
    comparePair syntheticLib [syntheticRecord, syntheticRecord] [syntheticRequest, syntheticRequest]
      [syntheticResponse, syntheticResponse] zeroRevision syntheticDigest = .ok counts ∧
    PairStandsFor syntheticLib zeroRevision [syntheticRecord, syntheticRecord]
      [syntheticRequest, syntheticRequest] [syntheticResponse, syntheticResponse] := by
  obtain ⟨counts, h⟩ := comparePair_synthetic
  exact ⟨counts, h, (comparePair_pinned h).1⟩

end AstroPassport
