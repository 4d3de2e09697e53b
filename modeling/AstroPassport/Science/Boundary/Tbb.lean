import AstroPassport.Science.Errors

set_option autoImplicit false

/-! # The boundary resolver

`TBBTimezoneBoundaryResolver.resolve` of `boundaries/tbb.py` over the features its constructor
accepted. The geometry library is a parameter: the answers of its spatial index and the two
predicates of a geometry, each of which may raise one of its exceptions. Whatever they answer, the
fact that is made of the answers passes its own model, so that `resolve` raises a
`TimezoneBoundaryError` or nothing (`resolve_eq_error`).

The coordinates are validated first, again, because a value may have been constructed without. Then
the index is asked for candidates and each of them for covering and for holding the point; an
exception of the library is turned into the category of the stage. What is known of the features is
what the constructor checked of them: their zones are catalogued, and each has a geometry. What the
outcome says of a point is a matter of its own. -/

namespace AstroPassport

/-! ## The code -/

/-- What the geometry library raises. -/
inductive GeometryRaise where
  | memoryError
  | geosException
  deriving DecidableEq, Repr

/-- A geometry by the predicates a lookup asks it for. -/
structure Geometry where
  covers : GeographicCoordinates → Except GeometryRaise Bool
  contains : GeographicCoordinates → Except GeometryRaise Bool

/-- `FEATURE_COUNT`. -/
def featureCount : ℕ := 419

/-- The features in the order of the file, as `_parse_geometry` returns them for a catalog, and
    `self._tree.query`. -/
structure TBBTimezoneBoundaryResolver where
  features : List (String × Geometry)
  query : GeographicCoordinates → Except GeometryRaise (List (Fin features.length))
  distinct : (features.map Prod.fst).Nodup
  named : ∀ f ∈ features, 1 ≤ f.1.length ∧ f.1.length ≤ 128
  length_le : features.length ≤ featureCount

/-- What leaves `_outcome`. -/
inductive OutcomeRaise where
  | geometry (e : GeometryRaise)
  | valueError
  deriving DecidableEq, Repr

/-- What leaves `resolve`. -/
inductive BoundaryRaise where
  | timezoneBoundary (category : TimezoneBoundaryFailure)
  | valueError
  deriving DecidableEq, Repr

/-- `abs(x) == n`. -/
def Binary64.absIs (n : ℚ) : Binary64 → Bool
  | .finite x => decide (x.abs = n)
  | _ => false

/-- `TimezoneBoundaryResult(**fields, ...)`. -/
def TimezoneBoundaryResult.make (b : TimezoneBoundaryResult) :
    Except OutcomeRaise TimezoneBoundaryResult :=
  if b.valid then .ok b else .error .valueError

/-- The loop of `_outcome` over the index: the ids and whether a geometry is only touched. -/
def collectZones (features : List (String × Geometry)) (point : GeographicCoordinates) :
    List (Fin features.length) → List String × Bool → Except GeometryRaise (List String × Bool)
  | [], found => .ok found
  | index :: rest, (ids, boundary) => do
    let feature := features[index]
    let covers ← feature.2.covers point
    if covers then do
      let contains ← feature.2.contains point
      collectZones features point rest (ids ++ [feature.1], boundary || !contains)
    else collectZones features point rest (ids, boundary)

/-- `_outcome` after the loop. -/
def classify (fields : TimezoneBoundaryResult) (ids : List String) (boundary : Bool) :
    TimezoneBoundaryResult :=
  if boundary then
    { fields with status := .boundary, reason := some .polygonBoundary,
                  candidateIds := sortedSet ids }
  else
    match sortedSet ids with
    | [] => { fields with status := .noMatch, reason := some .outsideDataset }
    | [id] => { fields with status := .resolved, tzid := some id }
    | ordered =>
      { fields with status := .ambiguous, reason := some .multipleZoneInteriors,
                    candidateIds := ordered }

/-- `fields` of `_outcome`, with the defaults of the fields that are not among them. -/
def boundaryFields (coordinates : GeographicCoordinates) : TimezoneBoundaryResult where
  coordinates
  provenance := pinnedProvenance
  status := .boundary
  tzid := none
  reason := none
  candidateIds := []

namespace TBBTimezoneBoundaryResolver

/-- `_outcome`. -/
def outcome (r : TBBTimezoneBoundaryResolver) (coordinates : GeographicCoordinates) :
    Except OutcomeRaise TimezoneBoundaryResult :=
  if coordinates.longitude.absIs 180 || coordinates.latitude.absIs 90 then
    TimezoneBoundaryResult.make
      { boundaryFields coordinates with
        status := .boundary
        reason := some .coordinateSeamOrPole }
  else do
    let indices ← (r.query coordinates).mapError .geometry
    let (ids, boundary) ← (collectZones r.features coordinates indices ([], false)).mapError .geometry
    (classify (boundaryFields coordinates) ids boundary).make

/-- The `except` clauses of `resolve`. -/
def handled : OutcomeRaise → BoundaryRaise
  | .geometry .memoryError => .timezoneBoundary .artifactUnavailable
  | .geometry .geosException => .timezoneBoundary .artifactInvalid
  | .valueError => .valueError

/-- `resolve`. -/
def resolve (r : TBBTimezoneBoundaryResolver) (coordinates : GeographicCoordinates) :
    Except BoundaryRaise TimezoneBoundaryResult :=
  if coordinates.valid then (r.outcome coordinates).mapError handled
  else .error (.timezoneBoundary .invalidInput)

end TBBTimezoneBoundaryResolver

/-! ## Sorted sets -/

theorem mem_sortedSet {ids : List String} {id : String} : id ∈ sortedSet ids ↔ id ∈ ids := by
  rw [sortedSet, List.mem_mergeSort, List.mem_dedup]

@[simp]
theorem sortedSet_nil : sortedSet [] = [] := by simp [sortedSet]

theorem nodup_sortedSet (ids : List String) : (sortedSet ids).Nodup :=
  (List.mergeSort_perm _ _).nodup_iff.mpr (List.nodup_dedup ids)

theorem sortedSet_sortedSet (ids : List String) : sortedSet (sortedSet ids) = sortedSet ids := by
  have htrans : ∀ a b c : String, decide (a ≤ b) = true → decide (b ≤ c) = true →
      decide (a ≤ c) = true := by
    simp only [decide_eq_true_eq]
    exact fun a b c => le_trans
  have htotal : ∀ a b : String, (decide (a ≤ b) || decide (b ≤ a)) = true := by
    simp only [Bool.or_eq_true, decide_eq_true_eq]
    exact le_total
  have hsorted := List.pairwise_mergeSort htrans htotal ids.dedup
  show ((sortedSet ids).dedup.mergeSort fun a b => decide (a ≤ b)) = sortedSet ids
  rw [(nodup_sortedSet ids).dedup]
  exact List.mergeSort_of_pairwise hsorted

/-- Ids among distinct names are not more than the names. -/
theorem length_sortedSet_le {ids names : List String} (hnames : ∀ id ∈ ids, id ∈ names) :
    (sortedSet ids).length ≤ names.length :=
  ((nodup_sortedSet ids).subperm fun id hid => hnames id (mem_sortedSet.1 hid)).length_le

/-! ## The fact passes its model -/

section Outcome

variable {r : TBBTimezoneBoundaryResolver} {coordinates : GeographicCoordinates}

/-- What the loop collects are names of features, and it touches a geometry only by naming it. -/
theorem collectZones_eq_ok {features : List (String × Geometry)} {point : GeographicCoordinates}
    {indices : List (Fin features.length)} {found found' : List String × Bool}
    (h : collectZones features point indices found = .ok found')
    (hnames : ∀ id ∈ found.1, id ∈ features.map Prod.fst)
    (hboundary : found.2 = true → found.1 ≠ []) :
    (∀ id ∈ found'.1, id ∈ features.map Prod.fst) ∧ (found'.2 = true → found'.1 ≠ []) := by
  induction indices generalizing found with
  | nil =>
      cases h
      exact ⟨hnames, hboundary⟩
  | cons index rest ih =>
      obtain ⟨ids, boundary⟩ := found
      obtain ⟨covers, -, h⟩ := bind_eq_ok.1 h
      split at h
      · obtain ⟨contains, -, h⟩ := bind_eq_ok.1 h
        refine ih h (fun id hid => ?_) (by simp)
        rcases List.mem_append.mp hid with hold | hnew
        · exact hnames id hold
        · rw [List.mem_singleton.mp hnew]
          exact List.mem_map_of_mem (List.getElem_mem _)
      · exact ih h hnames hboundary

theorem classify_valid {fields : TimezoneBoundaryResult} {ids : List String} {boundary : Bool}
    (hcoordinates : fields.coordinates.valid = true) (hprovenance : fields.provenance.valid = true)
    (htzid : fields.tzid = none) (hreason : fields.reason = none) (hids : fields.candidateIds = [])
    (hlength : (sortedSet ids).length ≤ featureCount)
    (hnamed : ∀ id ∈ ids, 1 ≤ id.length ∧ id.length ≤ 128) (hboundary : boundary = true → ids ≠ []) :
    (classify fields ids boundary).valid = true := by
  have hlength : (sortedSet ids).length ≤ 419 := hlength
  have hall : ∀ id ∈ sortedSet ids, 1 ≤ id.length ∧ id.length ≤ 128 :=
    fun id hid => hnamed id (mem_sortedSet.1 hid)
  unfold classify
  -- a point on an edge, then no zone, one zone and several
  split
  · next htouched =>
      obtain ⟨id, hid⟩ := List.exists_mem_of_ne_nil _ (hboundary htouched)
      have hpos : 1 ≤ (sortedSet ids).length := List.length_pos_of_mem (mem_sortedSet.2 hid)
      simp [TimezoneBoundaryResult.valid, TimezoneBoundaryResult.coherentOutcome,
        TimezoneBoundaryResult.validOutcome, hcoordinates, hprovenance, htzid, hlength, hpos,
        sortedSet_sortedSet]
      exact hall
  · split
    · simp [TimezoneBoundaryResult.valid, TimezoneBoundaryResult.coherentOutcome,
        TimezoneBoundaryResult.validOutcome, hcoordinates, hprovenance, htzid, hids]
    · next id hone =>
        obtain ⟨hpos, hle⟩ := hnamed id (mem_sortedSet.1 (by rw [hone]; exact List.mem_singleton_self id))
        have hne : id ≠ "" := by
          rintro rfl
          cases hpos
        simp [TimezoneBoundaryResult.valid, TimezoneBoundaryResult.coherentOutcome,
          TimezoneBoundaryResult.validOutcome, hcoordinates, hprovenance, hreason, hids, hle,
          hne]
    · next ordered hnil hone =>
        have hsame := sortedSet_sortedSet ids
        -- neither none nor one
        have htwo : 2 ≤ (sortedSet ids).length := by
          rcases hordered : sortedSet ids with _ | ⟨a, _ | ⟨b, rest⟩⟩
          · exact absurd hordered hnil
          · exact absurd hordered (hone a)
          · simp
        simp [TimezoneBoundaryResult.valid, TimezoneBoundaryResult.coherentOutcome,
          TimezoneBoundaryResult.validOutcome, hcoordinates, hprovenance, htzid, hlength, htwo,
          hsame]
        exact hall

theorem seamOrPole_valid (h : coordinates.valid = true) :
    TimezoneBoundaryResult.valid { boundaryFields coordinates with
      status := .boundary
      reason := some .coordinateSeamOrPole } = true := by
  simp [boundaryFields, TimezoneBoundaryResult.valid, TimezoneBoundaryResult.coherentOutcome,
    TimezoneBoundaryResult.validOutcome, h, pinnedProvenance_valid]

theorem TimezoneBoundaryResult.make_of_valid {b : TimezoneBoundaryResult} (h : b.valid = true) :
    b.make = .ok b := if_pos h

/-- Of a valid point only the geometry library raises. -/
theorem outcome_eq_error (h : coordinates.valid = true) {e : OutcomeRaise}
    (he : r.outcome coordinates = .error e) : ∃ raised, e = .geometry raised := by
  unfold TBBTimezoneBoundaryResolver.outcome at he
  split at he
  · rw [TimezoneBoundaryResult.make_of_valid (seamOrPole_valid h)] at he
    cases he
  · rcases hquery : r.query coordinates with raised | indices
    · rw [hquery] at he
      cases he
      exact ⟨raised, rfl⟩
    rcases hloop : collectZones r.features coordinates indices ([], false) with
      raised | ⟨ids, boundary⟩
    · simp only [hquery, Except.mapError, bind, Except.bind, hloop] at he
      cases he
      exact ⟨raised, rfl⟩
    obtain ⟨hnames, htouched⟩ := collectZones_eq_ok hloop (by simp) (by simp)
    have hnamed : ∀ id ∈ ids, 1 ≤ id.length ∧ id.length ≤ 128 := by
      intro id hid
      obtain ⟨f, hf, rfl⟩ := List.mem_map.mp (hnames id hid)
      exact r.named f hf
    have hlength : (sortedSet ids).length ≤ featureCount := by
      refine (length_sortedSet_le hnames).trans ?_
      rw [List.length_map]
      exact r.length_le
    -- the classification of what was collected passes its model, so it raises nothing
    have hvalid := @classify_valid (boundaryFields coordinates) ids boundary h pinnedProvenance_valid
      rfl rfl rfl hlength hnamed htouched
    simp only [hquery, Except.mapError, bind, Except.bind, hloop] at he
    rw [TimezoneBoundaryResult.make_of_valid hvalid] at he
    cases he

/-- `resolve` raises a `TimezoneBoundaryError` or nothing. -/
theorem resolve_eq_error {e : BoundaryRaise} (h : r.resolve coordinates = .error e) :
    ∃ category, e = .timezoneBoundary category := by
  unfold TBBTimezoneBoundaryResolver.resolve at h
  split at h
  · next hvalid =>
      rcases hout : r.outcome coordinates with e' | b
      · rw [hout] at h
        cases h
        rcases e' with (_ | _) | _
        · exact ⟨_, rfl⟩
        · exact ⟨_, rfl⟩
        · obtain ⟨raised, hraised⟩ := outcome_eq_error hvalid hout
          cases hraised
      · rw [hout] at h
        cases h
  · cases h
    exact ⟨_, rfl⟩

end Outcome

end AstroPassport
