import AstroPassport.Science.Boundary.Tbb

set_option autoImplicit false

/-! # What `_outcome` says of a point

The outcome of a lookup is read off the geometries that cover the point: on the seam or at a pole
nothing is asked, a geometry that only touches the point makes it a boundary, and otherwise the
number of geometries decides. The candidates of the index, their order and the order of the features
do not show.

The index answers with the features whose boxes may hold the point, in any order and with any of
them repeated; what the code does with the answer is a filter by two predicates and a sort, so the
outcome depends on the set of geometries alone as long as the index misses none. Every outcome
passes the model of its result, so the validation at the end never fails. `outcome_exact` gives the
outcome in all cases, for every answer of the index that is complete. -/

namespace AstroPassport

/-! ## Sorted sets -/

theorem pairwise_sortedSet (ids : List String) : (sortedSet ids).Pairwise (· ≤ ·) := by
  have htrans : ∀ a b c : String, decide (a ≤ b) = true → decide (b ≤ c) = true →
      decide (a ≤ c) = true := by
    simp only [decide_eq_true_eq]
    exact fun a b c => le_trans
  have htotal : ∀ a b : String, (decide (a ≤ b) || decide (b ≤ a)) = true := by
    simp only [Bool.or_eq_true, decide_eq_true_eq]
    exact le_total
  exact (List.pairwise_mergeSort htrans htotal ids.dedup).imp fun h => of_decide_eq_true h

/-- A sorted set is determined by its members. -/
theorem sortedSet_congr {ids names : List String} (h : ∀ id, id ∈ ids ↔ id ∈ names) :
    sortedSet ids = sortedSet names := by
  have hperm : (sortedSet ids).Perm (sortedSet names) :=
    (List.perm_ext_iff_of_nodup (nodup_sortedSet ids) (nodup_sortedSet names)).mpr fun id => by
      rw [mem_sortedSet, mem_sortedSet, h]
  exact hperm.eq_of_pairwise' (pairwise_sortedSet ids) (pairwise_sortedSet names)

theorem strict_sortedSet (ids : List String) : (sortedSet ids).Pairwise (· < ·) :=
  (pairwise_sortedSet ids).imp₂ (fun _ _ hle hne => lt_of_le_of_ne hle hne) (nodup_sortedSet ids)

/-! ## What the library answers -/

/-- `abs(longitude) == 180 or abs(latitude) == 90`. -/
def GeographicCoordinates.onSeamOrPole (point : GeographicCoordinates) : Bool :=
  point.longitude.absIs 180 || point.latitude.absIs 90

/-- The geometry library answers a lookup: `covers` and `contains` say of each feature what its
    predicates return, what contains the point covers it, and the index leaves out no feature that
    covers the point. -/
structure TBBTimezoneBoundaryResolver.Answers (r : TBBTimezoneBoundaryResolver)
    (point : GeographicCoordinates) (covers contains : String × Geometry → Bool) : Prop where
  covers_eq : ∀ f ∈ r.features, f.2.covers point = .ok (covers f)
  contains_eq : ∀ f ∈ r.features, f.2.contains point = .ok (contains f)
  covers_of_contains : ∀ f ∈ r.features, contains f = true → covers f = true
  query_eq : ∃ indices, r.query point = .ok indices ∧
    ∀ i : Fin r.features.length, covers r.features[i] = true → i ∈ indices

/-- The loop names the candidates that cover the point, and notes whether one only touches it. -/
theorem collectZones_of_answers {features : List (String × Geometry)}
    {point : GeographicCoordinates} {covers contains : String × Geometry → Bool}
    (hcovers : ∀ f ∈ features, f.2.covers point = .ok (covers f))
    (hcontains : ∀ f ∈ features, f.2.contains point = .ok (contains f))
    (indices : List (Fin features.length)) (ids : List String) (boundary : Bool) :
    ∃ ids' boundary', collectZones features point indices (ids, boundary) = .ok (ids', boundary') ∧
      (∀ id, id ∈ ids' ↔ id ∈ ids ∨ ∃ i ∈ indices, covers (features.get i) = true ∧ (features.get i).1 = id) ∧
      (boundary' = true ↔ boundary = true ∨
        ∃ i ∈ indices, covers (features.get i) = true ∧ contains (features.get i) = false) := by
  induction indices generalizing ids boundary with
  | nil => exact ⟨ids, boundary, rfl, by simp, by simp⟩
  | cons i rest ih =>
      have hmem : (features.get i) ∈ features := List.get_mem features i
      have hget : features[i] = features.get i := rfl
      rw [collectZones, hget, bind_of_eq_ok (hcovers _ hmem)]
      -- the feature misses the point, or adds its name and perhaps an edge
      rcases hi : covers (features.get i) with _ | _
      · obtain ⟨ids', boundary', hok, hids, hboundary⟩ := ih ids boundary
        refine ⟨ids', boundary', hok, fun id => ?_, ?_⟩
        · rw [hids, List.exists_mem_cons_iff, hi]
          simp only [Bool.false_eq_true, false_and, false_or]
        · rw [hboundary, List.exists_mem_cons_iff, hi]
          simp only [Bool.false_eq_true, false_and, false_or]
      · obtain ⟨ids', boundary', hok, hids, hboundary⟩ :=
          ih (ids ++ [(features.get i).1]) (boundary || !contains (features.get i))
        refine ⟨ids', boundary', ?_, fun id => ?_, ?_⟩
        · rw [if_pos rfl, bind_of_eq_ok (hcontains _ hmem)]
          exact hok
        · rw [hids, List.exists_mem_cons_iff, hi, List.mem_append, List.mem_singleton, or_assoc,
            eq_comm (a := id)]
          simp only [true_and]
        · rw [hboundary, List.exists_mem_cons_iff, hi, Bool.or_eq_true, Bool.not_eq_true', or_assoc]
          simp only [true_and]

/-! ## The fact -/

/-- The names of the features that cover the point. -/
def coveringNames (features : List (String × Geometry)) (covers : String × Geometry → Bool) :
    List String := (features.filter covers).map Prod.fst

/-- A feature covers the point without containing it. -/
def touches (features : List (String × Geometry)) (covers contains : String × Geometry → Bool) :
    Bool := features.any fun f => covers f && !contains f

theorem mem_coveringNames {features : List (String × Geometry)} {covers : String × Geometry → Bool}
    {id : String} :
    id ∈ coveringNames features covers ↔ ∃ f ∈ features, covers f = true ∧ f.1 = id := by
  simp only [coveringNames, List.mem_map, List.mem_filter, and_assoc]

theorem touches_iff {features : List (String × Geometry)} {covers contains : String × Geometry → Bool} :
    touches features covers contains = true ↔
      ∃ f ∈ features, covers f = true ∧ contains f = false := by
  simp only [touches, List.any_eq_true, Bool.and_eq_true, Bool.not_eq_true']

theorem classify_congr {fields : TimezoneBoundaryResult} {ids names : List String} {boundary : Bool}
    (h : ∀ id, id ∈ ids ↔ id ∈ names) : classify fields ids boundary = classify fields names boundary := by
  rw [classify, classify, sortedSet_congr h]

/-- The fact about a point that some names cover, one of them without containing it or none. -/
def zoneFact (point : GeographicCoordinates) (names : List String) (touched : Bool) :
    TimezoneBoundaryResult :=
  if point.onSeamOrPole then
    { boundaryFields point with status := .boundary, reason := some .coordinateSeamOrPole }
  else classify (boundaryFields point) names touched

section Answered

variable {r : TBBTimezoneBoundaryResolver} {point : GeographicCoordinates}
  {covers contains : String × Geometry → Bool}

/-- The candidates the index adds do not show. -/
theorem outcome_of_answers (hvalid : point.valid = true) (h : r.Answers point covers contains) :
    r.outcome point = .ok (zoneFact point (coveringNames r.features covers)
      (touches r.features covers contains)) := by
  rw [TBBTimezoneBoundaryResolver.outcome, zoneFact]
  split
  · next hseam =>
      rw [GeographicCoordinates.onSeamOrPole, if_pos hseam]
      exact TimezoneBoundaryResult.make_of_valid (seamOrPole_valid hvalid)
  · next hseam =>
      rw [GeographicCoordinates.onSeamOrPole, if_neg hseam]
      obtain ⟨indices, hquery, hcomplete⟩ := h.query_eq
      obtain ⟨ids, boundary, hloop, hids, hboundary⟩ :=
        collectZones_of_answers h.covers_eq h.contains_eq indices [] false
      have hfeature : ∀ f ∈ r.features, covers f = true → ∃ i ∈ indices, r.features[i] = f := by
        intro f hf hcovered
        obtain ⟨i, hi, rfl⟩ := List.getElem_of_mem hf
        exact ⟨⟨i, hi⟩, hcomplete ⟨i, hi⟩ hcovered, rfl⟩
      have hnames : ∀ id, id ∈ ids ↔ id ∈ coveringNames r.features covers := by
        intro id
        rw [hids, mem_coveringNames]
        constructor
        · rintro (hnil | ⟨i, -, hcovered, hname⟩)
          · cases hnil
          · exact ⟨_, List.getElem_mem _, hcovered, hname⟩
        · rintro ⟨f, hf, hcovered, hname⟩
          obtain ⟨i, hi, rfl⟩ := hfeature f hf hcovered
          exact .inr ⟨i, hi, hcovered, hname⟩
      have htouched : boundary = touches r.features covers contains := by
        rw [Bool.eq_iff_iff, hboundary, touches_iff]
        constructor
        · rintro (hfalse | ⟨i, -, hcovered, hcontained⟩)
          · cases hfalse
          · exact ⟨_, List.getElem_mem _, hcovered, hcontained⟩
        · rintro ⟨f, hf, hcovered, hcontained⟩
          obtain ⟨i, hi, rfl⟩ := hfeature f hf hcovered
          exact .inr ⟨i, hi, hcovered, hcontained⟩
      have hfeatures : ∀ id ∈ ids, ∃ f ∈ r.features, f.1 = id := by
        intro id hid
        obtain ⟨f, hf, -, hname⟩ := mem_coveringNames.1 ((hnames id).mp hid)
        exact ⟨f, hf, hname⟩
      have hlength : (sortedSet ids).length ≤ featureCount := by
        have hmem : ∀ id ∈ ids, id ∈ r.features.map Prod.fst := by
          intro id hid
          obtain ⟨f, hf, hname⟩ := hfeatures id hid
          exact List.mem_map.mpr ⟨f, hf, hname⟩
        calc (sortedSet ids).length ≤ (r.features.map Prod.fst).length := length_sortedSet_le hmem
          _ = r.features.length := List.length_map _
          _ ≤ featureCount := r.length_le
      have hmade := TimezoneBoundaryResult.make_of_valid <|
        @classify_valid (boundaryFields point) ids boundary hvalid
          pinnedProvenance_valid rfl rfl rfl hlength
          (fun id hid => by
            obtain ⟨f, hf, rfl⟩ := hfeatures id hid
            exact r.named f hf)
          (fun htrue => by
            obtain ⟨i, hi, hcovered, -⟩ := (hboundary.mp htrue).resolve_left Bool.false_ne_true
            exact List.ne_nil_of_mem ((hids _).mpr (.inr ⟨i, hi, hcovered, rfl⟩)))
      rw [hquery]
      simp only [Except.mapError, bind, Except.bind, hloop]
      rw [hmade, classify_congr hnames, htouched]

/-- Features in another order give the same fact. -/
theorem zoneFact_perm {features features' : List (String × Geometry)} (h : features'.Perm features) :
    zoneFact point (coveringNames features' covers) (touches features' covers contains) =
      zoneFact point (coveringNames features covers) (touches features covers contains) := by
  have htouched : touches features' covers contains = touches features covers contains := by
    rw [Bool.eq_iff_iff, touches_iff, touches_iff]
    simp only [h.mem_iff]
  have hnames : ∀ id, id ∈ coveringNames features' covers ↔ id ∈ coveringNames features covers := by
    intro id
    rw [mem_coveringNames, mem_coveringNames]
    simp only [h.mem_iff]
  rw [zoneFact, zoneFact, htouched, classify_congr hnames]

/-- What `_outcome` returns has passed its model. -/
theorem valid_of_outcome {b : TimezoneBoundaryResult} (h : r.outcome point = .ok b) :
    b.valid = true := by
  have hmake : ∀ {c : TimezoneBoundaryResult}, c.make = .ok b → b.valid = true := by
    intro c hc
    unfold TimezoneBoundaryResult.make at hc
    split at hc
    · next hvalid =>
        cases hc
        exact hvalid
    · cases hc
  unfold TBBTimezoneBoundaryResolver.outcome at h
  split at h
  · exact hmake h
  · obtain ⟨indices, -, h⟩ := bind_eq_ok.1 h
    obtain ⟨found, -, h⟩ := bind_eq_ok.1 h
    exact hmake h

/-- The fields of a fact that classify it. -/
def TimezoneBoundaryResult.Says (b : TimezoneBoundaryResult) (status : BoundaryStatus)
    (tzid : Option String) (reason : Option BoundaryReason) (ids : List String) : Prop :=
  b.status = status ∧ b.tzid = tzid ∧ b.reason = reason ∧ b.candidateIds = ids

/-- Names of which there are two are sorted into two or more. -/
theorem sortedSet_two {ids : List String} {a b : String} (ha : a ∈ ids) (hb : b ∈ ids)
    (hne : a ≠ b) : ∃ x y rest, sortedSet ids = x :: y :: rest := by
  rw [← mem_sortedSet] at ha hb
  rcases hsorted : sortedSet ids with _ | ⟨x, _ | ⟨y, rest⟩⟩ <;> rw [hsorted] at ha hb
  · cases ha
  · exact absurd ((List.mem_singleton.mp ha).trans (List.mem_singleton.mp hb).symm) hne
  · exact ⟨x, y, rest, rfl⟩

/-- Names that are all one are sorted into that one. -/
theorem sortedSet_one {ids : List String} {a : String} (ha : a ∈ ids) (hall : ∀ b ∈ ids, b = a) :
    sortedSet ids = [a] := by
  have hsame : sortedSet ids = sortedSet [a] :=
    sortedSet_congr fun b => ⟨fun hb => List.mem_singleton.mpr (hall b hb), fun hb => by
      rwa [List.mem_singleton.mp hb]⟩
  rw [hsame]
  simp [sortedSet]

/-- **The outcome is read off the geometries that cover the point.** However the index and the
    features are ordered, and whatever the index adds, the lookup of a valid point returns a
    coherent fact: a boundary on the seam and at the poles; else a boundary when a geometry only
    touches the point; else ambiguous, resolved or no match as two, one or no geometries contain
    it. -/
theorem outcome_exact (hvalid : point.valid = true) (h : r.Answers point covers contains) :
    ∃ b, r.outcome point = .ok b ∧ b.coherentOutcome = true ∧
      (point.onSeamOrPole = true → b.Says .boundary none (some .coordinateSeamOrPole) []) ∧
      (point.onSeamOrPole = false → ∃ ids : List String, ids.Pairwise (· < ·) ∧
        (∀ id, id ∈ ids ↔ ∃ f ∈ r.features, covers f = true ∧ f.1 = id) ∧
        ((∃ f ∈ r.features, covers f = true ∧ contains f = false) →
          b.Says .boundary none (some .polygonBoundary) ids) ∧
        ((∀ f ∈ r.features, covers f = true → contains f = true) →
          ((∃ f ∈ r.features, ∃ g ∈ r.features, f.1 ≠ g.1 ∧ contains f = true ∧ contains g = true) →
            b.Says .ambiguous none (some .multipleZoneInteriors) ids) ∧
          (∀ f ∈ r.features, contains f = true →
            (∀ g ∈ r.features, contains g = true → g.1 = f.1) →
            b.Says .resolved (some f.1) none []) ∧
          ((∀ f ∈ r.features, covers f = false) →
            b.Says .noMatch none (some .outsideDataset) []))) ∧
      ∀ r' : TBBTimezoneBoundaryResolver, r'.features.Perm r.features →
        r'.Answers point covers contains → r'.outcome point = .ok b := by
  have hout := outcome_of_answers hvalid h
  refine ⟨_, hout, ?_, fun hseam => ?_, fun hseam => ?_, fun r' hperm h' => ?_⟩
  · have hfact := valid_of_outcome hout
    rw [TimezoneBoundaryResult.valid, Bool.and_eq_true] at hfact
    exact hfact.2
  · rw [zoneFact, if_pos hseam]
    exact ⟨rfl, rfl, rfl, rfl⟩
  · rw [zoneFact, if_neg (Bool.eq_false_iff.mp hseam)]
    have hnames : ∀ id, id ∈ coveringNames r.features covers ↔
        ∃ f ∈ r.features, covers f = true ∧ f.1 = id := fun id => mem_coveringNames
    refine ⟨sortedSet (coveringNames r.features covers), strict_sortedSet _,
      fun id => mem_sortedSet.trans (hnames id), fun htouched => ?_, fun hinside => ?_⟩
    · rw [classify, if_pos (touches_iff.2 htouched)]
      exact ⟨rfl, rfl, rfl, rfl⟩
    · have huntouched : ¬ touches r.features covers contains = true := by
        rw [touches_iff]
        rintro ⟨f, hf, hcovered, hcontained⟩
        rw [hinside f hf hcovered] at hcontained
        cases hcontained
      rw [classify, if_neg huntouched]
      refine ⟨?_, ?_, fun hnone => ?_⟩
      · rintro ⟨f, hf, g, hg, hne, hfc, hgc⟩
        obtain ⟨x, y, rest, hsorted⟩ := sortedSet_two
          ((hnames _).mpr ⟨f, hf, h.covers_of_contains f hf hfc, rfl⟩)
          ((hnames _).mpr ⟨g, hg, h.covers_of_contains g hg hgc, rfl⟩) hne
        rw [hsorted]
        exact ⟨rfl, rfl, rfl, rfl⟩
      · intro f hf hfc hone
        have hsorted : sortedSet (coveringNames r.features covers) = [f.1] := by
          refine sortedSet_one ((hnames _).mpr ⟨f, hf, h.covers_of_contains f hf hfc, rfl⟩) ?_
          intro id hid
          obtain ⟨g, hg, hcovered, rfl⟩ := (hnames id).mp hid
          exact hone g hg (hinside g hg hcovered)
        rw [hsorted]
        exact ⟨rfl, rfl, rfl, rfl⟩
      · have hempty : coveringNames r.features covers = [] := by
          refine List.eq_nil_iff_forall_not_mem.mpr fun id hid => ?_
          obtain ⟨f, hf, hcovered, -⟩ := (hnames id).mp hid
          rw [hnone f hf] at hcovered
          cases hcovered
        rw [hempty, sortedSet_nil]
        exact ⟨rfl, rfl, rfl, rfl⟩
  · rw [outcome_of_answers hvalid h', zoneFact_perm hperm]

end Answered

/-! ## Two zones that meet -/

/-- A geometry whose answers do not depend on the point. -/
def Geometry.constant (covers contains : Bool) : Geometry where
  covers _ := .ok covers
  contains _ := .ok contains

/-- Two zones, the point inside the second and outside the first, which the index offers as well. -/
def twoZones : TBBTimezoneBoundaryResolver where
  features := [("Asia/Aden", .constant false false), ("Asia/Dubai", .constant true true)]
  query _ := .ok [1, 0]
  distinct := by decide
  named := by decide
  length_le := by decide

/-- Latitude and longitude zero. -/
def origin : GeographicCoordinates where
  latitude := .finite (.zero false)
  longitude := .finite (.zero false)

theorem twoZones_answers :
    twoZones.Answers origin (fun f => f.1 == "Asia/Dubai") (fun f => f.1 == "Asia/Dubai") where
  covers_eq := by
    intro f hf
    simp only [twoZones, List.mem_cons, List.not_mem_nil, or_false] at hf
    rcases hf with rfl | rfl <;> rfl
  contains_eq := by
    intro f hf
    simp only [twoZones, List.mem_cons, List.not_mem_nil, or_false] at hf
    rcases hf with rfl | rfl <;> rfl
  covers_of_contains _ _ h := h
  query_eq := by
    have hall : ∀ i : Fin 2, i ∈ [1, 0] := by decide
    exact ⟨_, rfl, fun i _ => hall i⟩

theorem outcome_exact_twoZones :
    ∃ b, twoZones.outcome origin = .ok b ∧ b.Says .resolved (some "Asia/Dubai") none [] := by
  have hvalid : origin.valid = true := by decide +kernel
  obtain ⟨b, hb, -, -, hclear, -⟩ := outcome_exact hvalid twoZones_answers
  obtain ⟨ids, -, -, -, hinside⟩ := hclear (by decide +kernel)
  refine ⟨b, hb, (hinside (fun f _ hf => hf)).2.1 ("Asia/Dubai", .constant true true)
    (by simp [twoZones]) rfl fun g _ hg => ?_⟩
  simpa using hg

end AstroPassport
