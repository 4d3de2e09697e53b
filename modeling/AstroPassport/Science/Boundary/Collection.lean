import AstroPassport.Science.Boundary.Geometry
import Mathlib.Data.List.TakeWhile

set_option autoImplicit false

/-! # The feature collection as one document

What `_parse_geometry` returns is compared with the decoding of the whole text at once. The loop
over the features builds the array that the one-shot parser builds (`parseFeatures_run`), and the
text around it is a document exactly when its white space is JSON's.

A feature that passes is one that the one-shot parser reads at the same place, up to the order of
its members, and it holds no constant outside the grammar, since its coordinates are finite and
everything else in it is text (`finite_of_gives`). So from a text the code accepts the document can
be assembled, and the other way round only the white space before and after the features is left to
compare: the code takes any that Python knows. `parseGeometry_sound_iff` states both sides. A text
with two features is read to its end, and one with a no-break space in front of its brace is
accepted although it is no JSON. -/

namespace AstroPassport

/-! ## One feature -/

/-- A feature of a name and a geometry: these three members, in any order. -/
def Gives {G : Type} (shape : PyValue → Option G) (feature : PyValue) (name : List CodePoint)
    (g : G) : Prop :=
  ∃ ms geometry, feature = .dict ms ∧
    ms.Perm [(pyKey "type", pyStr "Feature".toList),
      (pyKey "properties", .dict [(pyKey "tzid", .str name)]), (pyKey "geometry", geometry)] ∧
    geometryOf shape geometry = some g

theorem isText_iff {s : String} {v : PyValue} : isText s v = true ↔ v = pyStr s.toList := by
  cases v <;> simp [isText, pyStr]

theorem mem_names_of_hasExactly {names : List String} {ms : List (PyKey × PyValue)}
    (h : hasExactly names ms = true) (k : PyKey) :
    k ∈ ms.map Prod.fst ↔ k ∈ names.map pyKey := by
  rw [hasExactly, decide_eq_true_eq] at h
  rw [← List.mem_toFinset, h, List.mem_toFinset]

/-- A dictionary with exactly the names of expected members, and their values, is these members. -/
theorem perm_of_hasExactly {names : List String} {ms expected : List (PyKey × PyValue)}
    (hms : (ms.map Prod.fst).Nodup) (h : hasExactly names ms = true) (hnames : names.Nodup)
    (hexpected : expected.map Prod.fst = names.map pyKey)
    (hvalues : ∀ m ∈ expected, ms.lookup m.1 = some m.2) : ms.Perm expected := by
  refine perm_of_lookup hms (hexpected ▸ hnames.map pyKey_injective) (fun m hm => ?_) hvalues
  rw [hexpected]
  exact (mem_names_of_hasExactly h m.1).mp (List.mem_map_of_mem hm)

/-- What the checks of a feature let through. -/
theorem gives_of_featureOf {G : Type} {shape : PyValue → Option G}
    {catalog : Finset (List CodePoint)} {names : List (List CodePoint)} {d : JsonDoc}
    {name : List CodePoint} {g : G}
    (h : featureOf shape catalog names (pyDecode d) = some (name, g)) :
    Gives shape (pyDecode d) name g ∧ name ∉ names := by
  rcases hv : pyDecode d with _ | b | n | x | s | items | ms
  case dict =>
    rw [hv] at h
    simp only [featureOf] at h
    split at h
    · next hkeys =>
        split at h
        · next kind properties geometry hkind hproperties hgeometry =>
            split at h
            · next hchecks =>
                rw [Bool.and_eq_true, isText_iff] at hchecks
                obtain ⟨rfl, htzid⟩ := hchecks
                split at h
                · next name' hname =>
                    split at h
                    · next hfresh =>
                        obtain ⟨g', hg, heq⟩ := Option.map_eq_some_iff.mp h
                        cases heq
                        obtain ⟨d', hd'⟩ := exists_doc_of_mem hv (mem_of_lookup hproperties)
                        -- the properties hold the identifier alone
                        have hone : properties = [(pyKey "tzid", .str name)] := by
                          refine List.perm_singleton.mp (perm_of_hasExactly
                            (nodup_of_pyDecode hd'.symm) htzid (by decide) rfl ?_)
                          simpa using hname
                        subst hone
                        refine ⟨⟨ms, geometry, rfl, ?_, hg⟩, hfresh.2⟩
                        refine perm_of_hasExactly (nodup_of_pyDecode hv) hkeys (by decide) rfl ?_
                        simp [hkind, hproperties, hgeometry]
                    · cases h
                · cases h
            · cases h
        · cases h
    · cases h
  all_goals
    rw [hv] at h
    cases h

/-! ## No constants -/

mutual

/-- No float of the value is NaN or infinite. -/
def PyValue.finite : PyValue → Bool
  | .float (.finite _) => true
  | .float _ => false
  | .list items => itemsFinite items
  | .dict members => membersFinite members
  | _ => true

/-- Every float below the items is finite. -/
def itemsFinite : List PyValue → Bool
  | [] => true
  | v :: vs => v.finite && itemsFinite vs

/-- Every float below the members is finite. -/
def membersFinite : List (PyKey × PyValue) → Bool
  | [] => true
  | (_, v) :: ms => v.finite && membersFinite ms

end

theorem itemsFinite_iff {vs : List PyValue} :
    itemsFinite vs = true ↔ ∀ v ∈ vs, v.finite = true := by
  induction vs with
  | nil => simp [itemsFinite]
  | cons v vs ih => rw [itemsFinite, Bool.and_eq_true, ih, List.forall_mem_cons]

theorem membersFinite_iff {ms : List (PyKey × PyValue)} :
    membersFinite ms = true ↔ ∀ m ∈ ms, m.2.finite = true := by
  induction ms with
  | nil => simp [membersFinite]
  | cons m ms ih =>
      obtain ⟨k, v⟩ := m
      rw [membersFinite, Bool.and_eq_true, ih, List.forall_mem_cons]

/-- A document of finite values holds no constant. -/
theorem standard_of_finite {d : JsonDoc} (hdistinct : d.DistinctNames)
    (h : (pyDecode d).finite = true) : d.standard = true := by
  induction d with
  -- the literals outside the standard decode to values that are not finite
  | const c => cases c <;> cases h
  | arr items ih =>
      rw [JsonDoc.DistinctNames] at hdistinct
      rw [pyDecode, PyValue.finite] at h
      rw [JsonDoc.standard]
      induction items with
      | nil => rfl
      | cons d ds ihs =>
          rw [List.forall_mem_cons] at ih
          rw [pyDecodeItems, itemsFinite, Bool.and_eq_true] at h
          rw [standardItems, ih.1 hdistinct.1 h.1, ihs ih.2 hdistinct.2 h.2]
          rfl
  | obj ms ih =>
      rw [pyDecode, PyValue.finite,
        Dict.ofMembers_of_nodup (nodup_pyDecodeMembers.2 hdistinct.1)] at h
      have hbelow := hdistinct.2
      clear hdistinct
      rw [JsonDoc.standard]
      induction ms with
      | nil => rfl
      | cons m ms ihs =>
          rw [List.forall_mem_cons] at ih
          rw [pyDecodeMembers, membersFinite, Bool.and_eq_true] at h
          rw [standardMembers, ih.1 hbelow.1 h.1, ihs ih.2 h.2 hbelow.2]
          rfl
  | _ => rfl

theorem finite_of_coordinate? {v : PyValue} {q : ℚ} (h : coordinate? v = some q) :
    v.finite = true := by
  unfold coordinate? at h
  split at h
  · rfl
  · rfl
  · cases h

theorem finite_of_point? {v : PyValue} {p : ℚ × ℚ} (h : point? v = some p) : v.finite = true := by
  unfold point? at h
  split at h
  · obtain ⟨x, hx, h⟩ := Option.bind_eq_some_iff.mp h
    obtain ⟨y, hy, -⟩ := Option.map_eq_some_iff.mp h
    simp [PyValue.finite, itemsFinite, finite_of_coordinate? hx, finite_of_coordinate? hy]
  · cases h

theorem finite_of_validateRing {v : PyValue} (h : validateRing v = true) : v.finite = true := by
  unfold validateRing at h
  split at h
  · rw [Bool.and_eq_true] at h
    obtain ⟨-, h⟩ := h
    split at h
    · next points hpoints =>
        refine itemsFinite_iff.2 fun v hv => ?_
        obtain ⟨p, -, hp⟩ := exists_of_forall₂ (mapM_eq_some.1 hpoints) v hv
        exact finite_of_point? hp
    · cases h
  · cases h

theorem finite_of_validatePolygon {v : PyValue} (h : validatePolygon v = true) :
    v.finite = true := by
  unfold validatePolygon at h
  split at h
  · rw [Bool.and_eq_true, List.all_eq_true] at h
    exact itemsFinite_iff.2 fun v hv => finite_of_validateRing (h.2 v hv)
  · cases h

/-- The coordinates of a geometry are finite, ring by ring. -/
theorem finite_of_geometryOf {G : Type} {shape : PyValue → Option G} {d : JsonDoc} {g : G}
    (h : geometryOf shape (pyDecode d) = some g) : (pyDecode d).finite = true := by
  rcases hv : pyDecode d with _ | b | n | x | s | items | ms
  case dict =>
    rw [hv] at h
    simp only [geometryOf] at h
    split at h
    · next hkeys =>
        simp only [Option.bind_eq_some_iff] at h
        obtain ⟨kind, hkind, coordinates, hcoordinates, polygons, hpolygons, h⟩ := h
        split at h
        · next hchecks =>
            rw [Bool.and_eq_true, List.all_eq_true] at hchecks
            have hall : ∀ v ∈ polygons, v.finite = true := fun v hv =>
              finite_of_validatePolygon (hchecks.2 v hv)
            -- a polygon is checked itself, a multipolygon by its items
            have hfinite : kind.finite = true ∧ coordinates.finite = true := by
              unfold polygons? at hpolygons
              split at hpolygons
              · next htext =>
                  cases hpolygons
                  rw [isText_iff] at htext
                  exact ⟨htext ▸ rfl, hall _ (List.mem_singleton_self _)⟩
              · split at hpolygons
                · next htext =>
                    rw [isText_iff] at htext
                    split at hpolygons
                    · cases hpolygons
                      exact ⟨htext ▸ rfl, itemsFinite_iff.2 hall⟩
                    · cases hpolygons
                · cases hpolygons
            -- the key set is exact, so the object holds these two members and no third
            have hperm : ms.Perm [(pyKey "type", kind), (pyKey "coordinates", coordinates)] := by
              refine perm_of_hasExactly (nodup_of_pyDecode hv) hkeys (by decide) rfl ?_
              simp [hkind, hcoordinates]
            refine membersFinite_iff.2 fun m hm => ?_
            have hmem := hperm.subset hm
            simp only [List.mem_cons, List.not_mem_nil, or_false] at hmem
            rcases hmem with rfl | rfl
            · exact hfinite.1
            · exact hfinite.2
        · cases h
    · cases h
  all_goals
    rw [hv] at h
    cases h

/-- So a feature that was let through holds no constant. -/
theorem finite_of_gives {G : Type} {shape : PyValue → Option G} {d : JsonDoc}
    {name : List CodePoint} {g : G} (h : Gives shape (pyDecode d) name g) :
    (pyDecode d).finite = true := by
  obtain ⟨ms, geometry, hv, hperm, hg⟩ := h
  rw [hv]
  refine membersFinite_iff.2 fun m hm => ?_
  have hmem := hperm.subset hm
  simp only [List.mem_cons, List.not_mem_nil, or_false] at hmem
  rcases hmem with rfl | rfl | rfl
  · rfl
  · rfl
  · obtain ⟨d', hd'⟩ := exists_doc_of_mem hv hm
    have hd'' : geometry = pyDecode d' := hd'
    subst hd''
    exact finite_of_geometryOf hg

/-! ## The loop over the features -/

/-- A document of a feature and what was found in it. -/
structure Accepted {G : Type} (shape : PyValue → Option G) (d : JsonDoc) (p : List CodePoint × G) :
    Prop where
  distinct : d.DistinctNames
  standard : d.standard = true
  gives : Gives shape (pyDecode d) p.1 p.2

theorem rawDecode_eq_some {cursor rest : List Char} {v : PyValue}
    (h : rawDecode cursor = some (v, rest)) :
    ∃ d, parseValue (cursor.length + 1) cursor = some (d, rest) ∧ d.DistinctNames ∧
      v = pyDecode d := by
  obtain ⟨⟨d, r⟩, hd, h⟩ := Option.bind_eq_some_iff.mp h
  obtain ⟨w, hw, heq⟩ := Option.map_eq_some_iff.mp h
  cases heq
  obtain ⟨-, hdistinct, rfl⟩ := hookedDoc_eq_some.1 hw
  exact ⟨d, hd, hdistinct, rfl⟩

/-- One turn of the loop: a feature's document, and a text for what was found in it. -/
theorem accepted_of_turn {G : Type} {shape : PyValue → Option G}
    {catalog : Finset (List CodePoint)} {names : List (List CodePoint)} {cursor rest : List Char}
    {v : PyValue} {p : List CodePoint × G} (hdecoded : rawDecode cursor = some (v, rest))
    (hfeature : featureOf shape catalog names v = some p) :
    p.1 ∉ names ∧ ∃ d, parseValue (cursor.length + 1) cursor = some (d, rest) ∧
      Accepted shape d p := by
  obtain ⟨d, hd, hdistinct, rfl⟩ := rawDecode_eq_some hdecoded
  obtain ⟨hgives, hfresh⟩ := gives_of_featureOf hfeature
  exact ⟨hfresh, d, hd, hdistinct, standard_of_finite hdistinct (finite_of_gives hgives), hgives⟩

theorem isPySpace_bracket : isPySpace ']' = false := by decide

/-- The end of the text: the two closing brackets and white space. -/
theorem strip_eq_close {rest : List Char} (h : pyStrip (']' :: rest) = "]\x7d".toList) :
    ∃ trailing, rest = '}' :: trailing ∧ ∀ c ∈ trailing, isPySpace c = true := by
  rw [pyStrip, List.dropWhile_cons_of_neg (by simp [isPySpace_bracket])] at h
  have hdrop : (']' :: rest).reverse.dropWhile isPySpace = ['}', ']'] :=
    List.reverse_injective h
  have hsplit := List.takeWhile_append_dropWhile (p := isPySpace) (l := (']' :: rest).reverse)
  rw [hdrop] at hsplit
  have htext := congrArg List.reverse hsplit
  rw [List.reverse_reverse, List.reverse_append] at htext
  refine ⟨((']' :: rest).reverse.takeWhile isPySpace).reverse, (List.cons.inj htext).2.symm, ?_⟩
  intro c hc
  exact List.mem_takeWhile_imp (List.mem_reverse.mp hc)

/-- What the loop has found when it ends, at a cursor: the items of the array that is left, or
    nothing more when the array ends there. -/
structure Run {G : Type} (shape : PyValue → Option G) (cursor : List Char)
    (new : List (List CodePoint × G)) (docs : List JsonDoc) (trailing : List Char) : Prop where
  accepted : List.Forall₂ (Accepted shape) docs new
  trailing_space : ∀ c ∈ trailing, isPySpace c = true
  suffix : '}' :: trailing <:+ cursor
  parsed : (docs = [] ∧ skipSpace cursor = ']' :: '}' :: trailing) ∨
    ((skipSpace cursor).head? ≠ some ']' ∧
      parseItems cursor.length (skipSpace cursor) = some (docs, '}' :: trailing))

/-- One turn: the end, or a feature and then a comma and another one, or the bracket. -/
theorem parseFeatures_cases {G : Type} {shape : PyValue → Option G}
    {catalog : Finset (List CodePoint)} {budget : ℕ} {found result : List (List CodePoint × G)}
    {cursor : List Char} (h : parseFeatures shape catalog budget found cursor = some result) :
    (∃ trailing, skipSpace cursor = ']' :: '}' :: trailing ∧
        (∀ c ∈ trailing, isPySpace c = true) ∧ result = found) ∨
      ∃ budget' v rest feature, budget = budget' + 1 ∧ (skipSpace cursor).head? ≠ some ']' ∧
        rawDecode (skipSpace cursor) = some (v, rest) ∧
        featureOf shape catalog (found.map Prod.fst) v = some feature ∧ ∃ after,
          (skipSpace rest = ',' :: after ∧ (skipSpace after).head? ≠ some ']' ∧
              parseFeatures shape catalog budget' (found ++ [feature]) after = some result) ∨
            (skipSpace rest = ']' :: after ∧
              parseFeatures shape catalog budget' (found ++ [feature]) (']' :: after) =
                some result) := by
  rw [parseFeatures.eq_def] at h
  split at h
  · next rest hclose =>
      split at h
      · next hstrip =>
          obtain ⟨trailing, rfl, htrailing⟩ := strip_eq_close hstrip
          cases h
          exact .inl ⟨trailing, hclose, htrailing, rfl⟩
      · cases h
  · next hopen =>
      obtain ⟨⟨v, rest⟩, hdecoded, h⟩ := Option.bind_eq_some_iff.mp h
      obtain ⟨feature, hfeature, h⟩ := Option.bind_eq_some_iff.mp h
      -- the value is decoded before the budget is looked at
      refine .inr ?_
      cases budget with
      | zero => cases h
      | succ budget =>
          refine ⟨budget, v, rest, feature, rfl, head?_ne_of_forall hopen, hdecoded, hfeature, ?_⟩
          simp only at h
          split at h
          · next after hcomma =>
              split at h
              · cases h
              · next hmore => exact ⟨after, .inl ⟨hcomma, head?_ne_of_forall hmore, h⟩⟩
          · next after hbracket => exact ⟨after, .inr ⟨hbracket, h⟩⟩
          · cases h

theorem Run.close {G : Type} {shape : PyValue → Option G} {cursor trailing : List Char}
    (hclose : skipSpace cursor = ']' :: '}' :: trailing)
    (htrailing : ∀ c ∈ trailing, isPySpace c = true) : Run shape cursor [] [] trailing :=
  ⟨.nil, htrailing, (Leaves.of_skipSpace hclose List.suffix_rfl).suffix, .inl ⟨rfl, hclose⟩⟩

/-- A feature in front of more of them. -/
theorem Run.more {G : Type} {shape : PyValue → Option G} {cursor rest after trailing : List Char}
    {d : JsonDoc} {p : List CodePoint × G} {new : List (List CodePoint × G)} {docs : List JsonDoc}
    {f : ℕ} (hopen : (skipSpace cursor).head? ≠ some ']')
    (hd : parseValue f (skipSpace cursor) = some (d, rest)) (hp : Accepted shape d p)
    (hcomma : skipSpace rest = ',' :: after) (hmore : (skipSpace after).head? ≠ some ']')
    (hrun : Run shape after new docs trailing) :
    Run shape cursor (p :: new) (d :: docs) trailing := by
  have hrest : rest <:+ cursor := (leaves_parseValue hd).suffix.trans (skipSpace_suffix cursor)
  have hafter : after <:+ cursor := (Leaves.of_skipSpace hcomma hrest).suffix
  have hlength := hafter.length_le
  have hskip := length_skipSpace_le cursor
  have hskipAfter := length_skipSpace_le after
  rcases hrun.parsed with ⟨-, hclose⟩ | ⟨-, hdocs⟩
  · rw [hclose] at hmore
    exact absurd rfl hmore
  · have hvalue := parseValue_of_le (g := cursor.length) hd (by omega)
    have hitems := parseItems_of_le (g := cursor.length) hdocs (by omega)
    have hall : parseItems (cursor.length + 1) (skipSpace cursor) =
        some (d :: docs, '}' :: trailing) :=
      parseItems_eq_some.2 ⟨d, rest, hvalue, .inr ⟨after, docs, hcomma, hitems, rfl⟩⟩
    exact ⟨hrun.accepted.cons hp, hrun.trailing_space, hrun.suffix.trans hafter,
      .inr ⟨hopen, parseItems_of_le hall (by omega)⟩⟩

/-- The last feature. -/
theorem Run.last {G : Type} {shape : PyValue → Option G} {cursor rest after trailing : List Char}
    {d : JsonDoc} {p : List CodePoint × G} {new : List (List CodePoint × G)} {docs : List JsonDoc}
    {f : ℕ} (hopen : (skipSpace cursor).head? ≠ some ']')
    (hd : parseValue f (skipSpace cursor) = some (d, rest)) (hp : Accepted shape d p)
    (hbracket : skipSpace rest = ']' :: after) (hrun : Run shape (']' :: after) new docs trailing) :
    new = [] ∧ Run shape cursor [p] [d] trailing := by
  have hrest : rest <:+ cursor := (leaves_parseValue hd).suffix.trans (skipSpace_suffix cursor)
  have hafter : after <:+ cursor := (Leaves.of_skipSpace hbracket hrest).suffix
  have hskip := length_skipSpace_le cursor
  rcases hrun.parsed with ⟨rfl, hclose⟩ | ⟨hhead, -⟩
  · cases hrun.accepted
    obtain rfl : after = '}' :: trailing := (List.cons.inj hclose).2
    have hvalue := parseValue_of_le (g := cursor.length) hd (by omega)
    have hall : parseItems (cursor.length + 1) (skipSpace cursor) = some ([d], '}' :: trailing) :=
      parseItems_eq_some.2 ⟨d, rest, hvalue, .inl ⟨hbracket, rfl⟩⟩
    exact ⟨rfl, .cons hp .nil, hrun.trailing_space, hafter,
      .inr ⟨hopen, parseItems_of_le hall (by omega)⟩⟩
  · exact absurd rfl hhead

/-- The whole loop. -/
theorem parseFeatures_run {G : Type} {shape : PyValue → Option G}
    {catalog : Finset (List CodePoint)} {budget : ℕ} {found result : List (List CodePoint × G)}
    {cursor : List Char} (hfound : (found.map Prod.fst).Nodup)
    (h : parseFeatures shape catalog budget found cursor = some result) :
    (result.map Prod.fst).Nodup ∧
      ∃ new docs trailing, result = found ++ new ∧ Run shape cursor new docs trailing := by
  induction budget generalizing found cursor with
  | zero =>
      rcases parseFeatures_cases h with ⟨trailing, hclose, htrailing, rfl⟩ | ⟨_, _, _, _, heq, -⟩
      · exact ⟨hfound, [], [], trailing, (List.append_nil _).symm, .close hclose htrailing⟩
      · cases heq
  | succ budget ih =>
      rcases parseFeatures_cases h with ⟨trailing, hclose, htrailing, rfl⟩ |
        ⟨_, v, rest, feature, heq, hopen, hdecoded, hfeature, after, hafter⟩
      · exact ⟨hfound, [], [], trailing, (List.append_nil _).symm, .close hclose htrailing⟩
      · cases heq
        obtain ⟨hfresh, d, hd, hp⟩ := accepted_of_turn hdecoded hfeature
        have hfound' := nodup_names_snoc.2 ⟨hfound, hfresh⟩
        -- a comma and another turn, or the bracket that ends the run
        rcases hafter with ⟨hcomma, hmore, h⟩ | ⟨hbracket, h⟩
        · obtain ⟨hnodup, new, docs, trailing, rfl, hrun⟩ := ih hfound' h
          exact ⟨hnodup, feature :: new, d :: docs, trailing, by simp,
            .more hopen hd hp hcomma hmore hrun⟩
        · obtain ⟨hnodup, new, docs, trailing, rfl, hrun⟩ := ih hfound' h
          obtain ⟨rfl, hlast⟩ := hrun.last hopen hd hp hbracket
          exact ⟨hnodup, [feature], [d], trailing, by simp, hlast⟩

/-! ## The text around the features -/

theorem isPySpace_of_isJsonSpace {c : Char} (h : isJsonSpace c = true) : isPySpace c = true := by
  simp only [isJsonSpace, Bool.or_eq_true, beq_iff_eq] at h
  rcases h with ((rfl | rfl) | rfl) | rfl <;> decide

theorem skipSpace_eq_dropWhile (cs : List Char) : skipSpace cs = cs.dropWhile isJsonSpace := by
  induction cs with
  | nil => rfl
  | cons c cs ih => rw [skipSpace, List.dropWhile_cons, ih]

theorem dropWhile_skipSpace (cs : List Char) :
    (skipSpace cs).dropWhile isPySpace = cs.dropWhile isPySpace := by
  induction cs with
  | nil => rfl
  | cons c cs ih =>
      rw [skipSpace]
      split
      · next hc => rw [ih, List.dropWhile_cons_of_pos (isPySpace_of_isJsonSpace hc)]
      · rfl

theorem expect_eq_some {space : Char → Bool} {token cs rest : List Char} :
    expect space token cs = some rest ↔ cs.dropWhile space = token ++ rest := by
  simp only [expect]
  split
  · next htoken =>
      rw [Option.some.injEq]
      constructor
      · rintro rfl
        exact (List.prefix_iff_eq_append.mp (htoken ▸ List.take_prefix ..)).symm
      · rintro h
        rw [h, List.drop_left]
  · next htoken =>
      simp only [reduceCtorEq, false_iff]
      intro h
      rw [h, List.take_left] at htoken
      exact htoken rfl

/-- The white space before a token is JSON's as soon as what JSON's is followed by is none of
    Python's. -/
theorem token_of_head {token cs rest after : List Char} {c : Char}
    (h : expect isPySpace token cs = some rest) (hc : skipSpace cs = c :: after)
    (hspace : isPySpace c = false) : skipSpace cs = token ++ rest := by
  have hdrop := expect_eq_some.1 h
  rw [← dropWhile_skipSpace, hc, List.dropWhile_cons_of_neg (by simp [hspace])] at hdrop
  rw [hc, hdrop]

/-- The texts that `PREFIX` matches with JSON's white space in the place of Python's. -/
theorem opened_iff {space : Char → Bool} {text body : List Char} :
    expectAll space openingTokens text = some body ↔ ∃ c₁ c₂ c₃ c₄ c₅ c₆ c₇,
      expect space ['{'] text = some c₁ ∧ expect space (quoted "type") c₁ = some c₂ ∧
      expect space [':'] c₂ = some c₃ ∧ expect space (quoted "FeatureCollection") c₃ = some c₄ ∧
      expect space [','] c₄ = some c₅ ∧ expect space (quoted "features") c₅ = some c₆ ∧
      expect space [':'] c₆ = some c₇ ∧ expect space ['['] c₇ = some body := by
  simp only [expectAll, openingTokens, Option.bind_eq_some_iff, Option.some.injEq, exists_eq_right,
    exists_and_left]

/-- A name or a literal without escapes is read as its characters. -/
theorem parseString_plain {s : List Char} (rest : List Char)
    (h : ∀ c ∈ s, c ≠ '"' ∧ c ≠ '\\' ∧ ¬ c.toNat < 0x20) :
    parseString (s ++ '"' :: rest) = some (s.map .chr, rest) := by
  induction s with
  | nil => exact parseString_close rest
  | cons c s ih =>
      rw [List.forall_mem_cons] at h
      rw [List.cons_append, parseString_raw h.1.1 h.1.2.1 h.1.2.2, ih h.2]
      rfl

theorem parseValue_text {f : ℕ} {s : List Char} (rest : List Char)
    (h : ∀ c ∈ s, c ≠ '"' ∧ c ≠ '\\' ∧ ¬ c.toNat < 0x20) :
    parseValue (f + 1) ('"' :: (s ++ '"' :: rest)) = some (.str (s.map .chr), rest) := by
  simp only [parseValue, if_true, parseString_plain rest h, Option.map_some]

/-- No value starts with what Python calls white space. -/
theorem not_isPySpace_of_parseValue {f : ℕ} {c : Char} {cs rest : List Char} {d : JsonDoc}
    (h : parseValue f (c :: cs) = some (d, rest)) : isPySpace c = false := by
  by_contra hspace
  rw [Bool.not_eq_false] at hspace
  -- white space is none of the characters a value can begin with
  have hne : ∀ t, isPySpace t = false → c ≠ t := by
    rintro t ht rfl
    rw [ht] at hspace
    cases hspace
  have hdigit : digit? c = none := by
    unfold digit?
    simp only [isPySpace, Bool.or_eq_true, Bool.and_eq_true, decide_eq_true_eq,
      List.contains_eq_mem, List.mem_cons, List.not_mem_nil, or_false] at hspace
    rw [if_neg]
    have h0 : '0'.toNat = 48 := rfl
    have h9 : '9'.toNat = 57 := rfl
    omega
  cases f with
  | zero => cases h
  | succ f =>
      have hquote := hne '"' (by decide)
      have harr := hne '[' (by decide)
      have hobj := hne '{' (by decide)
      have hn := hne 'n' (by decide)
      have ht := hne 't' (by decide)
      have hf := hne 'f' (by decide)
      have hN := hne 'N' (by decide)
      have hI := hne 'I' (by decide)
      have hminus := hne '-' (by decide)
      simp only [parseValue, hquote, harr, hobj, hn, ht, hf, hN, hI, hminus, false_and, if_false,
        parseNumber, List.head?_cons, Option.some.injEq, parseInt, spanDigits, hdigit,
        Option.map_none, reduceCtorEq] at h

/-- The document of a feature collection. -/
def collection (features : List JsonDoc) : JsonDoc :=
  .obj [("type".toList.map .chr, .str ("FeatureCollection".toList.map .chr)),
    ("features".toList.map .chr, .arr features)]

theorem parseDoc_eq_some {text : List Char} {d : JsonDoc} :
    parseDoc text = some d ↔ ∃ rest, parseValue (text.length + 1) (skipSpace text) = some (d, rest) ∧
      skipSpace rest = [] := by
  simp only [parseDoc, Option.bind_eq_some_iff, Prod.exists, Option.ite_none_right_eq_some,
    Option.some.injEq]
  constructor
  · rintro ⟨_, rest, hvalue, hend, rfl⟩
    exact ⟨rest, hvalue, hend⟩
  · rintro ⟨rest, hvalue, hend⟩
    exact ⟨d, rest, hvalue, hend, rfl⟩

/-- The names and the literal of the opening have no escapes. -/
theorem plain_opening : ∀ s ∈ ["type", "FeatureCollection", "features"], ∀ c ∈ s.toList,
    c ≠ '"' ∧ c ≠ '\\' ∧ ¬ c.toNat < 0x20 := by
  have hall : (["type", "FeatureCollection", "features"].all fun s => s.toList.all fun c =>
      decide (c ≠ '"' ∧ c ≠ '\\' ∧ ¬ c.toNat < 0x20)) = true := by decide +kernel
  intro s hs c hc
  exact of_decide_eq_true (List.all_eq_true.mp (List.all_eq_true.mp hall s hs) c hc)

theorem quoted_append (s : String) (rest : List Char) :
    quoted s ++ rest = '"' :: (s.toList ++ '"' :: rest) := by
  rw [quoted, List.cons_append, List.append_assoc, List.singleton_append]

/-- A text that opens as the collection does in JSON's white space, and whose features are an array
    with the closing brace behind it, is the document of the collection if nothing follows. -/
theorem parseDoc_of_opened {text body trailing : List Char} {f : ℕ} {docs : List JsonDoc}
    (hopen : expectAll isJsonSpace openingTokens text = some body)
    (harr : parseValue f ('[' :: body) = some (.arr docs, '}' :: trailing))
    (hend : skipSpace trailing = []) : parseDoc text = some (collection docs) := by
  obtain ⟨c₁, c₂, c₃, c₄, c₅, c₆, c₇, h₁, h₂, h₃, h₄, h₅, h₆, h₇, h₈⟩ := opened_iff.1 hopen
  simp only [expect_eq_some, ← skipSpace_eq_dropWhile, quoted_append, List.singleton_append]
    at h₁ h₂ h₃ h₄ h₅ h₆ h₇ h₈
  have htype := parseString_plain c₂ (plain_opening "type" (by simp))
  have hfeatures := parseString_plain c₆ (plain_opening "features" (by simp))
  have hliteral : ∀ f, parseValue (f + 1) (skipSpace c₃) =
      some (.str ("FeatureCollection".toList.map .chr), c₄) := fun f => by
    rw [h₄]
    exact parseValue_text c₄ (plain_opening "FeatureCollection" (by simp))
  -- every slot leaves less, so there is fuel for the array
  have hlengths : body.length + 3 ≤ text.length := by
    have l₁ := length_skipSpace_le text
    have l₂ := length_skipSpace_le c₁
    have l₃ := length_skipSpace_le c₂
    have l₄ := length_skipSpace_le c₃
    have l₅ := length_skipSpace_le c₄
    have l₆ := length_skipSpace_le c₅
    have l₇ := length_skipSpace_le c₆
    have l₈ := length_skipSpace_le c₇
    rw [h₁, List.length_cons] at l₁
    rw [h₂, List.length_cons, List.length_append, List.length_cons] at l₂
    rw [h₃, List.length_cons] at l₃
    rw [h₄, List.length_cons, List.length_append, List.length_cons] at l₄
    rw [h₅, List.length_cons] at l₅
    rw [h₆, List.length_cons, List.length_append, List.length_cons] at l₆
    rw [h₇, List.length_cons] at l₇
    rw [h₈, List.length_cons] at l₈
    omega
  obtain ⟨n, hn⟩ : ∃ n, text.length = n + 2 := ⟨text.length - 2, by omega⟩
  have hvalue : parseValue n (skipSpace c₇) = some (.arr docs, '}' :: trailing) := by
    rw [h₈]
    exact parseValue_of_le harr (by simp only [List.length_cons]; omega)
  have hclose : skipSpace ('}' :: trailing) = '}' :: trailing := rfl
  have hinner : parseMembers (n + 1) (skipSpace c₅) =
      some ([("features".toList.map .chr, .arr docs)], trailing) :=
    parseMembers_eq_some.2
      ⟨_, _, _, c₇, _, _, h₆, hfeatures, h₇, hvalue, .inl ⟨hclose, rfl⟩⟩
  have hmembers : parseMembers (n + 1 + 1) (skipSpace c₁) =
      some ([("type".toList.map .chr, .str ("FeatureCollection".toList.map .chr)),
        ("features".toList.map .chr, .arr docs)], trailing) :=
    parseMembers_eq_some.2
      ⟨_, _, _, c₃, _, _, h₂, htype, h₃, hliteral n, .inr ⟨c₅, _, h₅, hinner, rfl⟩⟩
  have hhead : (skipSpace c₁).head? ≠ some '}' := by
    rw [h₂, List.head?_cons]
    decide
  rw [parseDoc_eq_some, hn, h₁]
  exact ⟨trailing, parseValue_obj_eq_some.2 (.inr ⟨hhead, _, hmembers, rfl⟩), hend⟩

theorem expect_of_head {token cs rest after : List Char} {c : Char}
    (h : expect isPySpace token cs = some rest) (hc : skipSpace cs = c :: after)
    (hspace : isPySpace c = false) :
    expect isJsonSpace token cs = some rest ∧ c :: after = token ++ rest := by
  have htoken := token_of_head h hc hspace
  rw [expect_eq_some, ← skipSpace_eq_dropWhile]
  exact ⟨htoken, hc.symm.trans htoken⟩

theorem expect_of_parseValue {token cs rest after : List Char} {f : ℕ} {d : JsonDoc}
    (h : expect isPySpace token cs = some rest)
    (hvalue : parseValue f (skipSpace cs) = some (d, after)) :
    expect isJsonSpace token cs = some rest ∧ parseValue f (token ++ rest) = some (d, after) := by
  rcases hcs : skipSpace cs with _ | ⟨c, cs'⟩
  · rw [hcs] at hvalue
    cases f <;> cases hvalue
  · rw [hcs] at hvalue
    obtain ⟨hjson, heq⟩ := expect_of_head h hcs (not_isPySpace_of_parseValue hvalue)
    exact ⟨hjson, heq ▸ hvalue⟩

/-- The first member of an object that opens with a name: its value, and what stands behind it. -/
theorem member_of_parseMembers {name : String} {cs c₁ c₂ rest : List Char} {f : ℕ}
    {ms : List (List StrItem × JsonDoc)}
    (hplain : ∀ c ∈ name.toList, c ≠ '"' ∧ c ≠ '\\' ∧ ¬ c.toNat < 0x20)
    (hname : expect isPySpace (quoted name) cs = some c₁)
    (hcolon : expect isPySpace [':'] c₁ = some c₂)
    (h : parseMembers f (skipSpace cs) = some (ms, rest)) :
    expect isJsonSpace (quoted name) cs = some c₁ ∧
      expect isJsonSpace [':'] c₁ = some c₂ ∧ ∃ f' d r, parseValue f' (skipSpace c₂) = some (d, r) ∧
        (skipSpace r = '}' :: rest ∨ ∃ after ns, skipSpace r = ',' :: after ∧
          parseMembers f' (skipSpace after) = some (ns, rest)) := by
  cases f with
  | zero => cases h
  | succ f =>
      obtain ⟨text, k, r, value, d, r', htext, hk, hvalue, hd, hrest⟩ := parseMembers_eq_some.1 h
      obtain ⟨hjson, heq⟩ := expect_of_head hname htext (by decide)
      -- the name is printed without escapes, so its text ends at the next quote
      have htail : text = name.toList ++ '"' :: c₁ := by
        rw [quoted_append] at heq
        exact (List.cons.inj heq).2
      rw [htail, parseString_plain c₁ hplain, Option.some.injEq, Prod.mk.injEq] at hk
      obtain ⟨-, rfl⟩ := hk
      obtain ⟨hjsonColon, heq⟩ := expect_of_head hcolon hvalue (by decide)
      obtain rfl : value = c₂ := by simpa using heq
      refine ⟨hjson, hjsonColon, f, d, r', hd, ?_⟩
      rcases hrest with ⟨hclose, -⟩ | ⟨after, ns, hcomma, hns, -⟩
      · exact .inl hclose
      · exact .inr ⟨after, ns, hcomma, hns⟩

/-- A text that is a document, and that `PREFIX` matches, opens in JSON's white space. -/
theorem opened_of_parseDoc {text body trailing : List Char} {f : ℕ} {docs : List JsonDoc}
    {d : JsonDoc} (hopen : matchPrefix text = some body)
    (harr : parseValue f ('[' :: body) = some (.arr docs, '}' :: trailing))
    (h : parseDoc text = some d) :
    expectAll isJsonSpace openingTokens text = some body ∧ skipSpace trailing = [] := by
  obtain ⟨c₁, c₂, c₃, c₄, c₅, c₆, c₇, h₁, h₂, h₃, h₄, h₅, h₆, h₇, h₈⟩ := opened_iff.1 hopen
  obtain ⟨rest, hvalue, hend⟩ := parseDoc_eq_some.1 h
  obtain ⟨h₁', hvalue⟩ := expect_of_parseValue h₁ hvalue
  rcases parseValue_obj_eq_some.1 hvalue with ⟨hclose, -⟩ | ⟨-, ms, hms, -⟩
  · obtain ⟨-, heq⟩ := expect_of_head h₂ hclose (by decide)
    cases heq
  · obtain ⟨h₂', h₃', f₁, d₁, r₁, hliteral, hrest⟩ :=
      member_of_parseMembers (plain_opening "type" (by simp)) h₂ h₃ hms
    obtain ⟨h₄', hliteral⟩ := expect_of_parseValue h₄ hliteral
    -- the same value parsed twice leaves the same rest
    obtain rfl : r₁ = c₄ := by
      cases f₁ with
      | zero => cases hliteral
      | succ f₁ =>
          have htext := parseValue_text (f := f₁) c₄ (plain_opening "FeatureCollection" (by simp))
          exact (parseValue_unique hliteral htext).2
    -- one member, or the features after a comma
    rcases hrest with hclose | ⟨after, ns, hcomma, hns⟩
    · obtain ⟨-, heq⟩ := expect_of_head h₅ hclose (by decide)
      cases heq
    · obtain ⟨h₅', heq⟩ := expect_of_head h₅ hcomma (by decide)
      obtain rfl : after = c₅ := by simpa using heq
      obtain ⟨h₆', h₇', f₂, d₂, r₂, hfeatures, hrest⟩ :=
        member_of_parseMembers (plain_opening "features" (by simp)) h₆ h₇ hns
      obtain ⟨h₈', hfeatures⟩ := expect_of_parseValue h₈ hfeatures
      obtain ⟨-, rfl⟩ := parseValue_unique hfeatures harr
      have hjson : expectAll isJsonSpace openingTokens text = some body :=
        opened_iff.2 ⟨c₁, c₂, c₃, r₁, after, c₆, c₇, h₁', h₂', h₃', h₄', h₅', h₆', h₇', h₈'⟩
      refine ⟨hjson, ?_⟩
      rcases hrest with hclose | ⟨_, _, hcomma, -⟩
      · obtain rfl : trailing = rest := (List.cons.inj hclose).2
        exact hend
      · cases hcomma

/-! ## The whole text -/

theorem expectAll_suffix {space : Char → Bool} {tokens : List (List Char)} {cs rest : List Char}
    (h : expectAll space tokens cs = some rest) : rest <:+ cs := by
  induction tokens generalizing cs with
  | nil =>
      cases h
      exact List.suffix_rfl
  | cons token tokens ih =>
      obtain ⟨mid, hmid, h⟩ := Option.bind_eq_some_iff.mp h
      refine (ih h).trans ?_
      have hdrop := expect_eq_some.1 hmid
      exact (List.suffix_append token mid).trans (hdrop ▸ List.dropWhile_suffix space)

theorem openingTokens_head :
    ∀ token ∈ openingTokens, ∃ c token', token = c :: token' ∧ isPySpace c = false := by
  simp only [openingTokens, List.forall_mem_cons]
  exact ⟨⟨'{', _, rfl, by decide⟩, ⟨'"', _, rfl, by decide⟩, ⟨':', _, rfl, by decide⟩,
    ⟨'"', _, rfl, by decide⟩, ⟨',', _, rfl, by decide⟩, ⟨'"', _, rfl, by decide⟩,
    ⟨':', _, rfl, by decide⟩, ⟨'[', _, rfl, by decide⟩, by simp⟩

/-- Tokens found in JSON's white space are found in Python's, and leave the same. -/
theorem expectAll_unique {tokens : List (List Char)} {cs rest rest' : List Char}
    (htokens : ∀ token ∈ tokens, ∃ c token', token = c :: token' ∧ isPySpace c = false)
    (hjson : expectAll isJsonSpace tokens cs = some rest)
    (hpy : expectAll isPySpace tokens cs = some rest') : rest = rest' := by
  induction tokens generalizing cs with
  | nil =>
      cases hjson
      cases hpy
      rfl
  | cons token tokens ih =>
      rw [List.forall_mem_cons] at htokens
      obtain ⟨⟨c, token', rfl, hc⟩, htokens⟩ := htokens
      obtain ⟨mid, hmid, hjson⟩ := Option.bind_eq_some_iff.mp hjson
      obtain ⟨mid', hmid', hpy⟩ := Option.bind_eq_some_iff.mp hpy
      rw [expect_eq_some, ← skipSpace_eq_dropWhile] at hmid
      obtain ⟨-, heq⟩ := expect_of_head hmid' hmid hc
      have hsame : c :: token' ++ mid = c :: token' ++ mid' := heq
      obtain rfl := List.append_cancel_left hsame
      exact ih htokens hjson hpy

theorem pyDecodeStr_map_chr (s : List Char) : pyDecodeStr (s.map .chr) = s.map scalar := by
  induction s with
  | nil => rfl
  | cons c s ih => rw [List.map_cons, pyDecodeStr, ih, List.map_cons]

theorem pyDecode_collection (docs : List JsonDoc) :
    pyDecode (collection docs) = .dict [(pyKey "type", pyStr "FeatureCollection".toList),
      (pyKey "features", .list (pyDecodeItems docs))] := by
  have hne : ¬ PyKey.str ("type".toList.map scalar) = PyKey.str ("features".toList.map scalar) := by
    decide
  simp only [collection, pyDecode, pyDecodeMembers, pyDecodeStr_map_chr, Dict.ofMembers,
    List.foldl_cons, List.foldl_nil, Dict.set, hne, if_false]
  rfl

/-- Elements at one place of matched lists match. -/
theorem forall₂_getElem? {α β : Type} {R : α → β → Prop} {xs : List α} {ys : List β}
    (h : List.Forall₂ R xs ys) {i : ℕ} {x : α} {y : β} (hx : xs[i]? = some x) (hy : ys[i]? = some y) :
    R x y := by
  obtain ⟨hi, rfl⟩ := List.getElem?_eq_some_iff.mp hx
  obtain ⟨hj, rfl⟩ := List.getElem?_eq_some_iff.mp hy
  exact (List.forall₂_iff_get.mp h).2 i hi hj

theorem pyDecodeItems_eq_map (ds : List JsonDoc) : pyDecodeItems ds = ds.map pyDecode := by
  induction ds with
  | nil => rfl
  | cons d ds ih => rw [pyDecodeItems, ih, List.map_cons]

/-- The one-shot reading of a text: a document, a feature collection, its features in the order of
    the names and the geometries, and the names those of the catalog, each once. -/
structure CollectionOf {G : Type} (shape : PyValue → Option G) (catalog : Finset (List CodePoint))
    (text : List Char) (names : List (List CodePoint)) (geometries : List G) : Prop where
  document : ∃ (d : JsonDoc) (features : List PyValue), parseDoc text = some d ∧ d.standard = true ∧
    pyDecode d = .dict [(pyKey "type", pyStr "FeatureCollection".toList),
      (pyKey "features", .list features)] ∧
    names.length = features.length ∧ geometries.length = features.length ∧
    ∀ (i : ℕ) (feature : PyValue) (name : List CodePoint) (g : G), features[i]? = some feature →
      names[i]? = some name → geometries[i]? = some g → Gives shape feature name g
  nodup : names.Nodup
  catalog_eq : names.toFinset = catalog

/-- The white space that `PREFIX` matches, and that `strip` takes from the end, is JSON's. -/
def JsonSpaced (text : List Char) : Bool :=
  (expectAll isJsonSpace openingTokens text).isSome &&
    (text.reverse.takeWhile isPySpace).all isJsonSpace

/-- What stands behind the closing brace, read off the text. -/
theorem takeWhile_reverse {text trailing : List Char} (h : '}' :: trailing <:+ text)
    (hspace : ∀ c ∈ trailing, isPySpace c = true) :
    text.reverse.takeWhile isPySpace = trailing.reverse := by
  obtain ⟨before, rfl⟩ := h
  have hbrace : ¬ isPySpace '}' = true := by decide
  rw [List.reverse_append, List.reverse_cons, List.append_assoc,
    List.takeWhile_append_of_pos fun c hc => hspace c (List.mem_reverse.mp hc),
    List.singleton_append, List.takeWhile_cons_of_neg hbrace, List.append_nil]

/-- Nothing follows but JSON's white space. -/
theorem skipSpace_eq_nil_iff {trailing : List Char} :
    skipSpace trailing = [] ↔ trailing.reverse.all isJsonSpace = true := by
  rw [skipSpace_eq_dropWhile, List.dropWhile_eq_nil_iff, List.all_reverse, List.all_eq_true]

/-- What `_parse_geometry` returns is the one-shot reading of the text, and the text is a document,
    exactly when the white space around the features is JSON's. -/
theorem parseGeometry_sound_iff {G : Type} {shape : PyValue → Option G}
    {catalog : Finset (List CodePoint)} {text : List Char} {names : List (List CodePoint)}
    {geometries : List G} (h : parseGeometry shape catalog text = some (names, geometries)) :
    CollectionOf shape catalog text names geometries ↔ JsonSpaced text = true := by
  obtain ⟨body, hopen, h⟩ := Option.bind_eq_some_iff.mp h
  obtain ⟨found, hfound, h⟩ := Option.bind_eq_some_iff.mp h
  split at h
  · next hcatalog =>
      cases h
      obtain ⟨hnodup, new, docs, trailing, rfl, hrun⟩ :=
        parseFeatures_run (by simp : (([] : List (List CodePoint × G)).map Prod.fst).Nodup) hfound
      -- the features the loop decoded are the items of one JSON array
      have harr : parseValue (body.length + 1) ('[' :: body) = some (.arr docs, '}' :: trailing) := by
        rw [parseValue_arr_eq_some]
        rcases hrun.parsed with ⟨rfl, hclose⟩ | ⟨hhead, hitems⟩
        · exact .inl ⟨hclose, rfl⟩
        · exact .inr ⟨hhead, docs, hitems, rfl⟩
      have hsuffix := hrun.suffix.trans (expectAll_suffix hopen)
      have htrailing := takeWhile_reverse hsuffix hrun.trailing_space
      rw [JsonSpaced, Bool.and_eq_true, htrailing, ← skipSpace_eq_nil_iff]
      -- the loop skips JSON white space; the two ends are stripped of more
      constructor
      · rintro ⟨⟨d, features, hd, -⟩, -, -⟩
        obtain ⟨hjson, hend⟩ := opened_of_parseDoc hopen harr hd
        exact ⟨by rw [hjson]; rfl, hend⟩
      · rintro ⟨hjson, hend⟩
        obtain ⟨body', hjson⟩ := Option.isSome_iff_exists.mp hjson
        obtain rfl : body' = body := expectAll_unique openingTokens_head hjson hopen
        have hlength := hrun.accepted.length_eq
        refine ⟨⟨_, _, parseDoc_of_opened hjson harr hend, ?_, pyDecode_collection docs, ?_, ?_, ?_⟩,
          hnodup, hcatalog⟩
        · have hdocs : standardItems docs = true := standardItems_iff.2 fun d hd => by
            obtain ⟨p, -, hp⟩ := exists_of_forall₂ hrun.accepted d hd
            exact hp.standard
          simp [collection, JsonDoc.standard, standardMembers, hdocs]
        · simp [pyDecodeItems_eq_map, hlength]
        · simp [pyDecodeItems_eq_map, hlength]
        · intro i feature name g hfeature hname hg
          rw [pyDecodeItems_eq_map, List.getElem?_map, Option.map_eq_some_iff] at hfeature
          obtain ⟨d, hd, rfl⟩ := hfeature
          rw [List.getElem?_map, Option.map_eq_some_iff] at hname hg
          obtain ⟨p, hp, rfl⟩ := hname
          obtain ⟨p', hp', rfl⟩ := hg
          rw [hp] at hp'
          cases hp'
          exact (forall₂_getElem? hrun.accepted hd hp).gives
  · cases h

/-- One feature of one ring, behind `start` and in front of `finish`. -/
def oneFeatureText (start finish : String) : List Char :=
  start.toList ++ "\x7b\"type\":\"FeatureCollection\",\"features\":[\x7b\"type\":\"Feature\",".toList ++
    "\"properties\":\x7b\"tzid\":\"A\"\x7d,\"geometry\":\x7b\"type\":\"Polygon\",".toList ++
    "\"coordinates\":[[[0,0],[1,0],[1,1],[0,0]]]\x7d\x7d]\x7d".toList ++ finish.toList

/-- A no-break space in front of the text, or a form feed behind it, is let through, and makes the
    text no document. -/
theorem parseGeometry_not_json :
    let catalog : Finset (List CodePoint) := {"A".toList.map scalar}
    let shape : PyValue → Option Unit := fun _ => some ()
    (parseGeometry shape catalog (oneFeatureText "\u00a0" "") = some (["A".toList.map scalar], [()]) ∧
        parseDoc (oneFeatureText "\u00a0" "") = none) ∧
      parseGeometry shape catalog (oneFeatureText "" "\x0c") = some (["A".toList.map scalar], [()]) ∧
        parseDoc (oneFeatureText "" "\x0c") = none := by
  intro catalog shape
  have h : (parseGeometry shape catalog (oneFeatureText "\u00a0" "") =
        some (["A".toList.map scalar], [()]) ∧
        (parseDoc (oneFeatureText "\u00a0" "")).isNone = true) ∧
      parseGeometry shape catalog (oneFeatureText "" "\x0c") = some (["A".toList.map scalar], [()]) ∧
        (parseDoc (oneFeatureText "" "\x0c")).isNone = true := by decide +kernel
  simpa only [Option.isNone_iff_eq_none] using h

/-- A feature as it is decoded and checked, and what follows it. -/
def readFeature {G : Type} (shape : PyValue → Option G) (catalog : Finset (List CodePoint))
    (names : List (List CodePoint)) (cursor : List Char) :
    Option ((List CodePoint × G) × List Char) :=
  (rawDecode cursor).bind fun decoded =>
    (featureOf shape catalog names decoded.1).map fun feature => (feature, skipSpace decoded.2)

section Turn

variable {G : Type} {shape : PyValue → Option G} {catalog : Finset (List CodePoint)} {budget : ℕ}
  {found : List (List CodePoint × G)} {cursor after : List Char}
  {feature : List CodePoint × G}

/-- A turn of the loop in front of a comma. -/
theorem parseFeatures_comma (hcursor : (skipSpace cursor).head? ≠ some ']')
    (hread : readFeature shape catalog (found.map Prod.fst) (skipSpace cursor) =
      some (feature, ',' :: after)) (hmore : (skipSpace after).head? ≠ some ']') :
    parseFeatures shape catalog (budget + 1) found cursor =
      parseFeatures shape catalog budget (found ++ [feature]) after := by
  obtain ⟨decoded, hdecoded, hread⟩ := Option.bind_eq_some_iff.mp hread
  obtain ⟨f, hf, heq⟩ := Option.map_eq_some_iff.mp hread
  obtain ⟨rfl, hafter⟩ := Prod.mk.inj heq
  rw [parseFeatures.eq_def]
  split
  · next heq => exact absurd (congrArg List.head? heq) hcursor
  · rw [hdecoded, Option.bind_some, hf, Option.bind_some]
    simp only [hafter]
    split
    · next heq => exact absurd (congrArg List.head? heq) hmore
    · rfl

/-- A turn of the loop in front of the closing bracket. -/
theorem parseFeatures_bracket (hcursor : (skipSpace cursor).head? ≠ some ']')
    (hread : readFeature shape catalog (found.map Prod.fst) (skipSpace cursor) =
      some (feature, ']' :: after)) (hclose : pyStrip (']' :: after) = "]\x7d".toList) :
    parseFeatures shape catalog (budget + 1) found cursor = some (found ++ [feature]) := by
  obtain ⟨decoded, hdecoded, hread⟩ := Option.bind_eq_some_iff.mp hread
  obtain ⟨f, hf, heq⟩ := Option.map_eq_some_iff.mp hread
  obtain ⟨rfl, hafter⟩ := Prod.mk.inj heq
  rw [parseFeatures.eq_def]
  split
  · next heq => exact absurd (congrArg List.head? heq) hcursor
  · rw [hdecoded, Option.bind_some, hf, Option.bind_some]
    simp only [hafter]
    rw [parseFeatures.eq_def]
    exact if_pos hclose

end Turn

/-- A feature of a name, a kind and coordinates. -/
def featureText (name kind coordinates : String) : List Char :=
  "\x7b\"type\":\"Feature\",\"properties\":\x7b\"tzid\":\"".toList ++ name.toList ++
    "\"\x7d,\"geometry\":\x7b\"type\":\"".toList ++ kind.toList ++ "\",\"coordinates\":".toList ++
    coordinates.toList ++ "\x7d\x7d".toList

/-- What stands behind the first feature and its comma. -/
def secondFeature : List Char :=
  "\r ".toList ++ featureText "A" "MultiPolygon" "[[[[2,0],[3,0],[3,1],[2,0]]]]" ++ " ]\x7d\n".toList

/-- Both features, the second of them first in the catalog. -/
def firstFeature : List Char :=
  featureText "B" "Polygon" "[[[0,0],[1,0],[1,1],[0,0]]]" ++ "\n,".toList ++ secondFeature

/-- A collection of two features, with blanks between its tokens. -/
def twoFeaturesText : List Char :=
  " \x7b \"type\" : \"FeatureCollection\" ,\t\"features\":[ ".toList ++ firstFeature

/-- The length of the type's name tells the two geometries apart. -/
def typeLength : PyValue → Option ℕ
  | .dict ((_, .str s) :: _) => some s.length
  | _ => none

/-- The catalog of the two names. -/
def twoNames : Finset (List CodePoint) := {"A".toList.map scalar, "B".toList.map scalar}

/-- What the loop reads in the text, evaluated at one time. -/
theorem turns_twoFeatures :
    matchPrefix twoFeaturesText = some (' ' :: firstFeature) ∧
    ((skipSpace (' ' :: firstFeature)).head? ≠ some ']' ∧
      readFeature typeLength twoNames [] (skipSpace (' ' :: firstFeature)) =
        some (("B".toList.map scalar, 7), ',' :: secondFeature)) ∧
    ((skipSpace secondFeature).head? ≠ some ']' ∧
      readFeature typeLength twoNames ["B".toList.map scalar] (skipSpace secondFeature) =
        some (("A".toList.map scalar, 12), [']', '\x7d', '\n'])) ∧
    JsonSpaced twoFeaturesText = true := by decide +kernel

theorem parseGeometry_sound_iff_twoFeatures :
    CollectionOf typeLength twoNames twoFeaturesText
      ["B".toList.map scalar, "A".toList.map scalar] [7, 12] := by
  obtain ⟨hopen, ⟨hfirstHead, hfirst⟩, ⟨hsecondHead, hsecond⟩, hspaced⟩ := turns_twoFeatures
  have hcomma : parseFeatures typeLength twoNames (418 + 1) [] (' ' :: firstFeature) =
      parseFeatures typeLength twoNames 418 [("B".toList.map scalar, 7)] secondFeature :=
    parseFeatures_comma hfirstHead hfirst hsecondHead
  have hbracket : parseFeatures typeLength twoNames (417 + 1) [("B".toList.map scalar, 7)]
      secondFeature = some [("B".toList.map scalar, 7), ("A".toList.map scalar, 12)] :=
    parseFeatures_bracket hsecondHead hsecond (by decide +kernel)
  have hfound : parseFeatures typeLength twoNames featureCount [] (' ' :: firstFeature) =
      some [("B".toList.map scalar, 7), ("A".toList.map scalar, 12)] := hcomma.trans hbracket
  have h : parseGeometry typeLength twoNames twoFeaturesText =
      some (["B".toList.map scalar, "A".toList.map scalar], [7, 12]) := by
    rw [parseGeometry, hopen, Option.bind_some, hfound]
    decide +kernel
  exact (parseGeometry_sound_iff h).mpr hspaced

end AstroPassport
