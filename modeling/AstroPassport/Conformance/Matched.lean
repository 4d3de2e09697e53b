import AstroPassport.Conformance.Links

set_option autoImplicit false

/-! # Rows that passed

`compare_pair` taken apart: when it returns, every row of both participants passed (`Matched`), and
a new leaf that a row links to an old one is what `project_reference` would make of the old one
(`Matched.projected`).

The comparison is a fold over the rows that counts classifications, and a fold of checks returns
exactly when every check does (`foldlM_check`), whatever is counted. From then on the fold is gone:
`comparePair_eq_ok` says what a returning comparison has found out about each record, as a structure
with named fields, and the proofs about the pair use these fields only. The link between the two
walks is made for one row: what `compare` wants a leaf to be is what the projection rewrites the old
leaf to, for every branch a row can take (`projected_of_wanted`), so that a leaf that passed is a
leaf that is projected. -/

namespace AstroPassport

open JsonValue

variable {lib : PyLibrary} {newRevision : String}

/-! ## Taking a comparison apart -/

theorem leaf_eq_ok {flat : Flat} {p : List String} {v : JsonValue} :
    flat.leaf p = .ok v ↔ flat.lookup p = some v := by
  unfold Flat.leaf
  rcases flat.lookup p with _ | x <;> simp

theorem item_eq_ok {v x : JsonValue} {name : String} :
    v.item name = .ok x ↔ v.child (.key name) = some x := by
  cases v with
  | obj ms =>
      rcases hx : ms.lookup name with _ | y <;> simp [item, JsonValue.child, hx]
  | _ => exact ⟨nofun, nofun⟩

/-- A loop that checks each element and counts has checked each element. -/
theorem foldlM_check {α β ε : Type} {check : α → Except ε Unit} {count : β → α → β} {xs : List α}
    {b c : β} (h : xs.foldlM (fun b x => do check x; pure (count b x)) b = .ok c) :
    ∀ x ∈ xs, check x = .ok () := by
  induction xs generalizing b with
  | nil => exact fun _ hx => by cases hx
  | cons x xs ih =>
      rw [List.foldlM_cons] at h
      obtain ⟨_, hstep, hxs⟩ := bind_eq_ok.1 h
      obtain ⟨⟨⟩, hx, -⟩ := bind_eq_ok.1 hstep
      exact List.forall_mem_cons.mpr ⟨hx, ih hxs⟩

/-- What `compare_pair` has found about one participant when it returns: the leaves of both sides,
    the legacy request, and that every row outside of the pair manifest passed. -/
structure Matched (lib : PyLibrary) (newRevision : String) (record request response : JsonValue)
    (news old : Flat) (selected legacy : JsonValue) : Prop where
  news_eq : newLeaves newRevision request response = .ok news
  old_eq : leaves record = .ok old
  selected_eq : record.item "selected" = .ok selected
  legacy_eq : legacyRequest lib selected = .ok legacy
  rows : ∀ row ∈ oldRows, Path.under [.manifest] row.path = false →
    ∃ value wanted, old.lookup row.path.texts = some value ∧
      row.wanted lib newRevision old value = .ok wanted ∧
      ∀ target ∈ row.linked, ∃ leaf, news.lookup target.texts = some leaf ∧
        wanted.equal lib.oneNan leaf = true

theorem index_of_not_manifest {row : OldRow} (h : Path.under [.manifest] row.path = false)
    (participant : ℕ) : row.index participant = .ok participant := by
  unfold OldRow.index
  split
  · next hpath =>
      rw [hpath] at h
      cases h
  · rfl

/-- A row that passed, of a leaf that is not of the pair manifest. -/
theorem check_eq_ok {row : OldRow} {newFlat : List Flat} {old news : Flat} {participant : ℕ}
    (h : row.check lib newRevision newFlat participant old = .ok ())
    (hmanifest : Path.under [.manifest] row.path = false)
    (hnews : newFlat[participant]? = some news) :
    ∃ value wanted, old.lookup row.path.texts = some value ∧
      row.wanted lib newRevision old value = .ok wanted ∧
      ∀ target ∈ row.linked, ∃ leaf, news.lookup target.texts = some leaf ∧
        wanted.equal lib.oneNan leaf = true := by
  obtain ⟨value, hvalue, h⟩ := bind_eq_ok.1 h
  obtain ⟨index, hindex, h⟩ := bind_eq_ok.1 h
  rw [index_of_not_manifest hmanifest] at hindex
  cases hindex
  obtain ⟨wanted, hwanted, h⟩ := bind_eq_ok.1 h
  refine ⟨value, wanted, leaf_eq_ok.1 hvalue, hwanted, fun target htarget => ?_⟩
  obtain ⟨flat, hflat, hrow⟩ := bind_eq_ok.1 (forM_eq_ok.1 h target htarget)
  rw [hnews] at hflat
  cases hflat
  obtain ⟨leaf, hleaf, hequal⟩ := bind_eq_ok.1 hrow
  exact ⟨leaf, leaf_eq_ok.1 hleaf, by simpa using refuse_eq_ok.1 hequal⟩

theorem compareRecord_eq_ok {retained : String} {newFlat : List Flat} {news : Flat}
    {request response record : JsonValue} {participant : ℕ} {counts counts' : Counts}
    (hflat : newLeaves newRevision request response = .ok news)
    (hnews : newFlat[participant]? = some news)
    (h : compareRecord lib newRevision retained newFlat request participant record counts =
      .ok counts') :
    ∃ old selected legacy,
      Matched lib newRevision record request response news old selected legacy := by
  obtain ⟨old, hold, h⟩ := bind_eq_ok.1 h
  obtain ⟨_, _, h⟩ := bind_eq_ok.1 h
  obtain ⟨_, _, h⟩ := bind_eq_ok.1 h
  obtain ⟨_, _, h⟩ := bind_eq_ok.1 h
  obtain ⟨_, _, h⟩ := bind_eq_ok.1 h
  obtain ⟨selected, hselected, h⟩ := bind_eq_ok.1 h
  obtain ⟨legacy, hlegacy, h⟩ := bind_eq_ok.1 h
  obtain ⟨_, _, h⟩ := bind_eq_ok.1 h
  refine ⟨old, selected, legacy, hflat, hold, hselected, hlegacy, fun row hrow hmanifest => ?_⟩
  exact check_eq_ok (foldlM_check h row hrow) hmanifest hnews

/-- Both participants are matched when the comparison returns. -/
theorem comparePair_eq_ok {old requests responses : List PyJson} {retained : String}
    {counts : Counts}
    (h : comparePair lib old requests responses newRevision retained = .ok counts) :
    ∃ record₀ record₁ request₀ request₁ response₀ response₁,
      old = [record₀, record₁] ∧ requests = [request₀, request₁] ∧
      responses = [response₀, response₁] ∧
      (∃ news old selected legacy, Matched lib newRevision record₀.value request₀.value
        response₀.value news old selected legacy) ∧
      ∃ news old selected legacy, Matched lib newRevision record₁.value request₁.value
        response₁.value news old selected legacy := by
  obtain ⟨_, hshape, h⟩ := bind_eq_ok.1 h
  simp only [refuse_eq_ok, Bool.or_eq_false_iff, bne_eq_false_iff_eq, Bool.not_eq_false',
    List.length_eq_two] at hshape
  -- two of each, so the loops are unrolled
  obtain ⟨⟨⟨⟨r₀, r₁, rfl⟩, q₀, q₁, rfl⟩, s₀, s₁, rfl⟩, -⟩ := hshape
  obtain ⟨newFlat, hflats, h⟩ := bind_eq_ok.1 h
  have hpair : ([q₀, q₁].zip [s₀, s₁]) = [(q₀, s₀), (q₁, s₁)] := rfl
  rw [hpair, List.mapM_cons, List.mapM_cons, List.mapM_nil] at hflats
  simp only [bind_eq_ok, pure, Except.pure, Except.ok.injEq] at hflats
  obtain ⟨n₀, hn₀, _, ⟨n₁, hn₁, _, rfl, rfl⟩, rfl⟩ := hflats
  obtain ⟨counts', hloop, -⟩ := bind_eq_ok.1 h
  have hrecords : ([r₀, r₁].zip [q₀, q₁]).zipIdx = [((r₀, q₀), 0), ((r₁, q₁), 1)] := rfl
  rw [hrecords, List.foldlM_cons] at hloop
  obtain ⟨_, hfirst, hloop⟩ := bind_eq_ok.1 hloop
  rw [List.foldlM_cons] at hloop
  obtain ⟨_, hsecond, -⟩ := bind_eq_ok.1 hloop
  exact ⟨r₀, r₁, q₀, q₁, s₀, s₁, rfl, rfl, rfl,
    ⟨n₀, compareRecord_eq_ok hn₀ rfl hfirst⟩, ⟨n₁, compareRecord_eq_ok hn₁ rfl hsecond⟩⟩

/-! ## One row, both walks -/

/-- The projection of a value is what the comparison wants of it. -/
theorem projected_of_wanted {flat : Flat} {row : OldRow} {value wanted : JsonValue} {r : Rewrite}
    (h : r.wanted lib newRevision flat row value = .ok wanted) :
    r.projected lib newRevision value = .ok wanted := by
  cases r with
  | keep => exact h
  | placeSchema | repository | revision =>
      obtain ⟨_, _, h⟩ := bind_eq_ok.1 h
      exact h
  | manifest | outcome =>
      obtain ⟨_, hvalue, h⟩ := bind_eq_ok.1 h
      exact bind_eq_ok.2 ⟨(), refuse_eq_ok.2 (refuse_eq_ok.1 hvalue), h⟩
  | clock =>
      obtain ⟨clock, hclock, h⟩ := bind_eq_ok.1 h
      obtain ⟨_, _, h⟩ := bind_eq_ok.1 h
      exact bind_eq_ok.2 ⟨clock, hclock, h⟩
  -- of the two offsets the row checks, the projection needs the first
  | instant =>
      obtain ⟨instant, hinstant, h⟩ := bind_eq_ok.1 h
      obtain ⟨_, hzero, h⟩ := bind_eq_ok.1 h
      rw [refuse_eq_ok, Bool.or_eq_false_iff] at hzero
      exact bind_eq_ok.2 ⟨instant, hinstant, bind_eq_ok.2 ⟨(), refuse_eq_ok.2 hzero.1, h⟩⟩
  | longitude =>
      obtain ⟨_, _, h⟩ := bind_eq_ok.1 h
      obtain ⟨_, _, h⟩ := bind_eq_ok.1 h
      obtain ⟨number, hnumber, h⟩ := bind_eq_ok.1 h
      obtain ⟨_, _, h⟩ := bind_eq_ok.1 h
      obtain ⟨_, _, h⟩ := bind_eq_ok.1 h
      obtain ⟨_, _, h⟩ := bind_eq_ok.1 h
      exact bind_eq_ok.2 ⟨number, hnumber, h⟩

/-! ## The new leaves -/

section NewLeaves

variable {record request response : JsonValue} {news old : Flat} {selected legacy : JsonValue}

theorem newLeaves_eq_ok (h : newLeaves newRevision request response = .ok news) :
    (∃ a, AstroPassportRequestV1.model.decode request = .ok a) ∧
      (∃ a, AstroPassportResponseV1.model.decode response = .ok a) ∧
      ∃ provenance, leaves (.obj [("request", request), ("response", response),
        ("provenance", provenance)]) = .ok news := by
  obtain ⟨a, ha, h⟩ := bind_eq_ok.1 h
  obtain ⟨b, hb, h⟩ := bind_eq_ok.1 h
  obtain ⟨provenance, _, h⟩ := bind_eq_ok.1 h
  obtain ⟨flat, hflat, h⟩ := bind_eq_ok.1 h
  obtain ⟨_, _, h⟩ := bind_eq_ok.1 h
  obtain ⟨_, _, h⟩ := bind_eq_ok.1 h
  obtain ⟨_, _, h⟩ := bind_eq_ok.1 h
  cases h
  exact ⟨⟨a, orRaise_eq_ok.1 ha⟩, ⟨b, orRaise_eq_ok.1 hb⟩, provenance, hflat⟩

/-- A leaf of the request or of the response is a leaf of the exchange. -/
theorem news_lookup {part v x : JsonValue} {name : String} {p : List JsonStep}
    (hnews : leaves v = .ok news) (hpart : v.child (.key name) = some part)
    (hp : throughObjects p = true) (hx : part.get p = some x) (hplain : x.isPlain = true) :
    news.lookup (name :: p.map JsonStep.text) = some x := by
  have hget : v.get (.key name :: p) = some x := by rw [get_cons, hpart, Option.bind_some, hx]
  exact leaf_of_get (p := .key name :: p) hp hnews hget hplain

/-- A new leaf that a row links to an old one is the projection of the old one. -/
theorem Matched.projected
    (hm : Matched lib newRevision record request response news old selected legacy)
    {source target : Path} {r : Rewrite} {x : JsonValue}
    (hlink : oldRows.any (OldRow.links source target r) = true)
    (hx : news.lookup target.texts = some x) (hplain : x.isPlain = true) :
    ∃ value, old.lookup source.texts = some value ∧ r.projected lib newRevision value = .ok x := by
  obtain ⟨row, hrow, hlinks⟩ := List.any_eq_true.mp hlink
  simp only [OldRow.links, Bool.and_eq_true, beq_iff_eq, List.contains_iff_mem,
    Bool.not_eq_true'] at hlinks
  obtain ⟨⟨⟨rfl, htarget⟩, hbranch⟩, hmanifest⟩ := hlinks
  obtain ⟨value, wanted, hvalue, hwanted, htargets⟩ := hm.rows row hrow hmanifest
  obtain ⟨leaf, hleaf, hequal⟩ := htargets target htarget
  rw [hx] at hleaf
  cases hleaf
  rw [OldRow.wanted, hbranch] at hwanted
  refine ⟨value, hvalue, ?_⟩
  rw [← eq_of_equal hequal hplain]
  exact projected_of_wanted hwanted

end NewLeaves

end AstroPassport
