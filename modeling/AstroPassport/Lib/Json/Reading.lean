import AstroPassport.Lib.Json.Python

set_option autoImplicit false

/-! # Readings of a document

A JSON text fixes the value tree it stands for but for one thing: when an object gives a name
several times, a reader may keep any one of these members. `JsonDoc.ReadAs` is the relation between
a document and the trees a correct reader may make of it; `pyDecode`, which keeps the last, is one
of them. A document without such an object has one reading (`JsonDoc.ReadAs.eq_pyDecode`).

What a reader keeps of the members of an object is any selection that has every name once, and all
of them when no name is repeated (`Keeps`). The relation says nothing about numbers or strings: of
these all readers make what Python makes, and a parser that is known to differ there is no reader in
this sense. So when two programs read one text, and one of them refuses a name that occurs twice,
both have the same tree. The last section finds the document of a member from the value it was
decoded to. -/

namespace AstroPassport

/-! ## What is kept of the members of an object -/

/-- The dictionary keeps of each name one member, and all members when the names are distinct. -/
structure Keeps {κ α : Type} (members kept : List (κ × α)) : Prop where
  subset : kept ⊆ members
  names : ∀ m ∈ members, m.1 ∈ kept.map Prod.fst
  nodup : (kept.map Prod.fst).Nodup
  distinct : (members.map Prod.fst).Nodup → kept = members

theorem Dict.mem_keys_foldl_set {κ α : Type} [DecidableEq κ] (ms d : List (κ × α)) (k : κ) :
    k ∈ (ms.foldl (fun d m => Dict.set m.1 m.2 d) d).map Prod.fst ↔
      k ∈ d.map Prod.fst ∨ k ∈ ms.map Prod.fst := by
  induction ms generalizing d with
  | nil => simp
  | cons m ms ih =>
      rw [List.foldl_cons, ih, Dict.keys_set, List.map_cons, List.mem_cons, ← or_assoc]
      split
      · next hk =>
          refine or_congr_left ⟨Or.inl, ?_⟩
          rintro (h | rfl)
          · exact h
          · exact hk
      · rw [List.mem_append, List.mem_singleton]

/-- Python keeps the last member of a name. -/
theorem keeps_ofMembers {κ α : Type} [DecidableEq κ] (ms : List (κ × α)) :
    Keeps ms (Dict.ofMembers ms) where
  subset := Dict.ofMembers_subset ms
  names m hm := (Dict.mem_keys_foldl_set ms [] m.1).mpr (.inr (List.mem_map_of_mem hm))
  nodup := Dict.nodup_ofMembers ms
  distinct := Dict.ofMembers_of_nodup

/-! ## The readings of a document -/

mutual

/-- A tree that a reader may make of a document. -/
def JsonDoc.ReadAs : JsonDoc → PyValue → Prop
  | .null, v => v = .none
  | .bool b, v => v = .bool b
  | .const c, v => v = pyDecodeConst c
  | .num l, v => v = pyDecodeNum l
  | .str s, v => v = .str (pyDecodeStr s)
  | .arr items, v => ∃ vs, itemsReadAs items vs ∧ v = .list vs
  | .obj members, v => ∃ ms kept, membersReadAs members ms ∧ Keeps ms kept ∧ v = .dict kept

/-- The documents are read as the values, one by one. -/
def itemsReadAs : List JsonDoc → List PyValue → Prop
  | [], vs => vs = []
  | d :: ds, vs => ∃ w ws, d.ReadAs w ∧ itemsReadAs ds ws ∧ vs = w :: ws

/-- The members are read as those of a `dict` with the same keys. -/
def membersReadAs : List (List StrItem × JsonDoc) → List (PyKey × PyValue) → Prop
  | [], ms => ms = []
  | (k, d) :: ds, ms =>
    ∃ w ws, d.ReadAs w ∧ membersReadAs ds ws ∧ ms = (.str (pyDecodeStr k), w) :: ws

end

mutual

/-- No object of the document gives a name twice, escapes resolved. -/
def JsonDoc.DistinctNames : JsonDoc → Prop
  | .arr items => itemsDistinctNames items
  | .obj members =>
    (members.map fun m => pyDecodeStr m.1).Nodup ∧ membersDistinctNames members
  | _ => True

/-- In no object below the items a name occurs twice. -/
def itemsDistinctNames : List JsonDoc → Prop
  | [] => True
  | d :: ds => d.DistinctNames ∧ itemsDistinctNames ds

/-- In no object below the members a name occurs twice. -/
def membersDistinctNames : List (List StrItem × JsonDoc) → Prop
  | [] => True
  | (_, d) :: ms => d.DistinctNames ∧ membersDistinctNames ms

end

theorem itemsDistinctNames_iff {ds : List JsonDoc} :
    itemsDistinctNames ds ↔ ∀ d ∈ ds, d.DistinctNames := by
  induction ds with
  | nil => simp [itemsDistinctNames]
  | cons d ds ih => rw [itemsDistinctNames, ih, List.forall_mem_cons]

theorem membersDistinctNames_iff {ms : List (List StrItem × JsonDoc)} :
    membersDistinctNames ms ↔ ∀ m ∈ ms, m.2.DistinctNames := by
  induction ms with
  | nil => simp [membersDistinctNames]
  | cons m ms ih =>
      obtain ⟨k, d⟩ := m
      rw [membersDistinctNames, ih, List.forall_mem_cons]

theorem map_fst_pyDecodeMembers (ms : List (List StrItem × JsonDoc)) :
    (pyDecodeMembers ms).map Prod.fst = ms.map fun m => PyKey.str (pyDecodeStr m.1) := by
  induction ms with
  | nil => rfl
  | cons m ms ih => rw [pyDecodeMembers, List.map_cons, List.map_cons, ih]

/-- The names of decoded members are distinct when the decoded names are. -/
theorem nodup_pyDecodeMembers {ms : List (List StrItem × JsonDoc)} :
    ((pyDecodeMembers ms).map Prod.fst).Nodup ↔ (ms.map fun m => pyDecodeStr m.1).Nodup := by
  have hmap : (ms.map fun m => PyKey.str (pyDecodeStr m.1)) =
      (ms.map fun m => pyDecodeStr m.1).map PyKey.str := by
    rw [List.map_map]
    rfl
  rw [map_fst_pyDecodeMembers, hmap]
  exact List.nodup_map_iff fun _ _ h => PyKey.str.inj h

/-- Python's reading is one. -/
theorem JsonDoc.readAs_pyDecode (d : JsonDoc) : d.ReadAs (pyDecode d) := by
  induction d with
  | arr items ih =>
      have hitems : itemsReadAs items (pyDecodeItems items) := by
        induction items with
        | nil => rfl
        | cons d ds ihs =>
            rw [List.forall_mem_cons] at ih
            exact ⟨_, _, ih.1, ihs ih.2, rfl⟩
      exact ⟨_, hitems, rfl⟩
  | obj ms ih =>
      have hmembers : membersReadAs ms (pyDecodeMembers ms) := by
        induction ms with
        | nil => rfl
        | cons m ms ihs =>
            rw [List.forall_mem_cons] at ih
            exact ⟨_, _, ih.1, ihs ih.2, rfl⟩
      exact ⟨_, _, hmembers, keeps_ofMembers _, rfl⟩
  | _ => rfl

/-- And the only one, when no object gives a name twice. -/
theorem JsonDoc.ReadAs.eq_pyDecode {d : JsonDoc} {v : PyValue} (h : d.ReadAs v)
    (hdistinct : d.DistinctNames) : v = pyDecode d := by
  induction d generalizing v with
  | arr items ih =>
      -- the items one by one, each read as it is decoded
      have hitems : ∀ vs, itemsReadAs items vs → vs = pyDecodeItems items := by
        rw [JsonDoc.DistinctNames, itemsDistinctNames_iff] at hdistinct
        clear h
        induction items with
        | nil => exact fun vs hvs => hvs
        | cons d ds ihs =>
            rw [List.forall_mem_cons] at ih hdistinct
            rintro vs ⟨w, ws, hw, hws, rfl⟩
            rw [ih.1 hw hdistinct.1, ihs ih.2 hdistinct.2 ws hws, pyDecodeItems]
      obtain ⟨vs, hvs, rfl⟩ := h
      rw [hitems vs hvs, pyDecode]
  | obj members ih =>
      have hmembers : ∀ ms, membersReadAs members ms → ms = pyDecodeMembers members := by
        have hbelow := membersDistinctNames_iff.1 hdistinct.2
        clear h hdistinct
        induction members with
        | nil => exact fun ms hms => hms
        | cons m members ihs =>
            rw [List.forall_mem_cons] at ih hbelow
            rintro ms ⟨w, ws, hw, hws, rfl⟩
            rw [ih.1 hw hbelow.1, ihs ih.2 hbelow.2 ws hws, pyDecodeMembers]
      obtain ⟨ms, kept, hms, hkept, rfl⟩ := h
      obtain rfl := hmembers ms hms
      -- with no name repeated nothing is overwritten
      have hnodup := nodup_pyDecodeMembers.2 hdistinct.1
      rw [hkept.distinct hnodup, pyDecode, Dict.ofMembers_of_nodup hnodup]
  | _ => exact h

/-! ## Decoded arrays and objects -/

theorem pyKey_injective : Function.Injective pyKey := fun _ _ h =>
  String.toList_inj.mp (strKey_injective h)

/-- Only an array is decoded to a list. -/
theorem pyDecode_eq_list {d : JsonDoc} {values : List PyValue} :
    pyDecode d = .list values ↔ ∃ items, d = .arr items ∧ values = pyDecodeItems items := by
  constructor
  · intro h
    cases d with
    | arr items => exact ⟨items, rfl, (PyValue.list.inj h).symm⟩
    | num l =>
        rw [pyDecode, pyDecodeNum] at h
        split at h <;> cases h
    | const c => cases c <;> cases h
    | _ => cases h
  · rintro ⟨items, rfl, rfl⟩
    rfl

/-- And only an object to a dictionary. -/
theorem pyDecode_eq_dict {d : JsonDoc} {ms : List (PyKey × PyValue)} :
    pyDecode d = .dict ms ↔ ∃ members, d = .obj members ∧
      ms = Dict.ofMembers (pyDecodeMembers members) := by
  constructor
  · intro h
    cases d with
    | obj members => exact ⟨members, rfl, (PyValue.dict.inj h).symm⟩
    | num l =>
        rw [pyDecode, pyDecodeNum] at h
        split at h <;> cases h
    | const c => cases c <;> cases h
    | _ => cases h
  · rintro ⟨members, rfl, rfl⟩
    rfl

/-- The dictionaries of decoded JSON have distinct names. -/
theorem nodup_of_pyDecode {d : JsonDoc} {ms : List (PyKey × PyValue)} (h : pyDecode d = .dict ms) :
    (ms.map Prod.fst).Nodup := by
  obtain ⟨members, rfl, rfl⟩ := pyDecode_eq_dict.1 h
  exact Dict.nodup_ofMembers _

/-- The values in a decoded object are decoded as well. -/
theorem exists_doc_of_mem {d : JsonDoc} {ms : List (PyKey × PyValue)} {m : PyKey × PyValue}
    (h : pyDecode d = .dict ms) (hm : m ∈ ms) : ∃ d', m.2 = pyDecode d' := by
  obtain ⟨members, rfl, rfl⟩ := pyDecode_eq_dict.1 h
  have hmem := Dict.ofMembers_subset _ hm
  clear hm h
  induction members with
  | nil => cases hmem
  | cons n members ih =>
      rcases List.mem_cons.mp hmem with rfl | hmem
      · exact ⟨n.2, rfl⟩
      · exact ih hmem

end AstroPassport
