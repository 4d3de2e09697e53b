import AstroPassport.Lib.Json.Reading

set_option autoImplicit false

/-! # Hooks of the decoder

`json.loads` calls a hook with the members of each object, their values already built, and another
one with each constant outside the JSON grammar. A hook that refuses a name twice sees one object at
a time; `hookedDoc_eq_some` says what this comes to for a whole document. There is no value for
whatever a hook raises.

The decoder with hooks is a fold over the document that stops at the first object or constant that
is refused. For the hook that refuses a repeated name (`distinctPairs`) and the one that refuses
every constant, a document is accepted exactly when all its objects, at any depth, have distinct
names and no constant is in it, and what is built is then what the decoder without hooks builds. So
a program that decodes with such hooks needs no second look at what it got. -/

namespace AstroPassport

mutual

/-- A document read with an `object_pairs_hook` and a `parse_constant`. -/
def hookedDoc (hook : List (PyKey × PyValue) → Option (List (PyKey × PyValue)))
    (constant : JsonConst → Option PyValue) : JsonDoc → Option PyValue
  | .null => some .none
  | .bool b => some (.bool b)
  | .const c => constant c
  | .num l => some (pyDecodeNum l)
  | .str s => some (.str (pyDecodeStr s))
  | .arr items => (hookedItems hook constant items).map .list
  | .obj members => (hookedMembers hook constant members).bind fun items => (hook items).map .dict

/-- The items, each under the hooks. -/
def hookedItems (hook : List (PyKey × PyValue) → Option (List (PyKey × PyValue)))
    (constant : JsonConst → Option PyValue) : List JsonDoc → Option (List PyValue)
  | [] => some []
  | d :: ds =>
    (hookedDoc hook constant d).bind fun v => (hookedItems hook constant ds).map (v :: ·)

/-- The members, their values under the hooks. -/
def hookedMembers (hook : List (PyKey × PyValue) → Option (List (PyKey × PyValue)))
    (constant : JsonConst → Option PyValue) :
    List (List StrItem × JsonDoc) → Option (List (PyKey × PyValue))
  | [] => some []
  | (k, d) :: ms =>
    (hookedDoc hook constant d).bind fun v =>
      (hookedMembers hook constant ms).map ((.str (pyDecodeStr k), v) :: ·)

end

/-- The loop that refuses a name it has had, the members so far in `result`. -/
def distinctPairs (result : List (PyKey × PyValue)) :
    List (PyKey × PyValue) → Option (List (PyKey × PyValue))
  | [] => some result
  | (key, value) :: items =>
    if key ∈ result.map Prod.fst then none else distinctPairs (Dict.set key value result) items

/-- The constants, let through or not. -/
def readConstant (allowed : Bool) (c : JsonConst) : Option PyValue :=
  if allowed then some (pyDecodeConst c) else none

/-! ## What is accepted -/

theorem distinctPairs_eq_some {result items r : List (PyKey × PyValue)}
    (hresult : (result.map Prod.fst).Nodup) :
    distinctPairs result items = some r ↔ r = result ++ items ∧ (r.map Prod.fst).Nodup := by
  induction items generalizing result with
  | nil =>
      rw [distinctPairs, Option.some.injEq, List.append_nil]
      refine ⟨?_, fun h => h.1.symm⟩
      rintro rfl
      exact ⟨rfl, hresult⟩
  | cons item items ih =>
      obtain ⟨key, value⟩ := item
      have hsplit : result ++ (key, value) :: items = result ++ [(key, value)] ++ items := by simp
      rw [distinctPairs]
      split
      · next hmem =>
          simp only [reduceCtorEq, false_iff, not_and]
          intro hr hnodup
          rw [hr, hsplit, List.map_append] at hnodup
          exact (nodup_names_snoc.1 hnodup.of_append_left).2 hmem
      · next hmem =>
          rw [Dict.set_of_notMem hmem, ih (nodup_names_snoc.2 ⟨hresult, hmem⟩), hsplit]

/-- Started on nothing, the loop keeps all members or refuses them. -/
theorem distinctPairs_nil_eq_some {items r : List (PyKey × PyValue)} :
    distinctPairs [] items = some r ↔ r = items ∧ (items.map Prod.fst).Nodup := by
  have hnil : (([] : List (PyKey × PyValue)).map Prod.fst).Nodup := List.nodup_nil
  rw [distinctPairs_eq_some hnil, List.nil_append]
  exact and_congr_right fun h => by rw [h]

/-- The documents that such hooks accept give no name twice, and hold no constant unless that is
    allowed; they are read as Python reads them without hooks. -/
theorem hookedDoc_eq_some {allowed : Bool} {d : JsonDoc} {v : PyValue} :
    hookedDoc (distinctPairs []) (readConstant allowed) d = some v ↔
      (allowed = true ∨ d.standard = true) ∧ d.DistinctNames ∧ v = pyDecode d := by
  induction d generalizing v with
  | const c =>
      cases allowed <;> simp [hookedDoc, readConstant, JsonDoc.standard, JsonDoc.DistinctNames,
        pyDecode, eq_comm]
  | arr items ih =>
      have hitems : ∀ vs, hookedItems (distinctPairs []) (readConstant allowed) items = some vs ↔
          (allowed = true ∨ standardItems items = true) ∧ itemsDistinctNames items ∧
            vs = pyDecodeItems items := by
        induction items with
        | nil => simp [hookedItems, standardItems, itemsDistinctNames, pyDecodeItems, eq_comm]
        | cons d ds ihs =>
            intro vs
            rw [List.forall_mem_cons] at ih
            simp only [hookedItems, Option.bind_eq_some_iff, Option.map_eq_some_iff, ih.1,
              ihs ih.2, standardItems, itemsDistinctNames, pyDecodeItems, Bool.and_eq_true,
              or_and_left]
            constructor
            · rintro ⟨_, ⟨hd, hdd, rfl⟩, _, ⟨hs, hsd, rfl⟩, rfl⟩
              exact ⟨⟨hd, hs⟩, ⟨hdd, hsd⟩, rfl⟩
            · rintro ⟨⟨hd, hs⟩, ⟨hdd, hsd⟩, rfl⟩
              exact ⟨_, ⟨hd, hdd, rfl⟩, _, ⟨hs, hsd, rfl⟩, rfl⟩
      simp only [hookedDoc, Option.map_eq_some_iff, hitems, JsonDoc.standard,
        JsonDoc.DistinctNames, pyDecode]
      constructor
      · rintro ⟨_, ⟨hs, hd, rfl⟩, rfl⟩
        exact ⟨hs, hd, rfl⟩
      · rintro ⟨hs, hd, rfl⟩
        exact ⟨_, ⟨hs, hd, rfl⟩, rfl⟩
  | obj ms ih =>
      have hmembers : ∀ items,
          hookedMembers (distinctPairs []) (readConstant allowed) ms = some items ↔
            (allowed = true ∨ standardMembers ms = true) ∧ membersDistinctNames ms ∧
              items = pyDecodeMembers ms := by
        induction ms with
        | nil =>
            simp [hookedMembers, standardMembers, membersDistinctNames, pyDecodeMembers, eq_comm]
        | cons m ms ihs =>
            intro items
            rw [List.forall_mem_cons] at ih
            simp only [hookedMembers, Option.bind_eq_some_iff, Option.map_eq_some_iff, ih.1,
              ihs ih.2, standardMembers, membersDistinctNames, pyDecodeMembers, Bool.and_eq_true,
              or_and_left]
            constructor
            · rintro ⟨_, ⟨hd, hdd, rfl⟩, _, ⟨hs, hsd, rfl⟩, rfl⟩
              exact ⟨⟨hd, hs⟩, ⟨hdd, hsd⟩, rfl⟩
            · rintro ⟨⟨hd, hs⟩, ⟨hdd, hsd⟩, rfl⟩
              exact ⟨_, ⟨hd, hdd, rfl⟩, _, ⟨hs, hsd, rfl⟩, rfl⟩
      simp only [hookedDoc, Option.bind_eq_some_iff, Option.map_eq_some_iff, hmembers,
        distinctPairs_nil_eq_some, JsonDoc.standard, JsonDoc.DistinctNames, pyDecode,
        ← nodup_pyDecodeMembers]
      constructor
      · rintro ⟨_, ⟨hs, hd, rfl⟩, _, ⟨rfl, hnodup⟩, rfl⟩
        exact ⟨hs, ⟨hnodup, hd⟩, by rw [Dict.ofMembers_of_nodup hnodup]⟩
      · rintro ⟨hs, ⟨hnodup, hd⟩, rfl⟩
        exact ⟨_, ⟨hs, hd, rfl⟩, _, ⟨rfl, hnodup⟩, by rw [Dict.ofMembers_of_nodup hnodup]⟩
  | _ => simp [hookedDoc, JsonDoc.standard, JsonDoc.DistinctNames, pyDecode, eq_comm]

end AstroPassport
