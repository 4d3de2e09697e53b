import AstroPassport.Conformance.Flatten

set_option autoImplicit false

/-! # What `leaves` tells apart

`leaves` writes the index of an array and the name of a member the same way, so an array of objects
has the leaves of the object that names its items by their indices (`leaves_indexed`). Nothing else
is lost: values with the same leaves are the same once all such arrays are written as objects
(`sameLeaves_iff`), and a value that holds neither kind is told apart from every other.

`indexed` is that rewriting. A value without an expandable array is determined by what stands at its
paths (`leavesSame_iff`), by induction over its members, and the paths are determined by their
texts, since no key on them has a separator in it (`pathText_injective`). So the leaves of two
values are the same exactly when their indexed forms are. A value is told apart from all others when
no array of objects and no object named by indices is in it (`unambiguous`); when one is, the other
spelling of it has the same leaves (`exists_of_ambiguous`). Both directions for one value and for
two are `leaves_lossless_iff`. -/

namespace AstroPassport

open JsonValue

/-! ## The dictionary -/

/-- A path as `leaves` writes it, every key behind a slash. -/
def pathText (path : List String) : List Char := path.flatMap fun k => '/' :: k.toList

/-- `leaves`, its paths written out. -/
def leafMap (v : JsonValue) : Except ConformanceRaise (List (List Char × JsonValue)) :=
  (leaves v).map fun flat => flat.map fun e => (pathText e.1, e.2)

/-- The same paths, with the same typed values. -/
def SameLeaves {κ : Type} [BEq κ] (f g : List (κ × JsonValue)) : Prop :=
  ∀ p, Option.Rel Same (f.lookup p) (g.lookup p)

/-! ## Arrays of objects as objects -/

/-- The items of an array, named by their indices. -/
def indexMembers (i : ℕ) : List JsonValue → List (String × JsonValue)
  | [] => []
  | x :: items => (toString i, x) :: indexMembers (i + 1) items

namespace JsonValue

mutual

/-- Every array that `leaves` goes into, written as an object. -/
def indexed : JsonValue → JsonValue
  | .obj ms => .obj (indexedMembers ms)
  | .arr items => if items.any isObj then .obj (indexedItems 0 items) else .arr items
  | v => v

/-- The members of an object, their values indexed. -/
def indexedMembers : List (String × JsonValue) → List (String × JsonValue)
  | [] => []
  | (k, v) :: ms => (k, v.indexed) :: indexedMembers ms

/-- The items of an array under their indices, from `i` on. -/
def indexedItems (i : ℕ) : List JsonValue → List (String × JsonValue)
  | [] => []
  | v :: items => (toString i, v.indexed) :: indexedItems (i + 1) items

end

/-- An object that names objects by the indices of an array. -/
def namesIndices (ms : List (String × JsonValue)) : Bool :=
  ms.all (fun m => m.2.isObj) &&
    (ms.map Prod.fst).isPerm ((List.range ms.length).map toString)

mutual

/-- `leaves` meets no array of objects. -/
def unexpanded : JsonValue → Bool
  | .obj ms => unexpandedMembers ms
  | .arr items => !items.any isObj
  | _ => true

/-- No value of a member is expanded. -/
def unexpandedMembers : List (String × JsonValue) → Bool
  | [] => true
  | (_, v) :: ms => v.unexpanded && unexpandedMembers ms

end

mutual

/-- `leaves` meets no array of objects and no object that could stand for one. -/
def unambiguous : JsonValue → Bool
  | .obj ms => !namesIndices ms && unambiguousMembers ms
  | .arr items => !items.any isObj
  | _ => true

/-- Every value of a member is unambiguous. -/
def unambiguousMembers : List (String × JsonValue) → Bool
  | [] => true
  | (_, v) :: ms => v.unambiguous && unambiguousMembers ms

end

/-! ## The same, member by member -/

theorem indexedMembers_eq (ms : List (String × JsonValue)) :
    indexedMembers ms = ms.map fun m => (m.1, m.2.indexed) :=
  eq_map_of_cons rfl (fun _ _ => rfl) ms

theorem indexedItems_eq (i : ℕ) (items : List JsonValue) :
    indexedItems i items = indexedMembers (indexMembers i items) := by
  induction items generalizing i with
  | nil => rfl
  | cons v items ih => rw [indexedItems, ih, indexMembers, indexedMembers]

theorem unexpandedMembers_iff {ms : List (String × JsonValue)} :
    unexpandedMembers ms = true ↔ ∀ m ∈ ms, m.2.unexpanded = true :=
  forall_mem_of_cons rfl fun _ _ => rfl

theorem unambiguousMembers_iff {ms : List (String × JsonValue)} :
    unambiguousMembers ms = true ↔ ∀ m ∈ ms, m.2.unambiguous = true :=
  forall_mem_of_cons rfl fun _ _ => rfl

theorem unexpanded_arr {items : List JsonValue} :
    (arr items).unexpanded = true ↔ items.any isObj = false :=
  iff_of_eq (Bool.not_eq_true' _)

/-- Without an array of objects there is nothing to write as an object. -/
theorem indexed_of_unexpanded {v : JsonValue} (h : v.unexpanded = true) : v.indexed = v := by
  induction v using JsonValue.induction_on with
  | arr items =>
      exact if_neg (Bool.not_eq_true _ ▸ unexpanded_arr.1 h)
  | obj ms ih =>
      refine congrArg obj ((indexedMembers_eq ms).trans ?_)
      refine (List.map_congr_left fun m hm => ?_).trans (List.map_id _)
      rw [ih m hm (unexpandedMembers_iff.1 h m hm)]
      rfl
  | _ => rfl

theorem unexpanded_of_unambiguous {v : JsonValue} (h : v.unambiguous = true) :
    v.unexpanded = true := by
  induction v using JsonValue.induction_on with
  | arr items => exact h
  | obj ms ih =>
      rw [unambiguous, Bool.and_eq_true, unambiguousMembers_iff] at h
      exact unexpandedMembers_iff.2 fun m hm => ih m hm (h.2 m hm)
  | _ => rfl

theorem map_snd_indexMembers (i : ℕ) (items : List JsonValue) :
    (indexMembers i items).map Prod.snd = items := by
  induction items generalizing i with
  | nil => rfl
  | cons v items ih => rw [indexMembers, List.map_cons, ih]

theorem map_fst_indexMembers (i : ℕ) (items : List JsonValue) :
    (indexMembers i items).map Prod.fst = (List.range' i items.length).map toString := by
  induction items generalizing i with
  | nil => rfl
  | cons v items ih =>
      rw [indexMembers, List.map_cons, ih, List.length_cons, List.range'_succ, List.map_cons]

theorem mem_of_mem_indexMembers {i : ℕ} {items : List JsonValue} {m : String × JsonValue}
    (h : m ∈ indexMembers i items) : m.2 ∈ items := by
  rw [← map_snd_indexMembers i items]
  exact List.mem_map.mpr ⟨m, h, rfl⟩

theorem nodup_indexMembers (i : ℕ) (items : List JsonValue) :
    ((indexMembers i items).map Prod.fst).Nodup := by
  rw [map_fst_indexMembers]
  exact (List.nodup_range' 1).map fun _ _ => toString_injective

theorem unexpanded_indexed (v : JsonValue) : v.indexed.unexpanded = true := by
  have hmembers : ∀ ms : List (String × JsonValue), (∀ m ∈ ms, m.2.indexed.unexpanded = true) →
      (obj (indexedMembers ms)).unexpanded = true := by
    intro ms h
    rw [indexedMembers_eq]
    refine unexpandedMembers_iff.2 fun m hm => ?_
    obtain ⟨e, he, rfl⟩ := List.mem_map.mp hm
    exact h e he
  induction v using JsonValue.induction_on with
  | arr items ih =>
      rw [indexed]
      split
      · rw [indexedItems_eq]
        exact hmembers _ fun m hm => ih m.2 (mem_of_mem_indexMembers hm)
      · next h => exact unexpanded_arr.2 (Bool.eq_false_iff.mpr h)
  | obj ms ih => exact hmembers ms ih
  | _ => rfl

/-- Writing arrays as objects keeps the names distinct. -/
theorem distinct_indexed {v : JsonValue} (h : v.distinct = true) : v.indexed.distinct = true := by
  have hmembers : ∀ ms : List (String × JsonValue), (ms.map Prod.fst).Nodup →
      (∀ m ∈ ms, m.2.indexed.distinct = true) → (obj (indexedMembers ms)).distinct = true := by
    intro ms hnodup h
    rw [indexedMembers_eq, distinct_obj_iff, List.map_map]
    refine ⟨hnodup, fun m hm => ?_⟩
    obtain ⟨e, he, rfl⟩ := List.mem_map.mp hm
    exact h e he
  induction v using JsonValue.induction_on with
  | arr items ih =>
      rw [indexed]
      split
      · rw [indexedItems_eq]
        exact hmembers _ (nodup_indexMembers 0 items) fun m hm =>
          ih m.2 (mem_of_mem_indexMembers hm)
            (distinctItems_iff.1 h m.2 (mem_of_mem_indexMembers hm))
      · exact h
  | obj ms ih =>
      rw [distinct_obj_iff] at h
      exact hmembers ms h.1 fun m hm => ih m hm (h.2 m hm)
  | _ => rfl

end JsonValue

/-! ## The leaf at a path -/

/-- `leaves` returns. -/
def Flattens (v : JsonValue) : Prop := ∃ flat, leaves v = .ok flat

/-- What `leaves` has at a path. -/
def leafAt (v : JsonValue) (path : List String) : Option JsonValue :=
  match leaves v with
  | .ok flat => flat.lookup path
  | .error _ => none

theorem leafAt_of_eq_ok {v : JsonValue} {flat : Flat} (h : leaves v = .ok flat)
    (path : List String) : leafAt v path = flat.lookup path := by
  rw [leafAt, h]

theorem leavesOfMembers_isOk {ms : List (String × JsonValue)} :
    (∃ flat, leavesOfMembers ms = .ok flat) ↔ ∀ m ∈ ms, Flattens m.2 := by
  induction ms with
  | nil => simp [leavesOfMembers]
  | cons m ms ih =>
      obtain ⟨k, v⟩ := m
      rw [List.forall_mem_cons, ← ih]
      constructor
      · rintro ⟨flat, h⟩
        simp only [leavesOfMembers, bind_eq_ok] at h
        obtain ⟨part, hpart, rest, hrest, -⟩ := h
        exact ⟨⟨part, hpart⟩, rest, hrest⟩
      · rintro ⟨⟨part, hpart⟩, rest, hrest⟩
        refine ⟨part.within k ++ rest, ?_⟩
        rw [leavesOfMembers, bind_of_eq_ok hpart, bind_of_eq_ok hrest]

theorem flattens_obj {ms : List (String × JsonValue)} :
    Flattens (.obj ms) ↔ ms ≠ [] ∧ (∀ m ∈ ms, hasSeparator m.1 = false) ∧
      ∀ m ∈ ms, Flattens m.2 := by
  have hrefuse : (ms.isEmpty || ms.any fun m => hasSeparator m.1) = false ↔
      ms ≠ [] ∧ ∀ m ∈ ms, hasSeparator m.1 = false := by
    simp [Bool.or_eq_false_iff, List.any_eq_false]
  rw [← leavesOfMembers_isOk, ← and_assoc, ← hrefuse, Flattens]
  constructor
  · rintro ⟨flat, h⟩
    rw [leaves, bind_eq_ok] at h
    obtain ⟨_, hshape, hflat⟩ := h
    exact ⟨refuse_eq_ok.1 hshape, flat, hflat⟩
  · rintro ⟨hshape, flat, hflat⟩
    refine ⟨flat, ?_⟩
    rw [leaves, bind_of_eq_ok (refuse_eq_ok (u := ()).mpr hshape), hflat]

theorem leafAt_obj_nil (ms : List (String × JsonValue)) : leafAt (.obj ms) [] = none := by
  rw [leafAt]
  split
  · next flat h =>
      rw [leaves, bind_eq_ok] at h
      obtain ⟨_, -, h⟩ := h
      induction ms generalizing flat with
      | nil =>
          cases h
          rfl
      | cons m ms ih =>
          obtain ⟨k, v⟩ := m
          simp only [leavesOfMembers, bind_eq_ok] at h
          obtain ⟨part, -, rest, hrest, heq⟩ := h
          cases heq
          rw [List.lookup_append, ih rest hrest, Option.or_none]
          exact List.lookup_eq_none_iff.mpr fun e he => by
            obtain ⟨_, -, rfl⟩ := List.mem_map.mp he
            rfl
  · rfl

/-- Below a name there are the leaves of its value. -/
theorem leafAt_obj {ms : List (String × JsonValue)} (h : Flattens (.obj ms))
    (hnodup : (ms.map Prod.fst).Nodup) (k : String) (p : List String) :
    leafAt (.obj ms) (k :: p) = (ms.lookup k).bind fun x => leafAt x p := by
  obtain ⟨flat, hflat⟩ := h
  rw [leafAt_of_eq_ok hflat]
  rw [leaves, bind_eq_ok] at hflat
  obtain ⟨_, -, hflat⟩ := hflat
  induction ms generalizing flat with
  | nil =>
      cases hflat
      rfl
  | cons m ms ih =>
      obtain ⟨l, v⟩ := m
      rw [List.map_cons, List.nodup_cons] at hnodup
      simp only [leavesOfMembers, bind_eq_ok] at hflat
      obtain ⟨part, hpart, rest, hrest, heq⟩ := hflat
      cases heq
      rw [List.lookup_append, ih hnodup.2 rest hrest]
      -- the part of the head holds the paths that begin with its name
      by_cases hk : k = l
      · subst hk
        have hnone : ms.lookup k = none := List.lookup_eq_none_iff.mpr fun e he =>
          bne_iff_ne.mpr fun heq => hnodup.1 (List.mem_map.mpr ⟨e, he, heq.symm⟩)
        rw [List.lookup_cons_self, hnone, Flat.lookup_within, Option.bind_none, Option.or_none,
          Option.bind_some, leafAt_of_eq_ok hpart]
      · rw [Flat.lookup_within_of_ne hk, Option.none_or, List.lookup_cons, beq_false_of_ne hk]

/-- What is no object and has no array of objects in the way is one leaf. -/
theorem leaves_of_unexpanded {v : JsonValue} (h : v.unexpanded = true) (hobj : v.isObj = false) :
    leaves v = .ok [([], v)] := by
  cases v with
  | obj ms => cases hobj
  | arr items =>
      rw [leaves, unexpanded_arr.1 h]
      rfl
  | _ => rfl

theorem hasSeparator_toString (i : ℕ) : hasSeparator (toString i) = false := by
  rw [hasSeparator, List.any_eq_false]
  intro c hc
  have hdigit : c.isDigit = true := Nat.isDigit_of_mem_toDigits (b := 10) (n := i) (by norm_num)
    (by norm_num) (by simpa [toString, Nat.repr] using hc)
  have hslash : c ≠ '/' := by
    rintro rfl
    exact absurd hdigit (by decide)
  have htilde : c ≠ '~' := by
    rintro rfl
    exact absurd hdigit (by decide)
  simp [hslash, htilde]

theorem leavesOfItems_eq (i : ℕ) (items : List JsonValue) :
    leavesOfItems i items = leavesOfMembers (indexMembers i items) := by
  induction items generalizing i with
  | nil => rfl
  | cons v items ih => rw [leavesOfItems, indexMembers, leavesOfMembers, ih]

/-- An array of objects has the leaves of the object that names its items by their indices. -/
theorem leaves_arr {items : List JsonValue} (hany : items.any isObj = true)
    (hall : items.all isObj = true) :
    leaves (.arr items) = leaves (.obj (indexMembers 0 items)) := by
  have hshape : ((indexMembers 0 items).isEmpty ||
      (indexMembers 0 items).any fun m => hasSeparator m.1) = false := by
    rw [Bool.or_eq_false_iff, List.any_eq_false]
    constructor
    · cases items with
      | nil => cases hany
      | cons v items => rfl
    · intro m hm
      have hname : m.1 ∈ (indexMembers 0 items).map Prod.fst := List.mem_map.mpr ⟨m, hm, rfl⟩
      rw [map_fst_indexMembers] at hname
      obtain ⟨i, -, hi⟩ := List.mem_map.mp hname
      rw [← hi, hasSeparator_toString]
      exact Bool.false_ne_true
  rw [leaves, leaves, hany, hall, hshape, leavesOfItems_eq]
  rfl

theorem all_isObj_of_flattens {items : List JsonValue} (hany : items.any isObj = true)
    (h : Flattens (.arr items)) : items.all isObj = true := by
  obtain ⟨flat, hflat⟩ := h
  rw [leaves, hany, if_pos rfl, bind_eq_ok] at hflat
  obtain ⟨_, hshape, -⟩ := hflat
  simpa using refuse_eq_ok.1 hshape

/-- The leaves stay when every array of objects is written as an object. -/
theorem leaves_indexed {v : JsonValue} (h : Flattens v) : leaves v.indexed = leaves v := by
  -- members with their values indexed flatten as before
  have hmembers : ∀ ms : List (String × JsonValue), Flattens (.obj ms) →
      (∀ m ∈ ms, leaves m.2.indexed = leaves m.2) →
      leaves (.obj (indexedMembers ms)) = leaves (.obj ms) := by
    intro ms hms h
    have hrest : leavesOfMembers (indexedMembers ms) = leavesOfMembers ms := by
      clear hms
      induction ms with
      | nil => rfl
      | cons m ms ih =>
          obtain ⟨k, v⟩ := m
          rw [List.forall_mem_cons] at h
          rw [indexedMembers, leavesOfMembers, leavesOfMembers, h.1, ih h.2]
    rw [leaves, leaves, hrest, indexedMembers_eq, List.isEmpty_map, List.any_map]
    rfl
  induction v using JsonValue.induction_on with
  | arr items ih =>
      rw [indexed]
      split
      · next hany =>
          have hall := all_isObj_of_flattens hany h
          have harr := leaves_arr hany hall
          have hobj : Flattens (.obj (indexMembers 0 items)) := by rwa [Flattens, ← harr]
          rw [indexedItems_eq, harr]
          exact hmembers _ hobj fun m hm =>
            ih m.2 (mem_of_mem_indexMembers hm) ((flattens_obj.1 hobj).2.2 m hm)
      · rfl
  | obj ms ih => exact hmembers ms h fun m hm => ih m hm ((flattens_obj.1 h).2.2 m hm)
  | _ => rfl

theorem Flattens.indexed {v : JsonValue} (h : Flattens v) : Flattens v.indexed := by
  rwa [Flattens, leaves_indexed h]

theorem leafAt_indexed {v : JsonValue} (h : Flattens v) (p : List String) :
    leafAt v.indexed p = leafAt v p := by
  rw [leafAt, leafAt, leaves_indexed h]

/-- There is a leaf. -/
theorem exists_leafAt {v : JsonValue} (h : Flattens v) (hdistinct : v.distinct = true)
    (hv : v.unexpanded = true) : ∃ p x, leafAt v p = some x := by
  induction v using JsonValue.induction_on with
  | obj ms ih =>
      obtain ⟨hne, -, hmembers⟩ := flattens_obj.1 h
      obtain ⟨m, rest, rfl⟩ := List.exists_cons_of_ne_nil hne
      rw [distinct_obj_iff] at hdistinct
      rw [unexpanded, unexpandedMembers_iff] at hv
      have hm : m ∈ m :: rest := List.mem_cons_self ..
      obtain ⟨p, x, hx⟩ := ih m hm (hmembers m hm) (hdistinct.2 m hm) (hv m hm)
      refine ⟨m.1 :: p, x, ?_⟩
      rw [leafAt_obj h hdistinct.1, List.lookup_cons_self, Option.bind_some, hx]
  | _ => exact ⟨[], _, by rw [leafAt_of_eq_ok (leaves_of_unexpanded hv rfl), List.lookup_cons_self]⟩

/-! ## Values without an array of objects -/

/-- The same leaves at the same paths. -/
def LeavesSame (v w : JsonValue) : Prop := ∀ p, Option.Rel Same (leafAt v p) (leafAt w p)

theorem leafAt_of_unexpanded {v : JsonValue} (h : v.unexpanded = true) (hobj : v.isObj = false)
    (p : List String) : leafAt v p = if p = [] then some v else none := by
  rw [leafAt_of_eq_ok (leaves_of_unexpanded h hobj)]
  by_cases hp : p = []
  · rw [if_pos hp, hp, List.lookup_cons_self]
  · rw [if_neg hp, List.lookup_cons, beq_false_of_ne hp]
    rfl

theorem isObj_of_same {v w : JsonValue} (h : Same v w) : v.isObj = w.isObj := by
  have hhead := h.head_eq
  cases v <;> cases w <;> first | rfl | cases hhead

/-- A value that `leaves` takes, as Python holds it, and without an array of objects. -/
structure PlainlyFlattens (v : JsonValue) : Prop where
  flattens : Flattens v
  unexpanded : v.unexpanded = true
  distinct : v.distinct = true

namespace PlainlyFlattens

theorem member {ms : List (String × JsonValue)} (h : PlainlyFlattens (.obj ms)) {k : String}
    {x : JsonValue} (hx : ms.lookup k = some x) : (k, x) ∈ ms ∧ PlainlyFlattens x := by
  have hm := mem_of_lookup hx
  exact ⟨hm, (flattens_obj.1 h.flattens).2.2 _ hm, unexpandedMembers_iff.1 h.unexpanded _ hm,
    (distinct_obj_iff.1 h.distinct).2 _ hm⟩

theorem leafAt_key {ms : List (String × JsonValue)} (h : PlainlyFlattens (.obj ms)) (k : String)
    (p : List String) : leafAt (.obj ms) (k :: p) = (ms.lookup k).bind fun x => leafAt x p :=
  leafAt_obj h.flattens (distinct_names h.distinct) k p

variable {v w : JsonValue}

theorem leafAt_nil (h : PlainlyFlattens v) (hobj : v.isObj = false) : leafAt v [] = some v := by
  rw [leafAt_of_unexpanded h.unexpanded hobj, if_pos rfl]

/-- A name is one of the object's when there are leaves below it. -/
theorem rel_members {ms ns : List (String × JsonValue)} (hv : PlainlyFlattens (.obj ms))
    (hw : PlainlyFlattens (.obj ns)) (h : LeavesSame (.obj ms) (.obj ns)) (k : String) :
    Option.Rel LeavesSame (ms.lookup k) (ns.lookup k) := by
  have hbelow : ∀ p, Option.Rel Same ((ms.lookup k).bind fun x => leafAt x p)
      ((ns.lookup k).bind fun x => leafAt x p) := by
    intro p
    rw [← hv.leafAt_key, ← hw.leafAt_key]
    exact h (k :: p)
  rcases hx : ms.lookup k with _ | x <;> rcases hy : ns.lookup k with _ | y
  · exact .none
  · obtain ⟨-, hpy⟩ := hw.member hy
    obtain ⟨p, z, hz⟩ := exists_leafAt hpy.flattens hpy.distinct hpy.unexpanded
    have hp := hbelow p
    rw [hx, hy, Option.bind_none, Option.bind_some, hz] at hp
    cases hp
  · obtain ⟨-, hpx⟩ := hv.member hx
    obtain ⟨p, z, hz⟩ := exists_leafAt hpx.flattens hpx.distinct hpx.unexpanded
    have hp := hbelow p
    rw [hx, hy, Option.bind_none, Option.bind_some, hz] at hp
    cases hp
  · rw [hx, hy] at hbelow
    exact .some hbelow

/-- Without arrays of objects the leaves determine the value. -/
theorem same_of_leavesSame (hv : PlainlyFlattens v) (hw : PlainlyFlattens w)
    (h : LeavesSame v w) : Same v w := by
  -- a leaf has the empty path, which an object never has
  have hleaf : ∀ {v w : JsonValue}, PlainlyFlattens v → PlainlyFlattens w → v.isObj = false →
      LeavesSame v w → Same v w := by
    intro v w hv hw hobj h
    have hnil := h []
    rw [hv.leafAt_nil hobj] at hnil
    rcases hwobj : w.isObj with _ | _
    · rw [hw.leafAt_nil hwobj] at hnil
      cases hnil with
      | some hsame => exact hsame
    · cases w with
      | obj ns =>
          rw [leafAt_obj_nil] at hnil
          cases hnil
      | _ => cases hwobj
  induction v using JsonValue.induction_on generalizing w with
  | obj ms ih =>
      rcases hwobj : w.isObj with _ | _
      · have hnil := h []
        rw [leafAt_obj_nil, hw.leafAt_nil hwobj] at hnil
        cases hnil
      · cases w with
        | obj ns =>
            refine same_obj fun k => ?_
            have hk := hv.rel_members hw h k
            rcases hx : ms.lookup k with _ | x <;> rcases hy : ns.lookup k with _ | y <;>
              rw [hx, hy] at hk <;> cases hk
            · exact .none
            · next hxy =>
                obtain ⟨hm, hpx⟩ := hv.member hx
                exact .some (ih _ hm hpx (hw.member hy).2 hxy)
        | _ => cases hwobj
  | _ => exact hleaf hv hw rfl h

/-- The order of members does not change the leaves. -/
theorem leavesSame_of_same (hv : PlainlyFlattens v) (hw : PlainlyFlattens w) (h : Same v w) :
    LeavesSame v w := by
  have hleaf : ∀ {v w : JsonValue}, PlainlyFlattens v → PlainlyFlattens w → v.isObj = false →
      Same v w → LeavesSame v w := by
    intro v w hv hw hobj h p
    rw [leafAt_of_unexpanded hv.unexpanded hobj,
      leafAt_of_unexpanded hw.unexpanded (isObj_of_same h ▸ hobj)]
    split
    · exact .some h
    · exact .none
  induction v using JsonValue.induction_on generalizing w with
  | obj ms ih =>
      obtain ⟨ns, rfl, hmembers⟩ := h.obj
      rintro (_ | ⟨k, p⟩)
      · rw [leafAt_obj_nil, leafAt_obj_nil]
        exact .none
      · rw [hv.leafAt_key, hw.leafAt_key]
        have hk := Same.rel hmembers k
        rcases hx : ms.lookup k with _ | x <;> rcases hy : ns.lookup k with _ | y <;>
          rw [hx, hy] at hk <;> cases hk
        · exact .none
        · next hxy =>
            obtain ⟨hm, hpx⟩ := hv.member hx
            exact ih _ hm hpx (hw.member hy).2 hxy p
  | _ => exact hleaf hv hw rfl h

end PlainlyFlattens

theorem plainlyFlattens_indexed {v : JsonValue} (h : Flattens v) (hdistinct : v.distinct = true) :
    PlainlyFlattens v.indexed :=
  ⟨h.indexed, unexpanded_indexed v, distinct_indexed hdistinct⟩

/-- The leaves are the same exactly when the values are, their arrays of objects written as
    objects. -/
theorem leavesSame_iff {v w : JsonValue} (hv : Flattens v) (hw : Flattens w)
    (hdv : v.distinct = true) (hdw : w.distinct = true) :
    LeavesSame v w ↔ Same v.indexed w.indexed := by
  have hindexed : LeavesSame v w ↔ LeavesSame v.indexed w.indexed :=
    forall_congr' fun p => by rw [leafAt_indexed hv, leafAt_indexed hw]
  rw [hindexed]
  exact ⟨(plainlyFlattens_indexed hv hdv).same_of_leavesSame (plainlyFlattens_indexed hw hdw),
    (plainlyFlattens_indexed hv hdv).leavesSame_of_same (plainlyFlattens_indexed hw hdw)⟩

/-! ## Values that are told apart from all others -/

theorem lookup_indexedMembers (ms : List (String × JsonValue)) (k : String) :
    (indexedMembers ms).lookup k = (ms.lookup k).map JsonValue.indexed := by
  induction ms with
  | nil => rfl
  | cons m ms ih =>
      obtain ⟨l, v⟩ := m
      rw [indexedMembers, List.lookup_cons, List.lookup_cons, ih]
      cases k == l <;> rfl

theorem mem_names_iff {α : Type} {ms : List (String × α)} {k : String} :
    k ∈ ms.map Prod.fst ↔ ∃ x, ms.lookup k = some x := by
  rw [← Option.ne_none_iff_exists', ← not_iff_not, not_not, List.lookup_eq_none_iff]
  simp only [List.mem_map, not_exists, not_and, bne_iff_ne]
  exact forall₂_congr fun m _ => ne_comm

/-- Objects that are the same have the same names. -/
theorem names_perm {ms ns : List (String × JsonValue)} (h : JsonValue.SameMembers ms ns)
    (hms : (ms.map Prod.fst).Nodup) (hns : (ns.map Prod.fst).Nodup) :
    (ms.map Prod.fst).Perm (ns.map Prod.fst) := by
  refine (List.perm_ext_iff_of_nodup hms hns).mpr fun k => ?_
  rw [mem_names_iff, mem_names_iff]
  have hk := Same.rel h k
  generalize ms.lookup k = x, ns.lookup k = y at hk
  rcases hk with _ | _
  · exact ⟨fun _ => ⟨_, rfl⟩, fun _ => ⟨_, rfl⟩⟩
  · rfl

theorem isObj_indexed {v : JsonValue} (h : v.isObj = true) : v.indexed.isObj = true := by
  cases v with
  | obj ms => rfl
  | _ => cases h

/-- What an array of objects is written as could stand for an array. -/
theorem namesIndices_of_same {ms : List (String × JsonValue)} {items : List JsonValue}
    (hall : items.all isObj = true) (hms : (ms.map Prod.fst).Nodup)
    (h : JsonValue.SameMembers ms (indexedMembers (indexMembers 0 items))) : namesIndices ms = true := by
  have hnames : (indexedMembers (indexMembers 0 items)).map Prod.fst =
      (List.range items.length).map toString := by
    rw [indexedMembers_eq, List.map_map, List.range_eq_range', ← map_fst_indexMembers 0 items]
    rfl
  -- the names are the indices, in some order
  have hperm := names_perm h hms (by
    rw [hnames]
    exact List.nodup_range.map fun _ _ => toString_injective)
  rw [hnames] at hperm
  have hlength : ms.length = items.length := by
    have := hperm.length_eq
    rwa [List.length_map, List.length_map, List.length_range] at this
  rw [namesIndices, Bool.and_eq_true, List.all_eq_true, List.isPerm_iff, hlength]
  refine ⟨fun m hm => ?_, hperm⟩
  have hk := Same.rel h m.1
  rw [lookup_of_mem hms hm, lookup_indexedMembers] at hk
  rcases hy : (indexMembers 0 items).lookup m.1 with _ | y <;> rw [hy] at hk
  · cases hk
  · cases hk with
    | some hxy =>
        have hmem : (m.1, y) ∈ indexMembers 0 items := mem_of_lookup hy
        rw [isObj_of_same hxy]
        exact isObj_indexed (List.all_eq_true.mp hall y (mem_of_mem_indexMembers hmem))

/-- What an unambiguous value is the same as, written with objects, has no array of objects. -/
theorem unexpanded_of_same {v w : JsonValue} (hv : v.unambiguous = true) (hw : Flattens w)
    (hdv : v.distinct = true) (hdw : w.distinct = true) (h : Same v w.indexed) :
    w.unexpanded = true := by
  induction w using JsonValue.induction_on generalizing v with
  | arr items =>
      -- an expanded array would name its items by their indices, which `v` may not
      rw [unexpanded, Bool.not_eq_true']
      by_contra hne
      have hany : items.any isObj = true := Bool.of_not_eq_false hne
      rw [indexed, hany, if_pos rfl, indexedItems_eq] at h
      obtain ⟨ms, rfl, hmembers⟩ := h.symm.obj
      rw [unambiguous, Bool.and_eq_true, Bool.not_eq_true'] at hv
      rw [namesIndices_of_same (all_isObj_of_flattens hany hw) (distinct_names hdv)
        (Same.symm hmembers)] at hv
      cases hv.1
  | obj ns ih =>
      rw [indexed] at h
      obtain ⟨ms, rfl, hmembers⟩ := h.symm.obj
      rw [unambiguous, Bool.and_eq_true, unambiguousMembers_iff] at hv
      rw [unexpanded, unexpandedMembers_iff]
      intro m hm
      have hk := Same.rel (Same.symm hmembers) m.1
      rw [lookup_indexedMembers, lookup_of_mem (distinct_names hdw) hm] at hk
      rcases hx : ms.lookup m.1 with _ | x <;> rw [hx] at hk
      · cases hk
      · cases hk with
        | some hxy =>
            have hmem : (m.1, x) ∈ ms := mem_of_lookup hx
            exact ih m hm (hv.2 _ hmem) ((flattens_obj.1 hw).2.2 m hm)
              ((distinct_obj_iff.1 hdv).2 _ hmem) ((distinct_obj_iff.1 hdw).2 m hm) hxy
  | _ => rfl

/-- An unambiguous value is told apart from every other. -/
theorem same_of_unambiguous {v w : JsonValue} (hunambiguous : v.unambiguous = true)
    (hv : Flattens v) (hw : Flattens w) (hdv : v.distinct = true) (hdw : w.distinct = true)
    (h : LeavesSame v w) : Same v w := by
  have hsame := (leavesSame_iff hv hw hdv hdw).mp h
  rw [indexed_of_unexpanded (unexpanded_of_unambiguous hunambiguous)] at hsame
  have hplain := unexpanded_of_same hunambiguous hw hdv hdw hsame
  rwa [indexed_of_unexpanded hplain] at hsame

/-! ## Values that are not -/

theorem rel_self (x : Option JsonValue) : Option.Rel Same x x := by
  cases x with
  | none => exact .none
  | some v => exact .some (Same.refl v)

theorem LeavesSame.of_eq {v w : JsonValue} (h : ∀ p, leafAt v p = leafAt w p) : LeavesSame v w :=
  fun p => h p ▸ rel_self _

/-- The items that an object names by their indices. -/
def namedItems (ms : List (String × JsonValue)) : List JsonValue :=
  (List.range ms.length).map fun i => (ms.lookup (toString i)).getD .null

theorem lookup_indexMembers {g : ℕ → JsonValue} (n k : ℕ) (name : String) :
    (indexMembers k ((List.range' k n).map g)).lookup name =
      ((List.range' k n).find? fun i => toString i == name).map g := by
  induction n generalizing k with
  | zero => rfl
  | succ n ih =>
      rw [List.range'_succ, List.map_cons, indexMembers, List.lookup_cons, List.find?_cons, ih,
        BEq.comm]
      cases toString k == name <;> rfl

section NamedItems

variable {ms : List (String × JsonValue)} (h : namesIndices ms = true)
  (hnodup : (ms.map Prod.fst).Nodup)

include h

theorem namesIndices_spec :
    (∀ m ∈ ms, m.2.isObj = true) ∧
      ∀ k, k ∈ ms.map Prod.fst ↔ ∃ i < ms.length, toString i = k := by
  rw [namesIndices, Bool.and_eq_true, List.all_eq_true, List.isPerm_iff] at h
  refine ⟨h.1, fun k => ?_⟩
  rw [h.2.mem_iff]
  simp only [List.mem_map, List.mem_range]

/-- The array has under each index what the object has under its name. -/
theorem lookup_namedItems (k : String) :
    (indexMembers 0 (namedItems ms)).lookup k = ms.lookup k := by
  rw [namedItems, List.range_eq_range', lookup_indexMembers]
  rcases hfind : (List.range' 0 ms.length).find? fun i => toString i == k with _ | i
  · rcases hx : ms.lookup k with _ | x
    · rfl
    · obtain ⟨i, hi, hname⟩ := ((namesIndices_spec h).2 k).mp (mem_names_iff.2 ⟨x, hx⟩)
      have hmiss := List.find?_eq_none.mp hfind i (List.mem_range'_1.mpr ⟨Nat.zero_le i, by omega⟩)
      exact absurd (beq_iff_eq.mpr hname) hmiss
  · have hname : toString i = k := by simpa using List.find?_some hfind
    have hi := List.mem_range'_1.mp (List.mem_of_find?_eq_some hfind)
    obtain ⟨x, hx⟩ := mem_names_iff.1 (((namesIndices_spec h).2 k).mpr ⟨i, by omega, hname⟩)
    rw [Option.map_some, hname, hx]
    rfl

/-- The members of the array as an object are those of the object. -/
theorem mem_indexMembers_namedItems {m : String × JsonValue}
    (hm : m ∈ indexMembers 0 (namedItems ms)) : m ∈ ms := by
  have hlookup := lookup_of_mem (nodup_indexMembers 0 _) hm
  rw [lookup_namedItems h] at hlookup
  exact mem_of_lookup hlookup

include hnodup

/-- The object could have been an array: one with the same leaves. -/
theorem exists_array (hflattens : Flattens (.obj ms)) (hdistinct : (obj ms).distinct = true) :
    ∃ w, Flattens w ∧ w.distinct = true ∧ LeavesSame (.obj ms) w ∧ ¬ Same (.obj ms) w := by
  -- the array has the members of the object as items
  have hitem : ∀ x ∈ namedItems ms, ∃ k, (k, x) ∈ ms := by
    intro x hx
    rw [← map_snd_indexMembers 0 (namedItems ms)] at hx
    obtain ⟨m, hm, rfl⟩ := List.mem_map.mp hx
    exact ⟨m.1, mem_indexMembers_namedItems h hm⟩
  have hall : (namedItems ms).all isObj = true := by
    rw [List.all_eq_true]
    intro x hx
    obtain ⟨k, hk⟩ := hitem x hx
    exact (namesIndices_spec h).1 _ hk
  have hne : namedItems ms ≠ [] := by
    rw [namedItems, ne_eq, List.map_eq_nil_iff, List.range_eq_nil]
    exact fun hlength => (flattens_obj.1 hflattens).1 (List.length_eq_zero_iff.mp hlength)
  have hany : (namedItems ms).any isObj = true := by
    obtain ⟨x, rest, heq⟩ := List.exists_cons_of_ne_nil hne
    rw [heq, List.all_cons, Bool.and_eq_true] at hall
    rw [heq, List.any_cons, hall.1, Bool.true_or]
  have harr := leaves_arr hany hall
  have hobj : Flattens (.obj (indexMembers 0 (namedItems ms))) := by
    refine flattens_obj.2 ⟨?_, fun m hm => ?_, fun m hm => ?_⟩
    · intro hnil
      rw [← map_snd_indexMembers 0 (namedItems ms), hnil] at hne
      exact hne rfl
    · exact (flattens_obj.1 hflattens).2.1 m (mem_indexMembers_namedItems h hm)
    · exact (flattens_obj.1 hflattens).2.2 m (mem_indexMembers_namedItems h hm)
  refine ⟨.arr (namedItems ms), ?_, ?_, .of_eq ?_, ?_⟩
  · rwa [Flattens, harr]
  · refine distinctItems_iff.2 fun x hx => ?_
    obtain ⟨k, hk⟩ := hitem x hx
    exact (distinct_obj_iff.1 hdistinct).2 _ hk
  · intro p
    -- both flatten through the same indexed members
    have hleaf : leafAt (.arr (namedItems ms)) p = leafAt (.obj (indexMembers 0 (namedItems ms))) p := by
      rw [leafAt, leafAt, harr]
    rw [hleaf]
    rcases p with _ | ⟨k, p⟩
    · rw [leafAt_obj_nil, leafAt_obj_nil]
    · rw [leafAt_obj hflattens hnodup, leafAt_obj hobj (nodup_indexMembers 0 _), lookup_namedItems h]
  · intro hsame
    cases hsame.head_eq

end NamedItems

/-- A value that could stand for another has the leaves of another. -/
theorem exists_of_ambiguous {v : JsonValue} (hambiguous : v.unambiguous = false) (hv : Flattens v)
    (hdistinct : v.distinct = true) :
    ∃ w, Flattens w ∧ w.distinct = true ∧ LeavesSame v w ∧ ¬ Same v w := by
  induction v using JsonValue.induction_on with
  | arr items =>
      rw [unambiguous, Bool.not_eq_false'] at hambiguous
      refine ⟨_, hv.indexed, distinct_indexed hdistinct, .of_eq fun p => (leafAt_indexed hv p).symm,
        fun hsame => ?_⟩
      rw [indexed, hambiguous] at hsame
      cases hsame.head_eq
  | obj ms ih =>
      have hnames := distinct_names hdistinct
      rcases hindices : namesIndices ms with _ | _
      · -- the member that is ambiguous is replaced by another with the same leaves
        rw [unambiguous, hindices, Bool.not_false, Bool.true_and, Bool.eq_false_iff, ne_eq,
          unambiguousMembers_iff] at hambiguous
        push Not at hambiguous
        obtain ⟨⟨k, x⟩, hm, hx⟩ := hambiguous
        obtain ⟨y, hy, hdy, hleaves, hdiffer⟩ := ih _ hm (Bool.eq_false_iff.mpr hx)
          ((flattens_obj.1 hv).2.2 _ hm) ((distinct_obj_iff.1 hdistinct).2 _ hm)
        have hlookup := lookup_of_mem hnames hm
        have hset : ∀ m ∈ Dict.set k y ms, m = (k, y) ∨ m ∈ ms := fun m hm =>
          List.mem_cons.mp (Dict.set_subset k y ms hm)
        have hobj : Flattens (.obj (Dict.set k y ms)) := by
          refine flattens_obj.2 ⟨?_, fun m hm' => ?_, fun m hm' => ?_⟩
          · intro hnil
            have hself : (Dict.set k y ms).lookup k = some y := by rw [lookup_set, if_pos rfl]
            rw [hnil] at hself
            cases hself
          · rcases hset m hm' with rfl | hm'
            · exact (flattens_obj.1 hv).2.1 (k, x) hm
            · exact (flattens_obj.1 hv).2.1 m hm'
          · rcases hset m hm' with rfl | hm'
            · exact hy
            · exact (flattens_obj.1 hv).2.2 m hm'
        refine ⟨.obj (Dict.set k y ms), hobj, ?_, ?_, ?_⟩
        · refine distinct_obj_iff.2 ⟨Dict.nodup_set k y hnames, fun m hm' => ?_⟩
          rcases hset m hm' with rfl | hm'
          · exact hdy
          · exact (distinct_obj_iff.1 hdistinct).2 m hm'
        · rintro (_ | ⟨l, p⟩)
          · rw [leafAt_obj_nil, leafAt_obj_nil]
            exact .none
          · rw [leafAt_obj hv hnames, leafAt_obj hobj (Dict.nodup_set k y hnames), lookup_set]
            by_cases hl : l = k
            · rw [if_pos hl, hl, hlookup]
              exact hleaves p
            · rw [if_neg hl]
              exact rel_self _
        · intro hsame
          have hk := Same.rel hsame k
          rw [hlookup, lookup_set, if_pos rfl] at hk
          cases hk with
          | some hxy => exact hdiffer hxy
      · exact exists_array hindices hnames hv hdistinct
  | _ => cases hambiguous

/-! ## Paths as texts -/

/-- The keys of a path are free of separators. -/
def SeparatorFree (p : List String) : Prop := ∀ k ∈ p, hasSeparator k = false

theorem separatorFree_cons {k : String} {p : List String} :
    SeparatorFree (k :: p) ↔ hasSeparator k = false ∧ SeparatorFree p := List.forall_mem_cons

theorem slash_notMem {k : String} (h : hasSeparator k = false) : '/' ∉ k.toList := by
  rw [hasSeparator, List.any_eq_false] at h
  exact fun hmem => h '/' hmem rfl

/-- Two texts that go on with a slash, and have none before, are split alike. -/
theorem split_at_slash {a b : List Char} {p q : List String} (ha : '/' ∉ a) (hb : '/' ∉ b)
    (h : a ++ pathText p = b ++ pathText q) : a = b ∧ pathText p = pathText q := by
  have hhead : ∀ {c : Char} {p : List String} {cs : List Char}, c ≠ '/' → pathText p ≠ c :: cs := by
    rintro c (_ | ⟨k, p⟩) cs hc heq
    · cases heq
    · rw [pathText, List.flatMap_cons, List.cons_append, List.cons.injEq] at heq
      exact hc heq.1.symm
  induction a generalizing b with
  | nil =>
      cases b with
      | nil => exact ⟨rfl, h⟩
      | cons d b => exact absurd h (hhead fun hd => hb (hd ▸ List.mem_cons_self ..))
  | cons c a ih =>
      cases b with
      | nil => exact absurd h.symm (hhead fun hc => ha (hc ▸ List.mem_cons_self ..))
      | cons d b =>
          rw [List.cons_append, List.cons_append, List.cons.injEq] at h
          obtain ⟨rfl, h⟩ := h
          obtain ⟨rfl, hpq⟩ := ih (fun hmem => ha (List.mem_cons_of_mem _ hmem))
            (fun hmem => hb (List.mem_cons_of_mem _ hmem)) h
          exact ⟨rfl, hpq⟩

theorem pathText_injective {p q : List String} (hp : SeparatorFree p) (hq : SeparatorFree q)
    (h : pathText p = pathText q) : p = q := by
  induction p generalizing q with
  | nil =>
      cases q with
      | nil => rfl
      | cons l q => cases h
  | cons k p ih =>
      cases q with
      | nil => cases h
      | cons l q =>
          rw [separatorFree_cons] at hp hq
          simp only [pathText, List.flatMap_cons, List.cons_append, List.cons.injEq, true_and] at h
          obtain ⟨hkl, hpq⟩ := split_at_slash (slash_notMem hp.1) (slash_notMem hq.1) h
          rw [String.toList_inj.mp hkl, ih hp.2 hq.2 hpq]

/-- What holds of every leaf on its own, and stays under one more key, holds of the leaves of a
    value. -/
theorem forall_mem_leaves {P : List String × JsonValue → Prop}
    (hleaf : ∀ v : JsonValue, v.isObj = false → v.unexpanded = true → P ([], v))
    (hkey : ∀ k e, hasSeparator k = false → P e → P (k :: e.1, e.2)) {v : JsonValue} {flat : Flat}
    (h : leaves v = .ok flat) : ∀ e ∈ flat, P e := by
  -- an array of objects flattens as an object does, so the members come first
  have hobj : ∀ (ms : List (String × JsonValue)) (flat : Flat),
      (∀ m ∈ ms, ∀ part, leaves m.2 = .ok part → ∀ e ∈ part, P e) →
      leaves (.obj ms) = .ok flat → ∀ e ∈ flat, P e := by
    intro ms flat hparts h
    have hnames := (flattens_obj.1 ⟨flat, h⟩).2.1
    rw [leaves, bind_eq_ok] at h
    obtain ⟨_, -, h⟩ := h
    induction ms generalizing flat with
    | nil =>
        cases h
        exact List.forall_mem_nil _
    | cons m ms ih =>
        obtain ⟨k, v⟩ := m
        rw [List.forall_mem_cons] at hnames hparts
        simp only [leavesOfMembers, bind_eq_ok] at h
        obtain ⟨part, hpart, rest, hrest, heq⟩ := h
        cases heq
        intro e he
        rcases List.mem_append.mp he with he | he
        · obtain ⟨e, he', rfl⟩ := List.mem_map.mp he
          exact hkey k e hnames.1 (hparts.1 part hpart e he')
        · exact ih rest hparts.2 hnames.2 hrest e he
  have hscalar : ∀ {v : JsonValue} {flat : Flat}, v.isObj = false → v.unexpanded = true →
      leaves v = .ok flat → ∀ e ∈ flat, P e := by
    intro v flat hv hunexpanded h
    rw [leaves_of_unexpanded hunexpanded hv] at h
    cases h
    exact List.forall_mem_singleton.mpr (hleaf v hv hunexpanded)
  induction v using JsonValue.induction_on generalizing flat with
  | arr items ih =>
      rcases hany : items.any isObj with _ | _
      · exact hscalar rfl (by rw [unexpanded, hany]; rfl) h
      · rw [leaves_arr hany (all_isObj_of_flattens hany ⟨flat, h⟩)] at h
        exact hobj _ flat (fun m hm part => ih m.2 (mem_of_mem_indexMembers hm)) h
  | obj ms ih => exact hobj ms flat (fun m hm part => ih m hm) h
  | _ => exact hscalar rfl rfl h

/-- The paths of the leaves. -/
theorem separatorFree_of_mem {v : JsonValue} {flat : Flat} (h : leaves v = .ok flat) :
    ∀ e ∈ flat, SeparatorFree e.1 :=
  forall_mem_leaves (fun _ _ _ => List.forall_mem_nil _)
    (fun _ _ hk he => separatorFree_cons.2 ⟨hk, he⟩) h

theorem lookup_pathText {flat : Flat} (hflat : ∀ e ∈ flat, SeparatorFree e.1) {p : List String}
    (hp : SeparatorFree p) :
    (flat.map fun e => (pathText e.1, e.2)).lookup (pathText p) = flat.lookup p := by
  induction flat with
  | nil => rfl
  | cons e flat ih =>
      obtain ⟨q, x⟩ := e
      rw [List.forall_mem_cons] at hflat
      rw [List.map_cons, List.lookup_cons, List.lookup_cons, ih hflat.2]
      by_cases hpq : p = q
      · rw [hpq, beq_self_eq_true, beq_self_eq_true]
      · rw [beq_false_of_ne hpq,
          beq_false_of_ne fun heq => hpq (pathText_injective hp hflat.1 heq)]

theorem lookup_eq_none_of_notMem {α κ : Type} [BEq κ] [LawfulBEq κ] {l : List (κ × α)} {k : κ}
    (h : ∀ e ∈ l, e.1 ≠ k) : l.lookup k = none :=
  List.lookup_eq_none_iff.mpr fun e he => bne_iff_ne.mpr (h e he).symm

/-- No two paths of leaves have one text. -/
theorem sameLeaves_iff {v w : JsonValue} {f g : List (List Char × JsonValue)}
    (hf : leafMap v = .ok f) (hg : leafMap w = .ok g) : SameLeaves f g ↔ LeavesSame v w := by
  obtain ⟨flat, hflat, rfl⟩ := map_eq_ok.1 hf
  obtain ⟨flat', hflat', rfl⟩ := map_eq_ok.1 hg
  have hfree := separatorFree_of_mem hflat
  have hfree' := separatorFree_of_mem hflat'
  constructor
  · intro h p
    rw [leafAt_of_eq_ok hflat, leafAt_of_eq_ok hflat']
    -- a path with a separator in a name is the path of no leaf
    by_cases hp : SeparatorFree p
    · rw [← lookup_pathText hfree hp, ← lookup_pathText hfree' hp]
      exact h (pathText p)
    · have hnone : ∀ {flat : Flat}, (∀ e ∈ flat, SeparatorFree e.1) → flat.lookup p = none :=
        fun hfree => lookup_eq_none_of_notMem fun e he heq => hp (heq ▸ hfree e he)
      rw [hnone hfree, hnone hfree']
      exact .none
  · intro h text
    -- a text that spells no path is no key of either map
    by_cases htext : ∃ p, SeparatorFree p ∧ pathText p = text
    · obtain ⟨p, hp, rfl⟩ := htext
      rw [lookup_pathText hfree hp, lookup_pathText hfree' hp, ← leafAt_of_eq_ok hflat,
        ← leafAt_of_eq_ok hflat']
      exact h p
    · have hnone : ∀ {flat : Flat}, (∀ e ∈ flat, SeparatorFree e.1) →
          (flat.map fun e => (pathText e.1, e.2)).lookup text = none := by
        intro flat hfree
        refine lookup_eq_none_of_notMem fun e he heq => htext ?_
        obtain ⟨e, he', rfl⟩ := List.mem_map.mp he
        exact ⟨e.1, hfree e he', heq⟩
      rw [hnone hfree, hnone hfree']
      exact .none

/-! ## The result -/

/-- **`leaves` tells a value apart from all others exactly when arrays and indices do not mix in
    it.** A value has the leaves of no other value when `leaves` meets no array of objects in it and
    no object that names objects by the indices of an array. In general two values have the same
    leaves when they are the same once their arrays of objects are written as objects. -/
theorem leaves_lossless_iff {v : PyJson} {f : List (List Char × JsonValue)}
    (hf : leafMap v.value = .ok f) :
    ((∀ (w : PyJson) (g : List (List Char × JsonValue)), leafMap w.value = .ok g →
      SameLeaves f g → Same v.value w.value) ↔ v.value.unambiguous = true) ∧
    ∀ (w : PyJson) (g : List (List Char × JsonValue)), leafMap w.value = .ok g →
      (SameLeaves f g ↔ Same v.value.indexed w.value.indexed) := by
  have hflattens : ∀ {w : JsonValue} {g : List (List Char × JsonValue)}, leafMap w = .ok g →
      Flattens w := by
    intro w g hg
    obtain ⟨flat, hflat, -⟩ := map_eq_ok.1 hg
    exact ⟨flat, hflat⟩
  have hv := hflattens hf
  refine ⟨⟨fun h => ?_, fun h w g hg hsame => ?_⟩, fun w g hg => ?_⟩
  · by_contra hambiguous
    obtain ⟨w, ⟨flat, hflat⟩, hdistinct, hleaves, hdiffer⟩ :=
      exists_of_ambiguous (Bool.eq_false_iff.mpr hambiguous) hv v.distinct
    have hg : leafMap w = .ok _ := map_eq_ok.2 ⟨flat, hflat, rfl⟩
    exact hdiffer (h ⟨w, hdistinct⟩ _ hg ((sameLeaves_iff hf hg).mpr hleaves))
  · exact same_of_unambiguous h hv (hflattens hg) v.distinct w.distinct
      ((sameLeaves_iff hf hg).mp hsame)
  · rw [sameLeaves_iff hf hg]
    exact leavesSame_iff hv (hflattens hg) v.distinct w.distinct

/-- `{"civil": {"fold": null, "limits": [1, "x"]}, "bodies": {"0": [], "1": 2}}`. -/
def nestedLeaves : PyJson :=
  ⟨.obj [("civil", .obj [("fold", .null), ("limits", .arr [.int 1, .str "x"])]),
    ("bodies", .obj [("0", .arr []), ("1", .int 2)])], rfl⟩

/-- Objects in objects, arrays at the leaves and names that are indices, none of them of an object:
    no other value has these leaves. -/
theorem leaves_lossless_iff_nestedLeaves :
    let f := [("/civil/fold".toList, JsonValue.null),
      ("/civil/limits".toList, .arr [.int 1, .str "x"]), ("/bodies/0".toList, .arr []),
      ("/bodies/1".toList, .int 2)]
    leafMap nestedLeaves.value = .ok f ∧ nestedLeaves.value.unambiguous = true ∧
      ∀ (w : PyJson) (g : List (List Char × JsonValue)), leafMap w.value = .ok g →
        SameLeaves f g → Same nestedLeaves.value w.value :=
  ⟨rfl, rfl, (leaves_lossless_iff (v := nestedLeaves) rfl).1.mpr rfl⟩

/-- `{"a": 1}`. -/
def oneLeaf : PyJson := ⟨.obj [("a", .int 1)], rfl⟩

/-- `[{"a": 1}]`. -/
def leafInArray : PyJson := ⟨.arr [oneLeaf.value], rfl⟩

/-- `{"0": {"a": 1}}`. -/
def leafInObject : PyJson := ⟨.obj [("0", oneLeaf.value)], rfl⟩

/-- An array and an object have the same leaves. -/
theorem leaves_array_as_object :
    ∃ f g, leafMap leafInArray.value = .ok f ∧ leafMap leafInObject.value = .ok g ∧
      SameLeaves f g ∧ ¬ Same leafInArray.value leafInObject.value :=
  ⟨_, _, rfl, rfl, fun _ => rel_self _, fun h => by cases h.head_eq⟩

end AstroPassport
