import AstroPassport.Conformance.Lossless

set_option autoImplicit false

/-! # What `equal` identifies

`equal` goes through lists item by item and holds scalars to their type and their bits, but it
leaves an object to `==`, which compares numbers of any type by value and items by identity first. A
leaf has objects inside when they stand in lists of lists. On such a leaf `equal` is symmetric and
transitive as everywhere; it is identity exactly when no number inside an object has a twin of
another type.

A twin of a number is the number of another type that `==` takes for it: `1`, `True` and `1.0` are
each other's. `same_of_equal` says that values which `equal` identifies are the same when scalars
inside objects have no twin and the floats outside are finite; in the other direction a value with a
twin inside an object can be respelt by it, and `equal` does not see the difference
(`aloneInside_of_same_respelt`). Both comparisons have one lemma for each constructor, and the laws
are inductions over values with these. `equal_identity_iff` is the result for leaves. -/

namespace AstroPassport

/-! ## Floats by their values -/

/-- A binary64 is its own rounding. -/
theorem Finite64.roundRat_value (x : Finite64) : roundRat x.value = x.value := by
  unfold roundRat
  rw [x.abs_value, x.roundMagnitude_abs, ← x.abs_value]
  split
  · next h => rw [abs_of_neg h, neg_neg]
  · next h => rw [abs_of_nonneg (not_lt.mp h)]

/-- Two floats of one value are one, but for the zeros. -/
theorem Finite64.eq_of_value_eq {x y : Finite64} (h : x.value = y.value) (hne : y.value ≠ 0) :
    x = y := by
  have habs : x.abs = y.abs := by rw [← x.abs_value, ← y.abs_value, h]
  refine Finite64.eq_of_abs_eq ?_ habs
  have hpos : 0 < y.abs := by
    rw [← y.abs_value]
    exact abs_pos.mpr hne
  rcases hx : x.neg with _ | _ <;> rcases hy : y.neg with _ | _
  · rfl
  · rw [Finite64.value_of_pos hx, Finite64.value_of_neg hy] at h
    linarith
  · rw [Finite64.value_of_neg hx, Finite64.value_of_pos hy] at h
    linarith
  · rfl

namespace JsonValue

/-! ## Scalars inside a value -/

section Scalars

variable (p : JsonValue → Bool)

mutual

/-- Every scalar inside a value has a property. -/
def everyScalar : JsonValue → Bool
  | .arr items => everyScalarItems items
  | .obj ms => everyScalarMembers ms
  | v => p v

/-- Every scalar below the items. -/
def everyScalarItems : List JsonValue → Bool
  | [] => true
  | v :: items => everyScalar v && everyScalarItems items

/-- Every scalar below the values of the members. -/
def everyScalarMembers : List (String × JsonValue) → Bool
  | [] => true
  | (_, v) :: ms => everyScalar v && everyScalarMembers ms

end

variable {p}

theorem everyScalar_arr {items : List JsonValue} :
    everyScalar p (.arr items) = true ↔ ∀ v ∈ items, everyScalar p v = true :=
  forall_mem_of_cons (f := everyScalarItems p) rfl fun _ _ => rfl

theorem everyScalar_obj {ms : List (String × JsonValue)} :
    everyScalar p (.obj ms) = true ↔ ∀ m ∈ ms, everyScalar p m.2 = true :=
  forall_mem_of_cons (f := everyScalarMembers p) rfl fun _ _ => rfl

theorem everyScalar_scalar {v : JsonValue} (h : v.isScalar = true) : everyScalar p v = p v := by
  cases v <;> first | rfl | cases h

end Scalars

section Map

variable (t : JsonValue → JsonValue)

mutual

/-- A value with its scalars replaced. -/
def mapScalars : JsonValue → JsonValue
  | .arr items => .arr (mapItems items)
  | .obj ms => .obj (mapMembers ms)
  | v => t v

/-- The items with their scalars replaced. -/
def mapItems : List JsonValue → List JsonValue
  | [] => []
  | v :: items => mapScalars v :: mapItems items

/-- The members with the scalars of their values replaced. -/
def mapMembers : List (String × JsonValue) → List (String × JsonValue)
  | [] => []
  | (k, v) :: ms => (k, mapScalars v) :: mapMembers ms

end

theorem mapScalars_arr (items : List JsonValue) :
    mapScalars t (.arr items) = .arr (items.map (mapScalars t)) :=
  congrArg arr (eq_map_of_cons (f := mapItems t) rfl (fun _ _ => rfl) items)

theorem mapScalars_obj (ms : List (String × JsonValue)) :
    mapScalars t (.obj ms) = .obj (ms.map fun m => (m.1, mapScalars t m.2)) :=
  congrArg obj (eq_map_of_cons (f := mapMembers t) rfl (fun _ _ => rfl) ms)

theorem mapScalars_id (v : JsonValue) : mapScalars id v = v := by
  induction v using JsonValue.induction_on with
  | arr items ih =>
      rw [mapScalars_arr, List.map_congr_left ih, List.map_id']
  | obj ms ih =>
      rw [mapScalars_obj]
      refine congrArg obj ((List.map_congr_left fun m hm => ?_).trans (List.map_id' _))
      rw [ih m hm]
  | _ => rfl

end Map

/-! ## Numbers of equal value -/

/-- The number of another type that a number is compared equal to; other values are their own. -/
def twin : JsonValue → JsonValue
  | .bool b => .int (if b then 1 else 0)
  | .int n =>
    match Binary64.ofRat n with
    | .finite x => if x.value = n then .float (.finite x) else .int n
    | _ => .int n
  | .float (.finite x) => if x.value.den = 1 then .int x.value.num else .float (.finite x)
  | v => v

/-- There is no such number. -/
def hasNoTwin : JsonValue → Bool
  | .bool _ => false
  | .int n =>
    match Binary64.ofRat n with
    | .finite x => x.value != n
    | _ => true
  | .float (.finite x) => x.value.den != 1
  | _ => true

/-- Nothing else, and no NaN beside it, is compared equal to a scalar. -/
def isAlone (v : JsonValue) : Bool := !v.isNan && v.hasNoTwin

/-- A scalar that is no infinity and no NaN. -/
def isFinite : JsonValue → Bool
  | .float (.finite _) => true
  | .float _ => false
  | _ => true

mutual

/-- The floats outside of objects are finite. -/
def finiteOutside : JsonValue → Bool
  | .arr items => finiteOutsideItems items
  | .obj _ => true
  | v => v.isFinite

/-- The floats of the items outside of objects are finite. -/
def finiteOutsideItems : List JsonValue → Bool
  | [] => true
  | v :: items => finiteOutside v && finiteOutsideItems items

end

mutual

/-- The scalars inside objects are alone. -/
def aloneInside : JsonValue → Bool
  | .arr items => aloneInsideItems items
  | .obj ms => everyScalar isAlone (.obj ms)
  | _ => true

/-- The scalars of the items inside objects are alone. -/
def aloneInsideItems : List JsonValue → Bool
  | [] => true
  | v :: items => aloneInside v && aloneInsideItems items

end

/-- `equal` finds no other value equal: it finds none at all, or the objects hold nothing that `==`
    takes for something else. -/
def isRigid (v : JsonValue) : Bool := !v.finiteOutside || v.aloneInside

theorem finiteOutside_arr {items : List JsonValue} :
    (arr items).finiteOutside = true ↔ ∀ v ∈ items, v.finiteOutside = true :=
  forall_mem_of_cons (f := finiteOutsideItems) rfl fun _ _ => rfl

theorem aloneInside_arr {items : List JsonValue} :
    (arr items).aloneInside = true ↔ ∀ v ∈ items, v.aloneInside = true :=
  forall_mem_of_cons (f := aloneInsideItems) rfl fun _ _ => rfl

theorem isAlone_iff {v : JsonValue} : v.isAlone = true ↔ v.isNan = false ∧ v.hasNoTwin = true := by
  show (!v.isNan && v.hasNoTwin) = true ↔ _
  rw [Bool.and_eq_true, Bool.not_eq_true']

/-- Arrays of the same items are the same. -/
theorem same_arr {xs ys : List JsonValue} (h : List.Forall₂ Same xs ys) :
    Same (.arr xs) (.arr ys) := by
  rintro (_ | ⟨k | i, p⟩)
  · rfl
  · rfl
  · rw [get_index, get_index]
    rcases Nat.lt_or_ge i xs.length with hi | hi
    · have hi' : i < ys.length := h.length_eq ▸ hi
      rw [List.getElem?_eq_getElem hi, List.getElem?_eq_getElem hi']
      exact h.get hi hi' p
    · rw [List.getElem?_eq_none hi, List.getElem?_eq_none (h.length_eq ▸ hi)]

/-! ## `==`, one constructor at a time -/

section Loosely

variable (oneNan : Bool)

/-- How a container compares what it holds. -/
def alike (v w : JsonValue) : Bool := oneNan && v.isNan && w.isNan || looselyEqual oneNan v w

variable {oneNan}

theorem looselyEqual_arr {xs : List JsonValue} {w : JsonValue} :
    looselyEqual oneNan (.arr xs) w = true ↔
      ∃ ys, w = .arr ys ∧ List.Forall₂ (fun x y => alike oneNan x y = true) xs ys := by
  cases w with
  | arr ys =>
      change looselyEqualItems oneNan xs ys = true ↔ _
      simp only [arr.injEq, exists_eq_left']
      induction xs generalizing ys with
      | nil => cases ys <;> simp [looselyEqualItems]
      | cons x xs ih =>
          cases ys with
          | nil => simp [looselyEqualItems]
          | cons y ys =>
              rw [looselyEqualItems, Bool.and_eq_true, ih, List.forall₂_cons]
              rfl
  | _ => exact ⟨fun h => absurd h Bool.false_ne_true, nofun⟩

theorem looselyEqual_obj {ms : List (String × JsonValue)} {w : JsonValue} :
    looselyEqual oneNan (.obj ms) w = true ↔
      ∃ ns, w = .obj ns ∧ ms.length = ns.length ∧
        ∀ m ∈ ms, ∃ y, ns.lookup m.1 = some y ∧ alike oneNan m.2 y = true := by
  cases w with
  | obj ns =>
      have hmembers : looselyEqualMembers oneNan ms ns = true ↔
          ∀ m ∈ ms, ∃ y, ns.lookup m.1 = some y ∧ alike oneNan m.2 y = true := by
        induction ms with
        | nil => simp [looselyEqualMembers]
        | cons m ms ih =>
            obtain ⟨k, v⟩ := m
            rw [looselyEqualMembers, Bool.and_eq_true, ih, List.forall_mem_cons]
            refine and_congr_left fun _ => ?_
            rcases ns.lookup k with _ | y
            · simp
            · simp [alike]
      change (ms.length == ns.length && looselyEqualMembers oneNan ms ns) = true ↔ _
      simp only [Bool.and_eq_true, beq_iff_eq, hmembers, obj.injEq, exists_eq_left']
  | _ => exact ⟨fun h => absurd h Bool.false_ne_true, nofun⟩

/-- A scalar is compared equal to scalars only. -/
theorem isScalar_of_looselyEqual {v w : JsonValue} (h : looselyEqual oneNan v w = true)
    (hv : v.isScalar = true) : w.isScalar = true := by
  cases w with
  | arr ys =>
      have hfalse : looselyEqual oneNan v (.arr ys) = false := by
        rcases v with _ | b | n | (x | s | _) | s | xs | ms <;> first | rfl | cases hv
      exact absurd (hfalse.symm.trans h) Bool.false_ne_true
  | obj ns =>
      have hfalse : looselyEqual oneNan v (.obj ns) = false := by
        rcases v with _ | b | n | (x | s | _) | s | xs | ms <;> first | rfl | cases hv
      exact absurd (hfalse.symm.trans h) Bool.false_ne_true
  | _ => rfl

/-- Scalars are compared by their numbers, or else by identity of type and value. -/
theorem looselyEqual_scalar {v w : JsonValue} (hv : v.isScalar = true) :
    looselyEqual oneNan v w = true ↔
      (∃ a, v.number? = some a ∧ w.number? = some a) ∨
      (v = w ∧ v.number? = none ∧ v.isNan = false) := by
  rcases v with _ | b | n | (x | s | _) | s | xs | ms <;>
    rcases w with _ | c | m | (y | t | _) | t | ys | ns <;>
    first
    | (simp [looselyEqual, number?, isNan]; done)
    | (simp only [looselyEqual, number?, isNan]; simp; exact eq_comm)
    | cases hv

theorem isNan_of_number? {v : JsonValue} {a : ℚ} (h : v.number? = some a) : v.isNan = false := by
  rcases v with _ | b | n | (x | s | _) | s | xs | ms <;> first | rfl | cases h

theorem alike_iff {v w : JsonValue} :
    alike oneNan v w = true ↔
      (oneNan = true ∧ v.isNan = true ∧ w.isNan = true) ∨ looselyEqual oneNan v w = true := by
  show (oneNan && v.isNan && w.isNan || looselyEqual oneNan v w) = true ↔ _
  rw [Bool.or_eq_true, Bool.and_eq_true, Bool.and_eq_true, and_assoc]

/-- Objects that are compared equal have the same names. -/
theorem names_of_looselyEqual {ms ns : List (String × JsonValue)} (hms : (ms.map Prod.fst).Nodup)
    (hlength : ms.length = ns.length)
    (h : ∀ m ∈ ms, ∃ y, ns.lookup m.1 = some y ∧ alike oneNan m.2 y = true) :
    (ms.map Prod.fst).Perm (ns.map Prod.fst) := by
  have hsubset : ms.map Prod.fst ⊆ ns.map Prod.fst := by
    intro k hk
    obtain ⟨m, hm, rfl⟩ := List.mem_map.mp hk
    obtain ⟨y, hy, -⟩ := h m hm
    exact mem_names_iff.2 ⟨y, hy⟩
  exact (List.subperm_of_subset hms hsubset).perm_of_length_le
    (by rw [List.length_map, List.length_map, hlength])

theorem looselyEqual_symm {v w : JsonValue} (hv : v.distinct = true) (hw : w.distinct = true)
    (h : looselyEqual oneNan v w = true) : looselyEqual oneNan w v = true := by
  have hscalar : ∀ {v w : JsonValue}, v.isScalar = true → looselyEqual oneNan v w = true →
      looselyEqual oneNan w v = true := by
    intro v w hv h
    rw [looselyEqual_scalar (isScalar_of_looselyEqual h hv)]
    rcases (looselyEqual_scalar hv).mp h with ⟨a, ha, hb⟩ | ⟨rfl, hnumber, hnan⟩
    · exact .inl ⟨a, hb, ha⟩
    · exact .inr ⟨rfl, hnumber, hnan⟩
  induction v using JsonValue.induction_on generalizing w with
  | arr xs ih =>
      obtain ⟨ys, rfl, hitems⟩ := looselyEqual_arr.1 h
      refine looselyEqual_arr.2 ⟨xs, rfl, ?_⟩
      have hxs := distinctItems_iff.1 hv
      have hys := distinctItems_iff.1 hw
      clear h hv hw
      induction hitems with
      | nil => exact .nil
      | cons hxy _ ihitems =>
          rw [List.forall_mem_cons] at hxs hys ih
          refine .cons (alike_iff.2 ?_) (ihitems ih.2 hxs.2 hys.2)
          exact (alike_iff.1 hxy).imp (fun h => ⟨h.1, h.2.2, h.2.1⟩) (ih.1 hxs.1 hys.1)
  | obj ms ih =>
      obtain ⟨ns, rfl, hlength, hmembers⟩ := looselyEqual_obj.1 h
      refine looselyEqual_obj.2 ⟨ms, rfl, hlength.symm, fun n hn => ?_⟩
      -- as many names on both sides, and each on the left is on the right
      have hperm := names_of_looselyEqual (distinct_names hv) hlength hmembers
      obtain ⟨x, hx⟩ := mem_names_iff.1 (hperm.mem_iff.mpr (List.mem_map.mpr ⟨n, hn, rfl⟩))
      have hm : (n.1, x) ∈ ms := mem_of_lookup hx
      obtain ⟨y, hy, hxy⟩ := hmembers _ hm
      rw [lookup_of_mem (distinct_names hw) hn, Option.some.injEq] at hy
      subst hy
      refine ⟨x, hx, alike_iff.2 ?_⟩
      exact (alike_iff.1 hxy).imp (fun h => ⟨h.1, h.2.2, h.2.1⟩)
        (ih _ hm ((distinct_obj_iff.1 hv).2 _ hm) ((distinct_obj_iff.1 hw).2 n hn))
  | _ => exact hscalar rfl h

/-- Two lists compared through a third. -/
theorem forall₂_trans_of_mem {α : Type} {R S T : α → α → Prop} {xs ys zs : List α}
    (h : ∀ x ∈ xs, ∀ y z, R x y → S y z → T x z) (hxy : List.Forall₂ R xs ys)
    (hyz : List.Forall₂ S ys zs) : List.Forall₂ T xs zs := by
  induction hxy generalizing zs with
  | nil =>
      cases hyz
      exact .nil
  | cons hfirst _ ih =>
      cases hyz with
      | cons hsecond hrest =>
          rw [List.forall_mem_cons] at h
          exact .cons (h.1 _ _ hfirst hsecond) (ih h.2 hrest)

theorem isNan_of_looselyEqual {v w : JsonValue} (h : looselyEqual oneNan v w = true) :
    v.isNan = false ∧ w.isNan = false := by
  have hscalar (hv : v.isScalar = true) : v.isNan = false ∧ w.isNan = false := by
    rcases (looselyEqual_scalar hv).mp h with ⟨a, ha, hb⟩ | ⟨rfl, -, hnan⟩
    · exact ⟨isNan_of_number? ha, isNan_of_number? hb⟩
    · exact ⟨hnan, hnan⟩
  cases v with
  | arr xs =>
      obtain ⟨ys, rfl, -⟩ := looselyEqual_arr.1 h
      exact ⟨rfl, rfl⟩
  | obj ms =>
      obtain ⟨ns, rfl, -⟩ := looselyEqual_obj.1 h
      exact ⟨rfl, rfl⟩
  | _ => exact hscalar rfl

theorem looselyEqual_trans {v w u : JsonValue} (h : looselyEqual oneNan v w = true)
    (h' : looselyEqual oneNan w u = true) : looselyEqual oneNan v u = true := by
  have hscalar : ∀ {v w u : JsonValue}, v.isScalar = true → looselyEqual oneNan v w = true →
      looselyEqual oneNan w u = true → looselyEqual oneNan v u = true := by
    intro v w u hv h h'
    rcases (looselyEqual_scalar hv).mp h with ⟨a, ha, hb⟩ | ⟨rfl, -, -⟩
    · rcases (looselyEqual_scalar (isScalar_of_looselyEqual h hv)).mp h' with
        ⟨b, hb', hc⟩ | ⟨rfl, -, -⟩
      · rw [hb, Option.some.injEq] at hb'
        exact (looselyEqual_scalar hv).mpr (.inl ⟨a, ha, hb' ▸ hc⟩)
      · exact h
    · exact h'
  have halike : ∀ {v w u : JsonValue},
      (looselyEqual oneNan v w = true → looselyEqual oneNan w u = true →
        looselyEqual oneNan v u = true) →
      alike oneNan v w = true → alike oneNan w u = true → alike oneNan v u = true := by
    intro v w u hstep h h'
    rw [alike_iff] at h h' ⊢
    -- a NaN is loosely equal to nothing, so the two routes do not mix
    rcases h with ⟨hone, hv, hw⟩ | h
    · rcases h' with ⟨-, -, hu⟩ | h'
      · exact .inl ⟨hone, hv, hu⟩
      · rw [(isNan_of_looselyEqual h').1] at hw
        cases hw
    · rcases h' with ⟨-, hw, -⟩ | h'
      · rw [(isNan_of_looselyEqual h).2] at hw
        cases hw
      · exact .inr (hstep h h')
  induction v using JsonValue.induction_on generalizing w u with
  | arr xs ih =>
      obtain ⟨ys, rfl, hxy⟩ := looselyEqual_arr.1 h
      obtain ⟨zs, rfl, hyz⟩ := looselyEqual_arr.1 h'
      refine looselyEqual_arr.2 ⟨zs, rfl, forall₂_trans_of_mem ?_ hxy hyz⟩
      intro x hx y z
      exact halike (ih x hx)
  | obj ms ih =>
      obtain ⟨ns, rfl, hlength, hmembers⟩ := looselyEqual_obj.1 h
      obtain ⟨us, rfl, hlength', hmembers'⟩ := looselyEqual_obj.1 h'
      refine looselyEqual_obj.2 ⟨us, rfl, hlength.trans hlength', fun m hm => ?_⟩
      obtain ⟨y, hy, hxy⟩ := hmembers m hm
      obtain ⟨z, hz, hyz⟩ := hmembers' (m.1, y) (mem_of_lookup hy)
      exact ⟨z, hz, halike (ih m hm) hxy hyz⟩
  | _ => exact hscalar rfl h h'

/-! ## `equal`, one constructor at a time -/

theorem equal_arr {xs : List JsonValue} {w : JsonValue} :
    equal oneNan (.arr xs) w = true ↔
      ∃ ys, w = .arr ys ∧ List.Forall₂ (fun x y => equal oneNan x y = true) xs ys := by
  cases w with
  | arr ys =>
      change equalItems oneNan xs ys = true ↔ _
      simp only [arr.injEq, exists_eq_left']
      induction xs generalizing ys with
      | nil => cases ys <;> simp [equalItems]
      | cons x xs ih =>
          cases ys with
          | nil => simp [equalItems]
          | cons y ys => rw [equalItems, Bool.and_eq_true, ih, List.forall₂_cons]
  | _ =>
      constructor
      · intro h
        exact absurd h Bool.false_ne_true
      · rintro ⟨ys, h, -⟩
        cases h

theorem equal_obj {ms : List (String × JsonValue)} {w : JsonValue} :
    equal oneNan (.obj ms) w = looselyEqual oneNan (.obj ms) w := by
  cases w <;> rfl

/-- A scalar is equal to itself only, when it is finite. -/
theorem equal_scalar {v w : JsonValue} (hv : v.isScalar = true) :
    equal oneNan v w = true ↔ v = w ∧ v.isFinite = true := by
  rcases v with _ | b | n | (x | s | _) | s | xs | ms <;>
    rcases w with _ | c | m | (y | t | _) | t | ys | ns <;>
    first
    | (simp [equal, isFinite]; done)
    | cases hv

theorem equal_symm {v w : JsonValue} (hv : v.distinct = true) (hw : w.distinct = true)
    (h : equal oneNan v w = true) : equal oneNan w v = true := by
  have hscalar : ∀ {v w : JsonValue}, v.isScalar = true → equal oneNan v w = true →
      equal oneNan w v = true := by
    intro v w hv h
    obtain ⟨rfl, -⟩ := (equal_scalar hv).mp h
    exact h
  induction v using JsonValue.induction_on generalizing w with
  | arr xs ih =>
      obtain ⟨ys, rfl, hitems⟩ := equal_arr.1 h
      refine equal_arr.2 ⟨xs, rfl, ?_⟩
      have hxs := distinctItems_iff.1 hv
      have hys := distinctItems_iff.1 hw
      clear h hv hw
      induction hitems with
      | nil => exact .nil
      | cons hxy _ ihitems =>
          rw [List.forall_mem_cons] at hxs hys ih
          exact .cons (ih.1 hxs.1 hys.1 hxy) (ihitems ih.2 hxs.2 hys.2)
  | obj ms ih =>
      rw [equal_obj] at h
      obtain ⟨ns, rfl, -⟩ := looselyEqual_obj.1 h
      rw [equal_obj]
      exact looselyEqual_symm hv hw h
  | _ => exact hscalar rfl h

theorem equal_trans {v w u : JsonValue} (h : equal oneNan v w = true)
    (h' : equal oneNan w u = true) : equal oneNan v u = true := by
  have hscalar : ∀ {v w u : JsonValue}, v.isScalar = true → equal oneNan v w = true →
      equal oneNan w u = true → equal oneNan v u = true := by
    intro v w u hv h h'
    obtain ⟨rfl, -⟩ := (equal_scalar hv).mp h
    exact h'
  induction v using JsonValue.induction_on generalizing w u with
  | arr xs ih =>
      obtain ⟨ys, rfl, hxy⟩ := equal_arr.1 h
      obtain ⟨zs, rfl, hyz⟩ := equal_arr.1 h'
      refine equal_arr.2 ⟨zs, rfl, forall₂_trans_of_mem ?_ hxy hyz⟩
      intro x hx y z
      exact ih x hx
  | obj ms ih =>
      rw [equal_obj] at h ⊢
      obtain ⟨ns, rfl, -⟩ := looselyEqual_obj.1 h
      rw [equal_obj] at h'
      exact looselyEqual_trans h h'
  | _ => exact hscalar rfl h h'

/-! ## Where nothing is taken for something else -/

/-- A number without a twin has its value to itself. -/
theorem eq_of_number {v w : JsonValue} {a : ℚ} (halone : v.hasNoTwin = true)
    (hv : v.number? = some a) (hw : w.number? = some a) : v = w := by
  rcases v with _ | b | n | (x | s | _) | s | xs | ms <;>
    simp only [number?, reduceCtorEq, Option.some.injEq] at hv
  · cases halone
  · -- a boolean or a float of this value would be a binary64
    have hnone : ∀ y : Finite64, y.value ≠ n := by
      intro y hy
      have hround : Binary64.ofRat n = .ofRat y.value := by rw [hy]
      rcases Binary64.ofRat_cases y.value with ⟨z, hz, hvalue⟩ | ⟨neg, -, hbig⟩
      · rw [y.roundRat_value] at hvalue
        simp only [hasNoTwin, hround, hz, bne_iff_ne] at halone
        exact halone (hvalue.trans hy)
      · rw [y.roundRat_value, y.abs_value] at hbig
        exact absurd y.abs_lt_overflow (not_lt.mpr hbig)
    rcases w with _ | b | m | (y | t | _) | t | ys | ns <;>
      simp only [number?, reduceCtorEq, Option.some.injEq] at hw
    · have hn : n = if b then 1 else 0 := by
        have hcast := hv.trans hw.symm
        cases b <;> exact_mod_cast hcast
      obtain ⟨y, -, hy⟩ := Binary64.ofRat_intCast (n := n) (by cases b <;> simp [hn])
      exact absurd hy (hnone y)
    · rw [Int.cast_inj.mp (hv.trans hw.symm)]
    · exact absurd (hw.trans hv.symm) (hnone y)
  · have hfraction : ∀ m : ℤ, (m : ℚ) ≠ x.value := by
      intro m hm
      rw [hasNoTwin, bne_iff_ne, ← hm] at halone
      exact halone (Rat.den_intCast m)
    rcases w with _ | b | m | (y | t | _) | t | ys | ns <;>
      simp only [number?, reduceCtorEq, Option.some.injEq] at hw
    · refine absurd ?_ (hfraction (if b then 1 else 0))
      rw [hv, ← hw]
      cases b <;> rfl
    · exact absurd (hw.trans hv.symm) (hfraction m)
    · have hne : y.value ≠ 0 := by
        intro hzero
        refine hfraction 0 ?_
        rw [Int.cast_zero, ← hzero, hw, hv]
      rw [Finite64.eq_of_value_eq (hv.trans hw.symm) hne]

/-- What holds only scalars that are alone is compared equal to itself only. -/
theorem same_of_looselyEqual {v w : JsonValue} (halone : everyScalar isAlone v = true)
    (hv : v.distinct = true) (hw : w.distinct = true) (h : looselyEqual oneNan v w = true) :
    Same v w := by
  have hscalar : ∀ {v w : JsonValue}, v.isScalar = true → isAlone v = true →
      looselyEqual oneNan v w = true → Same v w := by
    intro v w hv halone h
    rcases (looselyEqual_scalar hv).mp h with ⟨a, ha, hb⟩ | ⟨rfl, -, -⟩
    · rw [eq_of_number (isAlone_iff.1 halone).2 ha hb]
      exact Same.refl w
    · exact Same.refl v
  -- an element is alike by identity or by `==`; identity alone needs a NaN, which `halone` excludes
  have halike : ∀ {v w : JsonValue}, everyScalar isAlone v = true →
      (looselyEqual oneNan v w = true → Same v w) → alike oneNan v w = true → Same v w := by
    intro v w halone hstep h
    rcases alike_iff.1 h with ⟨-, hnan, -⟩ | h
    · rw [everyScalar_scalar (by cases v <;> first | rfl | cases hnan), isAlone_iff, hnan] at halone
      cases halone.1
    · exact hstep h
  induction v using JsonValue.induction_on generalizing w with
  | arr xs ih =>
      obtain ⟨ys, rfl, hitems⟩ := looselyEqual_arr.1 h
      refine same_arr ?_
      have hxs := distinctItems_iff.1 hv
      have hys := distinctItems_iff.1 hw
      rw [everyScalar_arr] at halone
      clear h hv hw
      induction hitems with
      | nil => exact .nil
      | cons hxy _ ihitems =>
          rw [List.forall_mem_cons] at hxs hys ih halone
          exact .cons (halike halone.1 (ih.1 halone.1 hxs.1 hys.1) hxy)
            (ihitems ih.2 halone.2 hxs.2 hys.2)
  | obj ms ih =>
      obtain ⟨ns, rfl, hlength, hmembers⟩ := looselyEqual_obj.1 h
      rw [everyScalar_obj] at halone
      have hperm := names_of_looselyEqual (distinct_names hv) hlength hmembers
      refine same_obj fun k => ?_
      -- `looselyEqual` pairs by name, so the two lookups of `k` answer together
      rcases hx : ms.lookup k with _ | x
      · rcases hy : ns.lookup k with _ | y
        · exact .none
        · obtain ⟨x, hx'⟩ := mem_names_iff.1 (hperm.mem_iff.mpr (mem_names_iff.2 ⟨y, hy⟩))
          rw [hx] at hx'
          cases hx'
      · have hm : (k, x) ∈ ms := mem_of_lookup hx
        obtain ⟨y, hy, hxy⟩ := hmembers _ hm
        rw [hy]
        exact .some (halike (halone _ hm) (ih _ hm (halone _ hm)
          ((distinct_obj_iff.1 hv).2 _ hm) (distinct_member hw hy)) hxy)
  | _ => exact hscalar rfl halone h

/-- `equal` on a value whose objects hold only scalars that are alone. -/
theorem same_of_equal {v w : JsonValue} (halone : v.aloneInside = true) (hv : v.distinct = true)
    (hw : w.distinct = true) (h : equal oneNan v w = true) : Same v w := by
  have hscalar : ∀ {v w : JsonValue}, v.isScalar = true → equal oneNan v w = true → Same v w := by
    intro v w hv h
    obtain ⟨rfl, -⟩ := (equal_scalar hv).mp h
    exact Same.refl v
  induction v using JsonValue.induction_on generalizing w with
  | arr xs ih =>
      obtain ⟨ys, rfl, hitems⟩ := equal_arr.1 h
      refine same_arr ?_
      have hxs := distinctItems_iff.1 hv
      have hys := distinctItems_iff.1 hw
      rw [aloneInside_arr] at halone
      clear h hv hw
      induction hitems with
      | nil => exact .nil
      | cons hxy _ ihitems =>
          rw [List.forall_mem_cons] at hxs hys ih halone
          exact .cons (ih.1 halone.1 hxs.1 hys.1 hxy) (ihitems ih.2 halone.2 hxs.2 hys.2)
  | obj ms =>
      rw [equal_obj] at h
      exact same_of_looselyEqual halone hv hw h
  | _ => exact hscalar rfl h

/-- What is equal to anything has finite floats outside of objects. -/
theorem finiteOutside_of_equal {v w : JsonValue} (h : equal oneNan v w = true) :
    v.finiteOutside = true := by
  induction v using JsonValue.induction_on generalizing w with
  | arr xs ih =>
      obtain ⟨ys, rfl, hitems⟩ := equal_arr.1 h
      refine finiteOutside_arr.2 fun x hx => ?_
      obtain ⟨i, hi, rfl⟩ := List.getElem_of_mem hx
      exact ih _ hx (hitems.get hi (hitems.length_eq ▸ hi))
  | obj ms => rfl
  | _ => exact ((equal_scalar rfl).mp h).2

end Loosely

theorem everyScalar_mono {p q : JsonValue → Bool}
    (hpq : ∀ v : JsonValue, v.isScalar = true → p v = true → q v = true) {v : JsonValue}
    (h : everyScalar p v = true) : everyScalar q v = true := by
  induction v using JsonValue.induction_on with
  | arr items ih =>
      rw [everyScalar_arr] at h ⊢
      exact fun x hx => ih x hx (h x hx)
  | obj ms ih =>
      rw [everyScalar_obj] at h ⊢
      exact fun m hm => ih m hm (h m hm)
  | _ => exact hpq _ rfl h

/-- No NaN occurs. -/
def noNan (v : JsonValue) : Bool := everyScalar (fun s => !s.isNan) v

theorem noNan_of_finiteOutside {v : JsonValue} (hfinite : v.finiteOutside = true)
    (halone : v.aloneInside = true) : v.noNan = true := by
  induction v using JsonValue.induction_on with
  | arr items ih =>
      rw [finiteOutside_arr] at hfinite
      rw [aloneInside_arr] at halone
      exact everyScalar_arr.2 fun x hx => ih x hx (hfinite x hx) (halone x hx)
  | obj ms =>
      refine everyScalar_mono (fun v _ hv => ?_) halone
      rw [(isAlone_iff.1 hv).1]
      rfl
  | float x => cases x <;> first | rfl | cases hfinite
  | _ => rfl

/-! ## Where something is -/

/-- Replacing scalars by what they are compared equal to. -/
theorem alike_mapScalars {oneNan : Bool} {t : JsonValue → JsonValue} {v : JsonValue}
    (h : everyScalar (fun s => alike oneNan s (t s)) v = true) (hv : v.distinct = true) :
    alike oneNan v (mapScalars t v) = true := by
  induction v using JsonValue.induction_on with
  | arr items ih =>
      rw [everyScalar_arr] at h
      have hitems := distinctItems_iff.1 hv
      rw [mapScalars_arr]
      refine alike_iff.2 (.inr (looselyEqual_arr.2 ⟨_, rfl, ?_⟩))
      rw [List.forall₂_map_right_iff, List.forall₂_same]
      exact fun x hx => ih x hx (h x hx) (hitems x hx)
  | obj ms ih =>
      rw [everyScalar_obj] at h
      rw [mapScalars_obj]
      have hnames : ((ms.map fun m => (m.1, mapScalars t m.2)).map Prod.fst).Nodup := by
        rw [List.map_map]
        exact distinct_names hv
      refine alike_iff.2 (.inr (looselyEqual_obj.2 ⟨_, rfl, (List.length_map _).symm, ?_⟩))
      intro m hm
      exact ⟨mapScalars t m.2, lookup_of_mem hnames (List.mem_map.mpr ⟨m, hm, rfl⟩),
        ih m hm (h m hm) ((distinct_obj_iff.1 hv).2 m hm)⟩
  | _ => exact h

theorem alike_twin {v : JsonValue} (hv : v.isScalar = true) : alike true v (twin v) = true := by
  rcases v with _ | b | n | (x | s | _) | s | xs | ms
  · rfl
  · cases b <;> simp [alike, twin, looselyEqual, number?]
  · simp only [twin]
    split
    · split
      · next hx => simp [alike, looselyEqual, number?, hx]
      · simp [alike, looselyEqual, number?]
    · simp [alike, looselyEqual, number?]
  · simp only [twin]
    split
    · next hden =>
        have hvalue : (x.value.num : ℚ) = x.value := (Rat.den_eq_one_iff _).mp hden
        simp [alike, looselyEqual, number?, hvalue]
    · simp [alike, looselyEqual, number?]
  · simp [alike, twin, looselyEqual]
  · rfl
  · simp [alike, twin, looselyEqual]
  · cases hv
  · cases hv

/-- A twin is of another type. -/
theorem hasNoTwin_of_twin_eq {v : JsonValue} (hv : v.isScalar = true) (h : twin v = v) :
    v.hasNoTwin = true := by
  rcases v with _ | b | n | (x | s | _) | s | xs | ms
  · rfl
  · cases h
  · simp only [twin] at h
    simp only [hasNoTwin]
    split
    · next hround =>
        rw [hround] at h
        rw [bne_iff_ne]
        -- an exact conversion gives the float as a twin
        intro hvalue
        simp only [hvalue, if_true] at h
        cases h
    · rfl
  · rw [hasNoTwin, bne_iff_ne]
    intro hden
    rw [twin, if_pos hden] at h
    cases h
  · rfl
  · rfl
  · rfl
  · cases hv
  · cases hv

/-- What is the same with its numbers replaced by their twins has none. -/
theorem isAlone_of_same_twin {v : JsonValue} (hv : v.distinct = true) (hnan : v.noNan = true)
    (h : Same v (mapScalars twin v)) : everyScalar isAlone v = true := by
  -- a scalar that is its own twin has none
  have hscalar : ∀ {v : JsonValue}, v.isScalar = true → (!v.isNan) = true → Same v (twin v) →
      isAlone v = true := by
    intro v hv hnan h
    rw [Bool.not_eq_true'] at hnan
    exact isAlone_iff.2 ⟨hnan, hasNoTwin_of_twin_eq hv (h.eq_of_isScalar hv)⟩
  induction v using JsonValue.induction_on with
  | arr items ih =>
      have hnan := everyScalar_arr.1 hnan
      rw [everyScalar_arr]
      rw [mapScalars_arr] at h
      obtain ⟨ys, heq, hitems⟩ := h.arr
      rw [arr.injEq] at heq
      rw [← heq, List.forall₂_map_right_iff, List.forall₂_same] at hitems
      exact fun x hx => ih x hx (distinctItems_iff.1 hv x hx) (hnan x hx) (hitems x hx)
  | obj ms ih =>
      have hnan := everyScalar_obj.1 hnan
      rw [everyScalar_obj]
      rw [mapScalars_obj] at h
      intro m hm
      have hnames := distinct_names hv
      have hnames' : ((ms.map fun m => (m.1, mapScalars twin m.2)).map Prod.fst).Nodup := by
        rwa [List.map_map]
      have hk := Same.rel h m.1
      rw [lookup_of_mem hnames hm, lookup_of_mem hnames' (List.mem_map.mpr ⟨m, hm, rfl⟩)] at hk
      cases hk with
      | some hsame => exact ih m hm ((distinct_obj_iff.1 hv).2 m hm) (hnan m hm) hsame
  | _ => exact hscalar rfl hnan h

mutual

/-- The numbers inside objects replaced by their twins. -/
def respelt : JsonValue → JsonValue
  | .arr items => .arr (respeltItems items)
  | .obj ms => mapScalars twin (.obj ms)
  | v => v

/-- The items respelt. -/
def respeltItems : List JsonValue → List JsonValue
  | [] => []
  | v :: items => v.respelt :: respeltItems items

end

theorem respelt_arr (items : List JsonValue) : (arr items).respelt = .arr (items.map respelt) :=
  congrArg arr (eq_map_of_cons (f := respeltItems) rfl (fun _ _ => rfl) items)

theorem everyScalar_true {p : JsonValue → Bool} (h : ∀ v, v.isScalar = true → p v = true)
    (v : JsonValue) : everyScalar p v = true := by
  induction v using JsonValue.induction_on with
  | arr items ih => exact everyScalar_arr.2 ih
  | obj ms ih => exact everyScalar_obj.2 ih
  | _ => exact h _ rfl

/-- What holds no infinity and no NaN is equal to itself. -/
theorem equal_self {v : JsonValue} (hfinite : everyScalar isFinite v = true)
    (hv : v.distinct = true) (oneNan : Bool) : equal oneNan v v = true := by
  have hself : ∀ v : JsonValue, v.isScalar = true → v.isFinite = true →
      alike oneNan v (id v) = true := by
    intro v hv h
    refine alike_iff.2 (.inr ((looselyEqual_scalar hv).mpr ?_))
    rcases v with _ | b | n | (x | s | _) | s | xs | ms <;>
      first
      | exact .inl ⟨_, rfl, rfl⟩
      | exact .inr ⟨rfl, rfl, rfl⟩
      | cases h
  induction v using JsonValue.induction_on with
  | arr items ih =>
      rw [everyScalar_arr] at hfinite
      refine equal_arr.2 ⟨items, rfl, List.forall₂_same.mpr fun x hx => ?_⟩
      exact ih x hx (hfinite x hx) (distinctItems_iff.1 hv x hx)
  | obj ms =>
      have hmap := alike_mapScalars (everyScalar_mono hself hfinite) hv
      rw [mapScalars_id] at hmap
      rw [equal_obj]
      exact (alike_iff.1 hmap).resolve_left fun h => by cases h.2.1
  | _ => exact (equal_scalar rfl).mpr ⟨rfl, hfinite⟩

theorem equal_respelt {v : JsonValue} (hfinite : v.finiteOutside = true)
    (hv : v.distinct = true) : equal true v v.respelt = true := by
  induction v using JsonValue.induction_on with
  | arr items ih =>
      rw [finiteOutside_arr] at hfinite
      refine equal_arr.2 ⟨_, respelt_arr items, ?_⟩
      rw [List.forall₂_map_right_iff, List.forall₂_same]
      exact fun x hx => ih x hx (hfinite x hx) (distinctItems_iff.1 hv x hx)
  | obj ms =>
      rw [equal_obj]
      exact alike_mapScalars (everyScalar_true (fun _ => alike_twin) _) hv
  | _ => exact (equal_scalar rfl).mpr ⟨rfl, hfinite⟩

theorem aloneInside_of_same_respelt {v : JsonValue} (hv : v.distinct = true)
    (hnan : v.noNan = true) (h : Same v v.respelt) : v.aloneInside = true := by
  induction v using JsonValue.induction_on with
  | arr items ih =>
      have hnan := everyScalar_arr.1 hnan
      rw [aloneInside_arr]
      rw [respelt_arr] at h
      obtain ⟨ys, heq, hitems⟩ := h.arr
      rw [arr.injEq] at heq
      rw [← heq, List.forall₂_map_right_iff, List.forall₂_same] at hitems
      exact fun x hx => ih x hx (distinctItems_iff.1 hv x hx) (hnan x hx) (hitems x hx)
  | obj ms => exact isAlone_of_same_twin hv hnan h
  | _ => rfl

theorem distinct_mapScalars {v : JsonValue} (hv : v.distinct = true) :
    (mapScalars twin v).distinct = true := by
  induction v using JsonValue.induction_on with
  | arr items ih =>
      rw [mapScalars_arr]
      refine distinctItems_iff.2 fun y hy => ?_
      obtain ⟨x, hx, rfl⟩ := List.mem_map.mp hy
      exact ih x hx (distinctItems_iff.1 hv x hx)
  | obj ms ih =>
      rw [mapScalars_obj, distinct_obj_iff, List.map_map]
      refine ⟨distinct_names hv, fun n hn => ?_⟩
      obtain ⟨m, hm, rfl⟩ := List.mem_map.mp hn
      exact ih m hm ((distinct_obj_iff.1 hv).2 m hm)
  -- a scalar becomes a scalar
  | int n =>
      simp only [mapScalars, twin]
      split
      · split <;> rfl
      · rfl
  | float x =>
      cases x with
      | finite x =>
          simp only [mapScalars, twin]
          split <;> rfl
      | _ => rfl
  | _ => rfl

theorem distinct_respelt {v : JsonValue} (hv : v.distinct = true) : v.respelt.distinct = true := by
  induction v using JsonValue.induction_on with
  | arr items ih =>
      rw [respelt_arr]
      refine distinctItems_iff.2 fun y hy => ?_
      obtain ⟨x, hx, rfl⟩ := List.mem_map.mp hy
      exact ih x hx (distinctItems_iff.1 hv x hx)
  | obj ms => exact distinct_mapScalars hv
  | _ => rfl

theorem isObj_respelt (v : JsonValue) : v.respelt.isObj = v.isObj := by cases v <;> rfl

end JsonValue

/-! ## Leaves -/

open JsonValue

/-- A value that `leaves` returns as a leaf. -/
def IsLeaf (v : JsonValue) : Prop := ∃ root flat path, leaves root = .ok flat ∧ (path, v) ∈ flat

/-- Scalars, and arrays none of whose items is an object. -/
theorem isLeaf_iff {v : JsonValue} :
    IsLeaf v ↔ v.isObj = false ∧ v.unexpanded = true := by
  constructor
  · rintro ⟨root, flat, path, h, hmem⟩
    exact forall_mem_leaves (P := fun e => e.2.isObj = false ∧ e.2.unexpanded = true)
      (fun _ hobj hunexpanded => ⟨hobj, hunexpanded⟩) (fun _ _ _ he => he) h _ hmem
  · rintro ⟨hobj, hunexpanded⟩
    exact ⟨v, _, [], leaves_of_unexpanded hunexpanded hobj, List.mem_singleton_self _⟩

theorem IsLeaf.respelt {v : JsonValue} (h : IsLeaf v) : IsLeaf v.respelt := by
  rw [isLeaf_iff] at h ⊢
  obtain ⟨hobj, hunexpanded⟩ := h
  refine ⟨(isObj_respelt v).trans hobj, ?_⟩
  cases v with
  | arr items =>
      rw [respelt_arr, unexpanded_arr, List.any_map]
      rw [← unexpanded_arr.1 hunexpanded]
      exact congrArg items.any (funext isObj_respelt)
  | obj ms => cases hobj
  | _ => rfl

/-! ## The result -/

/-- **On leaves `equal` is an equivalence on the finite values, and identity where no object holds a
    number with a twin.** A leaf is equal only to itself, types and bits included, and has no NaN,
    exactly when it is rigid. Whatever the leaves, `equal` is symmetric and transitive, and it is
    reflexive on a leaf whose floats are finite. -/
theorem equal_identity_iff {l : PyJson} (hl : IsLeaf l.value) :
    ((∀ (oneNan : Bool) (r : PyJson), IsLeaf r.value → equal oneNan l.value r.value = true →
      Same l.value r.value ∧ l.value.noNan = true) ↔ l.value.isRigid = true) ∧
    (∀ (oneNan : Bool) (r : PyJson), equal oneNan l.value r.value = true →
      equal oneNan r.value l.value = true) ∧
    (∀ (oneNan : Bool) (r s : PyJson), equal oneNan l.value r.value = true →
      equal oneNan r.value s.value = true → equal oneNan l.value s.value = true) ∧
    (everyScalar JsonValue.isFinite l.value = true → ∀ oneNan : Bool,
      equal oneNan l.value l.value = true) := by
  refine ⟨⟨fun h => ?_, fun h oneNan r _ hequal => ?_⟩, ?_, ?_, fun hfinite oneNan => ?_⟩
  · rw [isRigid, Bool.or_eq_true, Bool.not_eq_true']
    rcases hfinite : l.value.finiteOutside with _ | _
    · exact .inl rfl
    · obtain ⟨hsame, hnan⟩ := h true ⟨l.value.respelt, distinct_respelt l.distinct⟩ hl.respelt
        (equal_respelt hfinite l.distinct)
      exact .inr (aloneInside_of_same_respelt l.distinct hnan hsame)
  · have hfinite := finiteOutside_of_equal hequal
    rw [isRigid, hfinite, Bool.not_true, Bool.false_or] at h
    exact ⟨same_of_equal h l.distinct r.distinct hequal, noNan_of_finiteOutside hfinite h⟩
  · exact fun oneNan r => equal_symm l.distinct r.distinct
  · exact fun oneNan r s => equal_trans
  · exact equal_self hfinite l.distinct oneNan

/-- `[[1]]`. -/
def nestedOne : PyJson := ⟨.arr [.arr [.int 1]], rfl⟩

theorem equal_identity_iff_nestedOne :
    IsLeaf nestedOne.value ∧ nestedOne.value.isRigid = true ∧
      ∀ (oneNan : Bool) (r : PyJson), IsLeaf r.value →
        equal oneNan nestedOne.value r.value = true →
        Same nestedOne.value r.value ∧ nestedOne.value.noNan = true :=
  ⟨isLeaf_iff.2 ⟨rfl, rfl⟩, rfl,
    (equal_identity_iff (l := nestedOne) (isLeaf_iff.2 ⟨rfl, rfl⟩)).1.mpr rfl⟩

/-- `[[{"a": 1}]]`. -/
def nestedInteger : PyJson := ⟨.arr [.arr [.obj [("a", .int 1)]]], rfl⟩

/-- `[[{"a": true}]]`. -/
def nestedBoolean : PyJson := ⟨.arr [.arr [.obj [("a", .bool true)]]], rfl⟩

/-- An integer and a boolean are equal inside an object. -/
theorem equal_integer_boolean :
    IsLeaf nestedInteger.value ∧ IsLeaf nestedBoolean.value ∧
      (∀ oneNan, equal oneNan nestedInteger.value nestedBoolean.value = true) ∧
      ¬ Same nestedInteger.value nestedBoolean.value := by
  refine ⟨isLeaf_iff.2 ⟨rfl, rfl⟩, isLeaf_iff.2 ⟨rfl, rfl⟩, ?_, fun h => ?_⟩
  · decide
  · have hscalar := h [.index 0, .index 0, .key "a"]
    cases hscalar

end AstroPassport
