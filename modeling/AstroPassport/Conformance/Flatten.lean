import AstroPassport.Conformance.Comparator

set_option autoImplicit false

/-! # Leaves and places

`leaves` against the places of a value: what stands at a place without an object in it is the leaf
at the place's path (`leaf_of_get`). `equal` on such a leaf is equality, and `setPath` changes a
value at one place only.

The comparator works on flat dictionaries from paths to leaves, the models on nested values, and
these lemmas are the way from the one to the other. A place is a list of steps, by a key or by an
index, and its path has the texts of the steps. A leaf of a plain value is a scalar or an array of
scalars, where the typed comparison has nothing to fall back to, so that two equal leaves are the
same leaf (`eq_of_equal`). For `setPath`, which creates the objects on its way, it is said what is
found afterwards at the place itself and beside it (`setPath_get_of_beside`), and that it does not
fail on an object that holds the way already. -/

namespace AstroPassport

open JsonValue

/-- A step as a path spells it. -/
def JsonStep.text : JsonStep → String
  | .key k => k
  | .index i => toString i

theorem toString_injective {i j : ℕ} (h : toString i = toString j) : i = j := by
  have hdigits : Nat.toDigits 10 i = Nat.toDigits 10 j := by
    have hlist := congrArg String.toList h
    simpa [toString, Nat.repr] using hlist
  have hvalue := congrArg (Nat.ofDigitChars 10 · 0) hdigits
  simpa [Nat.ofDigitChars_toDigits] using hvalue

theorem refuse_eq_ok {category : String} {refused : Bool} {u : Unit} :
    refuse category refused = .ok u ↔ refused = false := by
  cases refused <;> simp [refuse]

theorem orRaise_eq_ok {α : Type} {x : Checked α} {a : α} : x.orRaise = .ok a ↔ x = .ok a := by
  cases x <;> simp [Checked.orRaise]

/-! ## Leaves by their paths -/

namespace Flat

variable {flat : Flat} {k l : String} {p : List String}

theorem lookup_within : (flat.within k).lookup (k :: p) = flat.lookup p := by
  induction flat with
  | nil => rfl
  | cons e flat ih =>
      obtain ⟨q, x⟩ := e
      have hcons : Flat.within k ((q, x) :: flat) = (k :: q, x) :: Flat.within k flat := rfl
      rw [hcons, List.lookup_cons, List.lookup_cons, ih]
      simp

theorem lookup_within_of_ne (h : l ≠ k) : (flat.within k).lookup (l :: p) = none := by
  refine List.lookup_eq_none_iff.mpr fun e he => ?_
  obtain ⟨_, -, rfl⟩ := List.mem_map.mp he
  simp [h]

end Flat

theorem leavesOfMembers_lookup {ms : List (String × JsonValue)} {flat : Flat} {k : String}
    {v : JsonValue} (h : leavesOfMembers ms = .ok flat) (hv : ms.lookup k = some v) :
    ∃ part, leaves v = .ok part ∧ ∀ p x, part.lookup p = some x → flat.lookup (k :: p) = some x := by
  induction ms generalizing flat with
  | nil => cases hv
  | cons m ms ih =>
      obtain ⟨l, w⟩ := m
      simp only [leavesOfMembers, bind_eq_ok] at h
      obtain ⟨part, hpart, rest, hrest, heq⟩ := h
      cases heq
      by_cases hk : k = l
      · subst hk
        rw [List.lookup_cons_self] at hv
        cases hv
        refine ⟨part, hpart, fun p x hx => ?_⟩
        rw [List.lookup_append, Flat.lookup_within, hx, Option.some_or]
      · rw [List.lookup_cons, beq_false_of_ne hk] at hv
        obtain ⟨sub, hsub, hlookup⟩ := ih hrest hv
        refine ⟨sub, hsub, fun p x hx => ?_⟩
        rw [List.lookup_append, Flat.lookup_within_of_ne hk, Option.none_or]
        exact hlookup p x hx

theorem leavesOfItems_lookup {items : List JsonValue} {flat : Flat} {n i : ℕ} {v : JsonValue}
    (h : leavesOfItems n items = .ok flat) (hv : items[i]? = some v) :
    ∃ part, leaves v = .ok part ∧
      ∀ p x, part.lookup p = some x → flat.lookup (toString (n + i) :: p) = some x := by
  induction items generalizing flat n i with
  | nil => cases hv
  | cons w items ih =>
      simp only [leavesOfItems, bind_eq_ok] at h
      obtain ⟨part, hpart, rest, hrest, heq⟩ := h
      cases heq
      rcases i with _ | i
      · cases hv
        refine ⟨part, hpart, fun p x hx => ?_⟩
        rw [List.lookup_append, Nat.add_zero, Flat.lookup_within, hx, Option.some_or]
      · obtain ⟨sub, hsub, hlookup⟩ := ih hrest hv
        refine ⟨sub, hsub, fun p x hx => ?_⟩
        have hne : toString (n + (i + 1)) ≠ toString n := fun heq => by
          have := toString_injective heq
          omega
        have hshift : n + 1 + i = n + (i + 1) := by omega
        rw [List.lookup_append, Flat.lookup_within_of_ne hne, Option.none_or, ← hshift]
        exact hlookup p x hx

theorem leaves_of_isPlain {v : JsonValue} (h : v.isPlain = true) : leaves v = .ok [([], v)] := by
  cases v with
  | obj ms => cases h
  | arr items =>
      have hnone : items.any isObj = false := by
        rw [List.any_eq_false]
        intro x hx
        have hscalar := List.all_eq_true.mp h x hx
        cases x <;> first | exact Bool.false_ne_true | cases hscalar
      simp [leaves, hnone]
  | _ => rfl

/-- Every item on the way is an object: a member follows. -/
def throughObjects : List JsonStep → Bool
  | [] => true
  | .key _ :: p => throughObjects p
  | .index _ :: .key _ :: p => throughObjects p
  | _ => false

/-- What stands at a place, without an object in it, is the leaf at the place's path. -/
theorem leaf_of_get {v x : JsonValue} {flat : Flat} {p : List JsonStep}
    (hp : throughObjects p = true) (h : leaves v = .ok flat) (hx : v.get p = some x)
    (hplain : x.isPlain = true) : flat.lookup (p.map JsonStep.text) = some x := by
  have hmember : ∀ {k : String} {p : List JsonStep} {v : JsonValue} {flat : Flat},
      leaves v = .ok flat → v.get (.key k :: p) = some x →
      (∀ {w part}, leaves w = .ok part → w.get p = some x →
        part.lookup (p.map JsonStep.text) = some x) →
      flat.lookup (k :: p.map JsonStep.text) = some x := by
    intro k p v flat h hx hbelow
    obtain ⟨w, hw, hget⟩ := Option.bind_eq_some_iff.mp hx
    cases v <;> try cases hw
    rw [leaves, bind_eq_ok] at h
    obtain ⟨-, -, h⟩ := h
    obtain ⟨part, hpart, hlookup⟩ := leavesOfMembers_lookup h hw
    exact hlookup _ _ (hbelow hpart hget)
  induction p using throughObjects.induct generalizing v flat with
  | case1 =>
      cases hx
      rw [leaves_of_isPlain hplain] at h
      cases h
      rfl
  | case2 k p ih => exact hmember h hx fun hw hx => ih hp hw hx
  | case3 i k p ih =>
      obtain ⟨w, hw, hget⟩ := Option.bind_eq_some_iff.mp hx
      cases v <;> try cases hw
      next items =>
        rw [leaves] at h
        split at h
        · obtain ⟨-, -, h⟩ := bind_eq_ok.1 h
          obtain ⟨part, hpart, hlookup⟩ := leavesOfItems_lookup h hw
          rw [List.map_cons, JsonStep.text, ← Nat.zero_add i]
          exact hlookup _ _ (hmember hpart hget fun hw hx => ih hp hw hx)
        · next hnone =>
            -- the item has a member, so it is an object
            obtain ⟨y, hy, -⟩ := Option.bind_eq_some_iff.mp hget
            have hobj : w.isObj = true := by cases w <;> first | rfl | cases hy
            exact absurd (List.any_eq_true.mpr ⟨w, List.mem_of_getElem? hw, hobj⟩) hnone
  | case4 p hnil hkey hindex =>
      unfold throughObjects at hp
      split at hp <;> simp_all

/-! ## Equality of leaves -/

theorem eq_of_equal_scalar {oneNan : Bool} {v w : JsonValue} (h : equal oneNan v w = true) (hw : w.isScalar = true) :
    v = w := by
  unfold equal at h
  split at h
  · rfl
  · rw [eq_of_beq h]
  · rw [eq_of_beq h]
  · rw [eq_of_beq h]
  · rw [eq_of_beq h]
  · cases hw
  · cases hw
  · cases h

theorem eq_of_equalItems {oneNan : Bool} {xs ys : List JsonValue}
    (h : equalItems oneNan xs ys = true)
    (hys : ∀ y ∈ ys, y.isScalar = true) : xs = ys := by
  induction xs generalizing ys with
  | nil => cases ys <;> first | rfl | cases h
  | cons x xs ih =>
      rcases ys with _ | ⟨y, ys⟩
      · cases h
      · rw [equalItems, Bool.and_eq_true] at h
        rw [eq_of_equal_scalar h.1 (hys y (List.mem_cons_self ..)),
          ih h.2 fun y hy => hys y (List.mem_cons_of_mem _ hy)]

/-- On a leaf without an object in it the typed check is equality. -/
theorem eq_of_equal {oneNan : Bool} {v w : JsonValue} (h : equal oneNan v w = true) (hw : w.isPlain = true) : v = w := by
  cases w with
  | arr ys =>
      cases v with
      | arr xs => rw [eq_of_equalItems h (List.all_eq_true.mp hw)]
      | float x => cases x <;> cases h
      | _ => cases h
  | obj ms => cases hw
  | _ => exact eq_of_equal_scalar h hw

/-! ## Setting a value at a path -/

theorem lookup_set {ms : List (String × JsonValue)} {k l : String} {v : JsonValue} :
    (Dict.set k v ms).lookup l = if l = k then some v else ms.lookup l := by
  induction ms with
  | nil =>
      by_cases hl : l = k
      · simp [Dict.set, hl]
      · simp [Dict.set, hl, List.lookup_cons, beq_false_of_ne hl]
  | cons m ms ih =>
      obtain ⟨k', w⟩ := m
      rw [Dict.set]
      split
      · next heq =>
          subst heq
          by_cases hl : l = k'
          · simp [hl]
          · simp [hl, List.lookup_cons, beq_false_of_ne hl]
      · next hne =>
          rw [List.lookup_cons, List.lookup_cons, ih]
          by_cases hl : l = k'
          · subst hl
            simp [hne]
          · simp [beq_false_of_ne hl]

/-- Members set one after the other hide what was there. -/
theorem lookup_foldl_set {ms d : List (String × JsonValue)} (hnodup : (ms.map Prod.fst).Nodup)
    (k : String) :
    (ms.foldl (fun d m => Dict.set m.1 m.2 d) d).lookup k = (ms.lookup k).or (d.lookup k) := by
  induction ms generalizing d with
  | nil => rfl
  | cons m ms ih =>
      obtain ⟨l, v⟩ := m
      rw [List.map_cons, List.nodup_cons] at hnodup
      rw [List.foldl_cons, ih hnodup.2, lookup_set]
      by_cases hk : k = l
      · subst hk
        have hnone : ms.lookup k = none := List.lookup_eq_none_iff.mpr fun e he =>
          bne_iff_ne.mpr fun heq => hnodup.1 (List.mem_map.mpr ⟨e, he, heq.symm⟩)
        rw [hnone, if_pos rfl, List.lookup_cons_self]
        rfl
      · rw [if_neg hk, List.lookup_cons, beq_false_of_ne hk]

section SetPath

variable {value current next : JsonValue}

/-- The place that a path of keys stands for. -/
def keys (path : List String) : List JsonStep := path.map .key

theorem setPath_get_self {path : List String} (h : value.setPath path current = .ok next)
    (hne : path ≠ []) : next.get (keys path) = some value := by
  induction path generalizing current next with
  | nil => exact absurd rfl hne
  | cons k path ih =>
      rcases path with _ | ⟨l, path⟩
      · cases current with
        | obj ms =>
            cases h
            show ((Dict.set k value ms).lookup k).bind _ = _
            rw [lookup_set, if_pos rfl]
            rfl
        | _ => cases h
      · cases current with
        | obj ms =>
            obtain ⟨child, hchild, hnext⟩ := bind_eq_ok.1 h
            cases hnext
            show ((Dict.set k child ms).lookup k).bind _ = _
            rw [lookup_set, if_pos rfl]
            exact ih hchild (List.cons_ne_nil _ _)
        | _ => cases h

/-- Beside the path everything stays. -/
theorem setPath_get_of_beside {path : List String} (h : value.setPath path current = .ok next)
    {q : List JsonStep} (hq : ¬ q <+: keys path) (hpath : ¬ keys path <+: q) :
    next.get q = current.get q := by
  induction path generalizing current next q with
  | nil => exact absurd List.nil_prefix hpath
  | cons k path ih =>
      rcases q with _ | ⟨s, q⟩
      · exact absurd List.nil_prefix hq
      · have hother : ∀ child ms, s ≠ .key k →
            (JsonValue.obj (Dict.set k child ms)).get (s :: q) = (JsonValue.obj ms).get (s :: q) := by
          intro child ms hs
          rcases s with l | i
          · have hl : l ≠ k := fun hl => hs (hl ▸ rfl)
            rw [get_key, get_key, lookup_set, if_neg hl]
          · rfl
        rcases path with _ | ⟨l, path⟩
        · cases current with
          | obj ms =>
              cases h
              refine hother value ms fun hs => hpath ?_
              rw [hs]
              exact ⟨q, rfl⟩
          | _ => cases h
        · cases current with
          | obj ms =>
              obtain ⟨child, hchild, hnext⟩ := bind_eq_ok.1 h
              cases hnext
              by_cases hs : s = .key k
              · subst hs
                have hbelow := ih hchild (q := q)
                  (fun hp => hq ((List.prefix_cons_inj _).mpr hp))
                  (fun hp => hpath ((List.prefix_cons_inj _).mpr hp))
                rw [get_key, get_key, lookup_set, if_pos rfl]
                refine hbelow.trans ?_
                rcases ms.lookup k with _ | x
                · -- a fresh object has nothing below it
                  rcases q with _ | ⟨t, q⟩
                  · exact absurd ⟨_, rfl⟩ hq
                  · cases t <;> rfl
                · rfl
              · exact hother child ms hs
          | _ => cases h

/-- A value is set where all that stands on the way is objects. -/
theorem setPath_ok {path : List String} (hne : path ≠ [])
    (h : ∀ q, q <+: keys path → q ≠ keys path → ∀ x, current.get q = some x → x.isObj = true) :
    ∃ next, value.setPath path current = .ok next := by
  induction path generalizing current with
  | nil => exact absurd rfl hne
  | cons k path ih =>
      have hobj := h [] List.nil_prefix (List.cons_ne_nil _ _).symm current rfl
      cases current with
      | obj ms =>
          rcases path with _ | ⟨l, path⟩
          · exact ⟨_, rfl⟩
          -- the child is there already or starts as an empty object
          · obtain ⟨child, hchild⟩ := @ih ((ms.lookup k).getD (.obj [])) (List.cons_ne_nil _ _)
              fun q hq hneq x hx => by
                rcases hk : ms.lookup k with _ | y
                · rw [hk] at hx
                  rcases q with _ | ⟨t, q⟩
                  · cases hx
                    rfl
                  · cases t <;> cases hx
                · rw [hk] at hx
                  refine h (.key k :: q) ((List.prefix_cons_inj _).mpr hq)
                    (fun heq => hneq (List.cons.inj heq).2) x ?_
                  rw [get_key, hk]
                  exact hx
            refine ⟨.obj (Dict.set k child ms), ?_⟩
            show (value.setPath (l :: path) _ >>= _) = _
            rw [bind_of_eq_ok hchild]
            rfl
      | _ => cases hobj

end SetPath

end AstroPassport
