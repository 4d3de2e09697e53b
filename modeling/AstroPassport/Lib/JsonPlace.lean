import AstroPassport.Lib.Schema
import Mathlib.Data.List.Infix

set_option autoImplicit false

/-! # Places in JSON values

A place in a value is a path of member names and item indices. Two values are the same up to the
order of their members when they agree at every place (`Same`). A value that has its leaves at a
given list of places and nothing beside them is determined, up to that order, by what it has there
(`same_of_covers`).

The relation is defined by looking, not by permuting members: at each place the two values have the
same head, that is the same constructor and, for a scalar, the same scalar. It is then plainly an
equivalence, and for values with distinct names it is what permuting members comes to (`Same.obj`,
`same_obj`). A leaf is a scalar or an array of scalars; a list of places covers a value when there
is a leaf at each and every member lies on the way to one (`Covers`). The places below a member are
those of its value with the name in front (`under`). -/

namespace AstroPassport

/-- A step into a value: to a member of an object or to an item of an array. -/
inductive JsonStep where
  | key (name : String)
  | index (i : ℕ)
  deriving DecidableEq

/-- What stands at a place, without what is inside it. -/
inductive JsonHead where
  | null
  | bool (b : Bool)
  | int (n : ℤ)
  | float (x : Binary64)
  | str (s : String)
  | arr
  | obj
  deriving DecidableEq

/-- What a step leads into. -/
def JsonStep.head : JsonStep → JsonHead
  | .key _ => .obj
  | .index _ => .arr

namespace JsonValue

section Induction

variable {P : JsonValue → Prop} (null : P .null) (bool : ∀ b, P (.bool b)) (int : ∀ n, P (.int n))
  (float : ∀ x, P (.float x)) (str : ∀ s, P (.str s)) (arr : ∀ xs, (∀ x ∈ xs, P x) → P (.arr xs))
  (obj : ∀ ms, (∀ m ∈ ms, P m.2) → P (.obj ms))

include null bool int float str arr obj

/-- Induction over a value, with the hypothesis for every item and every member. -/
@[elab_as_elim]
theorem induction_on (v : JsonValue) : P v :=
  @JsonValue.rec P (fun xs => ∀ x ∈ xs, P x) (fun ms => ∀ m ∈ ms, P m.2) (fun m => P m.2)
    null bool int float str arr obj
    (fun _ h => by cases h)
    (fun _ _ hx hxs => List.forall_mem_cons.mpr ⟨hx, hxs⟩)
    (fun _ h => by cases h)
    (fun _ _ hm hms => List.forall_mem_cons.mpr ⟨hm, hms⟩)
    (fun _ _ h => h) v

end Induction

/-- A conjunction along a list, given by its equations. -/
theorem forall_mem_of_cons {α : Type} {p : α → Bool} {f : List α → Bool} (hnil : f [] = true)
    (hcons : ∀ x xs, f (x :: xs) = (p x && f xs)) {xs : List α} :
    f xs = true ↔ ∀ x ∈ xs, p x = true := by
  induction xs with
  | nil => exact ⟨fun _ => nofun, fun _ => hnil⟩
  | cons x xs ih => rw [hcons, Bool.and_eq_true, ih, List.forall_mem_cons]

/-- A map along a list, given by its equations. -/
theorem eq_map_of_cons {α β : Type} {g : α → β} {f : List α → List β} (hnil : f [] = [])
    (hcons : ∀ x xs, f (x :: xs) = g x :: f xs) (xs : List α) : f xs = xs.map g := by
  induction xs with
  | nil => exact hnil
  | cons x xs ih => rw [hcons, ih, List.map_cons]

/-- The value with what is below it forgotten. -/
def head : JsonValue → JsonHead
  | .null => .null
  | .bool b => .bool b
  | .int n => .int n
  | .float x => .float x
  | .str s => .str s
  | .arr _ => .arr
  | .obj _ => .obj

/-- The value one step below. -/
def child : JsonStep → JsonValue → Option JsonValue
  | .key k, .obj ms => ms.lookup k
  | .index i, .arr items => items[i]?
  | _, _ => none

/-- The value at a place. -/
def get : List JsonStep → JsonValue → Option JsonValue
  | [], v => some v
  | s :: p, v => (v.child s).bind (get p)

@[simp]
theorem get_nil (v : JsonValue) : v.get [] = some v := rfl

theorem get_cons (s : JsonStep) (p : List JsonStep) (v : JsonValue) :
    v.get (s :: p) = (v.child s).bind (get p) := rfl

/-- The first step of a way. -/
theorem get_step {s : JsonStep} {p : List JsonStep} {v w x : JsonValue} (hw : v.child s = some w)
    (hx : w.get p = some x) : v.get (s :: p) = some x := by
  rw [get_cons, hw, Option.bind_some, hx]

@[simp]
theorem get_key (k : String) (p : List JsonStep) (ms : List (String × JsonValue)) :
    (obj ms).get (.key k :: p) = (ms.lookup k).bind (get p) := rfl

@[simp]
theorem get_index (i : ℕ) (p : List JsonStep) (items : List JsonValue) :
    (arr items).get (.index i :: p) = items[i]?.bind (get p) := rfl

theorem get_append (p q : List JsonStep) (v : JsonValue) :
    v.get (p ++ q) = (v.get p).bind (get q) := by
  induction p generalizing v with
  | nil => rfl
  | cons s p ih =>
      rw [List.cons_append, get_cons, get_cons, Option.bind_assoc]
      exact Option.bind_congr fun x _ => ih x

/-- A step can be taken from one kind of value only. -/
theorem head_of_child {s : JsonStep} {v x : JsonValue} (h : v.child s = some x) :
    v.head = s.head := by
  rcases s with k | i <;> cases v <;> first | rfl | cases h

/-! ## Values up to the order of members -/

/-- Equal but for the order of the members: the values agree at every place. -/
def Same (v w : JsonValue) : Prop := ∀ p, (v.get p).map head = (w.get p).map head

namespace Same

variable {v w u : JsonValue}

theorem refl (v : JsonValue) : Same v v := fun _ => rfl

theorem symm (h : Same v w) : Same w v := fun p => (h p).symm

theorem trans (h : Same v w) (h' : Same w u) : Same v u := fun p => (h p).trans (h' p)

theorem head_eq (h : Same v w) : v.head = w.head := Option.some.inj (h [])

theorem child {s : JsonStep} {x : JsonValue} (h : Same v w) (hx : v.child s = some x) :
    ∃ y, w.child s = some y ∧ Same x y := by
  have hsome := h [s]
  simp only [get_cons, hx, Option.bind_some, get_nil, Option.map_some] at hsome
  rcases hy : w.child s with _ | y
  · rw [hy] at hsome
    cases hsome
  · refine ⟨y, rfl, fun p => ?_⟩
    have hp := h (s :: p)
    rwa [get_cons, get_cons, hx, hy] at hp

theorem child_eq_none {s : JsonStep} (h : Same v w) (hv : v.child s = none) : w.child s = none := by
  by_contra hne
  obtain ⟨y, hy⟩ := Option.ne_none_iff_exists'.mp hne
  obtain ⟨x, hx, -⟩ := h.symm.child hy
  rw [hv] at hx
  cases hx

end Same

/-- The names of an object, with the values under them up to the order of members. -/
def SameMembers (ms ns : List (String × JsonValue)) : Prop := Same (.obj ms) (.obj ns)

/-- What is the same as an object is an object. -/
theorem Same.obj {ms : List (String × JsonValue)} {w : JsonValue} (h : Same (.obj ms) w) :
    ∃ ns, w = .obj ns ∧ SameMembers ms ns := by
  have hhead := h.head_eq
  cases w with
  | obj ns => exact ⟨ns, rfl, h⟩
  | _ => cases hhead

/-- What is the same as an array is an array of the same items. -/
theorem Same.arr {xs : List JsonValue} {w : JsonValue} (h : Same (.arr xs) w) :
    ∃ ys, w = .arr ys ∧ List.Forall₂ Same xs ys := by
  have hhead := h.head_eq
  cases w with
  | arr ys =>
      refine ⟨ys, rfl, List.forall₂_iff_get.mpr ⟨?_, fun i hi hi' => ?_⟩⟩
      · refine Nat.le_antisymm ?_ ?_
        · exact List.getElem?_eq_none_iff.mp <|
            h.symm.child_eq_none (s := .index ys.length) (List.getElem?_eq_none le_rfl)
        · exact List.getElem?_eq_none_iff.mp <|
            h.child_eq_none (s := .index xs.length) (List.getElem?_eq_none le_rfl)
      · obtain ⟨y, hy, hsame⟩ := h.child (s := .index i) (List.getElem?_eq_getElem hi)
        have hyi : ys[i]? = some y := hy
        rw [List.getElem?_eq_getElem hi'] at hyi
        cases hyi
        exact hsame
  | _ => cases hhead

/-- Objects are the same when they have the same names with the same values. -/
theorem same_obj {ms ns : List (String × JsonValue)}
    (h : ∀ k, Option.Rel Same (ms.lookup k) (ns.lookup k)) : Same (obj ms) (obj ns) := by
  intro p
  rcases p with _ | ⟨k | i, p⟩
  · rfl
  · have hk := h k
    rw [get_key, get_key]
    generalize ms.lookup k = x, ns.lookup k = y at hk
    rcases hk with hxy | _
    · exact hxy p
    · rfl
  · rfl

/-- The values under one name of objects that are the same. -/
theorem Same.rel {ms ns : List (String × JsonValue)} (h : SameMembers ms ns) (k : String) :
    Option.Rel Same (ms.lookup k) (ns.lookup k) := by
  rcases hx : ms.lookup k with _ | x
  · have hy : ns.lookup k = none := h.child_eq_none (s := .key k) hx
    rw [hy]
    exact .none
  · obtain ⟨y, hy, hxy⟩ := h.child (s := .key k) hx
    have hy : ns.lookup k = some y := hy
    rw [hy]
    exact .some hxy

theorem same_pair {x y v w : JsonValue} (hx : Same x v) (hy : Same y w) :
    Same (arr [x, y]) (arr [v, w]) := by
  intro p
  rcases p with _ | ⟨k | i, p⟩
  · rfl
  · rfl
  · rcases i with _ | _ | i
    · exact hx p
    · exact hy p
    · rfl

/-- No array and no object. -/
def isScalar : JsonValue → Bool
  | .arr _ => false
  | .obj _ => false
  | _ => true

/-- A scalar is the same as itself only. -/
theorem Same.eq_of_isScalar {v w : JsonValue} (h : Same v w) (hv : v.isScalar = true) : w = v := by
  have hhead := h.head_eq
  cases v <;> cases w <;> simp_all [head, isScalar]

/-! ## Distinct names -/

mutual

/-- No object has a name twice. -/
def distinct : JsonValue → Bool
  | .arr items => distinctItems items
  | .obj ms => decide (ms.map Prod.fst).Nodup && distinctMembers ms
  | _ => true

/-- In no object below the items a name occurs twice. -/
def distinctItems : List JsonValue → Bool
  | [] => true
  | v :: items => v.distinct && distinctItems items

/-- In no object below the members a name occurs twice. -/
def distinctMembers : List (String × JsonValue) → Bool
  | [] => true
  | (_, v) :: ms => v.distinct && distinctMembers ms

end

theorem distinctItems_iff {items : List JsonValue} :
    distinctItems items = true ↔ ∀ v ∈ items, v.distinct = true :=
  forall_mem_of_cons rfl fun _ _ => rfl

theorem distinct_obj_iff {ms : List (String × JsonValue)} :
    (obj ms).distinct = true ↔ (ms.map Prod.fst).Nodup ∧ ∀ m ∈ ms, m.2.distinct = true := by
  show (decide (ms.map Prod.fst).Nodup && distinctMembers ms) = true ↔ _
  rw [Bool.and_eq_true, decide_eq_true_eq, forall_mem_of_cons rfl fun _ _ => rfl]

/-- The members of an object with distinct names have distinct names, and so on inside them. -/
theorem distinct_member {ms : List (String × JsonValue)} (h : (obj ms).distinct = true) {k : String}
    {v : JsonValue} (hv : ms.lookup k = some v) : v.distinct = true :=
  (distinct_obj_iff.1 h).2 _ (mem_of_lookup hv)

theorem distinct_child {v w : JsonValue} {k : String} (h : v.distinct = true)
    (hw : v.child (.key k) = some w) : w.distinct = true := by
  cases v with
  | obj ms => exact distinct_member h hw
  | _ => cases hw

theorem distinct_names {ms : List (String × JsonValue)} (h : (obj ms).distinct = true) :
    (ms.map Prod.fst).Nodup :=
  (distinct_obj_iff.1 h).1

/-! ## Leaves -/

/-- A value without an object in it: a scalar, or an array of scalars. -/
def isPlain : JsonValue → Bool
  | .arr items => items.all isScalar
  | v => v.isScalar

/-- A value has its leaves at some places, and nothing off the way to them. -/
structure Covers (places : List (List JsonStep)) (v : JsonValue) : Prop where
  leaf : ∀ p ∈ places, ∃ x, v.get p = some x ∧ x.isPlain = true
  onWay : ∀ q, (v.get q).isSome = true → ∃ p ∈ places, q <+: p ∨ p <+: q

theorem covers_plain {v : JsonValue} (h : v.isPlain = true) : Covers [[]] v where
  leaf p hp := by
    rw [List.mem_singleton.mp hp]
    exact ⟨v, rfl, h⟩
  onWay q _ := ⟨[], List.mem_singleton_self _, .inr List.nil_prefix⟩

/-- Values with their leaves at the same places and equal there are the same. -/
theorem same_of_covers {places : List (List JsonStep)} {v w : JsonValue} (hv : Covers places v)
    (hw : Covers places w) (h : ∀ p ∈ places, v.get p = w.get p) : Same v w := by
  -- what one value has at a place on the way to a leaf, the other one has as well
  have hhalf : ∀ {v w : JsonValue}, Covers places v → Covers places w →
      (∀ p ∈ places, v.get p = w.get p) → ∀ q x, v.get q = some x →
      (w.get q).map head = some x.head := by
    intro v w hv hw h q x hx
    obtain ⟨p, hp, hway⟩ := hv.onWay q (by rw [hx]; rfl)
    rcases hway with ⟨t, rfl⟩ | ⟨t, rfl⟩
    · rcases t with _ | ⟨s, t⟩
      · rw [List.append_nil] at hp
        rw [← h q hp, hx]
        rfl
      · obtain ⟨leaf, hleaf, -⟩ := hv.leaf _ hp
        have hleaf' := h _ hp ▸ hleaf
        rw [get_append, hx, Option.bind_some] at hleaf
        rw [get_append] at hleaf'
        obtain ⟨y, hy, hyleaf⟩ := Option.bind_eq_some_iff.mp hleaf'
        obtain ⟨_, hchild, -⟩ := Option.bind_eq_some_iff.mp hleaf
        obtain ⟨_, hchild', -⟩ := Option.bind_eq_some_iff.mp hyleaf
        rw [hy, Option.map_some, head_of_child hchild, head_of_child hchild']
    · rw [get_append] at hx ⊢
      rw [← h p hp, hx]
      rfl
  intro q
  rcases hx : v.get q with _ | x
  · rcases hy : w.get q with _ | y
    · rfl
    · have hback := hhalf hw hv (fun p hp => (h p hp).symm) q y hy
      rw [hx] at hback
      cases hback
  · exact (hhalf hv hw h q x hx).symm

/-- Places under members. -/
def under (members : List (String × List (List JsonStep))) : List (List JsonStep) :=
  members.flatMap fun m => m.2.map (.key m.1 :: ·)

theorem mem_under {members : List (String × List (List JsonStep))} {p : List JsonStep} :
    p ∈ under members ↔ ∃ m ∈ members, ∃ q ∈ m.2, p = .key m.1 :: q := by
  simp only [under, List.mem_flatMap, List.mem_map, eq_comm]

/-- An object with exactly some members, each with its leaves. -/
theorem covers_obj {members : List (String × List (List JsonStep))}
    {ms : List (String × JsonValue)} (hne : members ≠ [])
    (hnames : ∀ m ∈ ms, m.1 ∈ members.map Prod.fst)
    (hmembers : ∀ m ∈ members, ∃ x, ms.lookup m.1 = some x ∧ Covers m.2 x) :
    Covers (under members) (.obj ms) where
  leaf p hp := by
    obtain ⟨m, hm, q, hq, rfl⟩ := mem_under.1 hp
    obtain ⟨x, hx, hcovers⟩ := hmembers m hm
    rw [get_key, hx]
    exact hcovers.leaf q hq
  onWay q hq := by
    -- a way into a member goes on inside it
    have hchoose : ∀ m ∈ members, ∀ t, (∃ x, ms.lookup m.1 = some x ∧ (x.get t).isSome = true) →
        ∃ p ∈ under members, .key m.1 :: t <+: p ∨ p <+: .key m.1 :: t := by
      rintro m hm t ⟨x, hx, ht⟩
      obtain ⟨y, hy, hcovers⟩ := hmembers m hm
      rw [hx] at hy
      cases hy
      obtain ⟨p, hp, hway⟩ := hcovers.onWay t ht
      refine ⟨_, mem_under.2 ⟨m, hm, p, hp, rfl⟩, ?_⟩
      exact hway.imp (List.prefix_cons_inj _).mpr (List.prefix_cons_inj _).mpr
    rcases q with _ | ⟨s, t⟩
    · obtain ⟨m, hm⟩ := List.exists_mem_of_ne_nil _ hne
      obtain ⟨x, hx, -⟩ := hmembers m hm
      obtain ⟨p, hp, -⟩ := hchoose m hm [] ⟨x, hx, rfl⟩
      exact ⟨p, hp, .inl List.nil_prefix⟩
    · rcases s with k | i
      · rw [get_key, Option.isSome_bind] at hq
        rcases hx : ms.lookup k with _ | x
        · rw [hx] at hq
          cases hq
        · rw [hx] at hq
          obtain ⟨m, hm, hkm⟩ := List.mem_map.mp (hnames (k, x) (mem_of_lookup hx))
          subst hkm
          exact hchoose m hm t ⟨x, hx, hq⟩
      · cases hq

end JsonValue

/-- A JSON value as Python holds it: a dict has each key once. -/
structure PyJson where
  value : JsonValue
  distinct : value.distinct = true

end AstroPassport
