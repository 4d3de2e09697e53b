import AstroPassport.Conformance.Links
import AstroPassport.Conformance.Lossless

set_option autoImplicit false

/-! # Values nested by their paths

The inverse of `leaves` on paths of the map: values nested key by key, an object with the keys `0`
and `1` being an array. When no key stands twice in one object the nested value has the values as
its leaves again (`leaves_value`), each under its path (`lookup_entries`). All this is about keys;
of their texts it is used that no two keys have one text and that none has a separator in it.

A `Nested` value is built by inserting one entry after another, a path and what stands at it, and
its entries are the inserted ones in the order the objects give them (`entries_ofEntries`). Whether
it is proper, with no key twice in one object and no leaf where an object should be, is decided on
keys, once for each tree of the map. The rest is generic in what stands at the leaves, so that the
same tree carries the rows of a record, the paths of a response and the values themselves. -/

namespace AstroPassport

open JsonValue

/-! ## The texts of the keys -/

theorem hasSeparator_ofList (cs : List Char) :
    hasSeparator (String.ofList cs) = cs.any fun c => c == '/' || c == '~' := by
  rw [hasSeparator, String.toList_ofList]

theorem hasSeparator_text (k : Key) : hasSeparator k.text = false := by
  cases k <;> exact (hasSeparator_ofList _).trans (by decide)

/-- A text as a number. -/
def spelled (s : String) : ℕ := s.toList.foldl (fun n c => n * 128 + c.toNat) 1

theorem spelled_cons {cs : List Char} {texts : List String} {ns : List ℕ}
    (h : texts.map spelled = ns) :
    (String.ofList cs :: texts).map spelled =
      cs.foldl (fun n c => n * 128 + c.toNat) 1 :: ns := by
  rw [List.map_cons, h, spelled, String.toList_ofList]

theorem nodup_of_spelled {texts : List String} {ns : List ℕ} (h : texts.map spelled = ns)
    (hns : ns.Nodup) : texts.Nodup := by
  subst h
  exact hns.of_map _

theorem nodup_texts : ((List.range 121).map fun i => (Key.ofNat i).text).Nodup := by
  apply nodup_of_spelled
  · repeat' apply spelled_cons
    rfl
  · decide

theorem text_injective : Function.Injective Key.text := by
  intro k l h
  have hlt : ∀ k : Key, k.ctorIdx ∈ List.range 121 := by
    intro k
    rw [List.mem_range]
    cases k <;> decide
  have hindex : k.ctorIdx = l.ctorIdx := by
    refine List.inj_on_of_nodup_map nodup_texts (hlt k) (hlt l) ?_
    rw [Key.ofNat_ctorIdx, Key.ofNat_ctorIdx]
    exact h
  rw [← Key.ofNat_ctorIdx k, hindex, Key.ofNat_ctorIdx]

theorem texts_injective : Function.Injective Path.texts := List.map_injective_iff.2 text_injective

/-! ## Objects with such keys -/

/-- An object with keys of the map. -/
def keyed (ms : List (Key × JsonValue)) : JsonValue := .obj (ms.map fun m => (m.1.text, m.2))

theorem lookup_keyed {α : Type} (ms : List (Key × α)) (k : Key) :
    (ms.map fun m => (m.1.text, m.2)).lookup k.text = ms.lookup k := by
  induction ms with
  | nil => rfl
  | cons m ms ih =>
      rw [List.map_cons, List.lookup_cons, List.lookup_cons, ih]
      by_cases hk : k = m.1
      · rw [hk, beq_self_eq_true, beq_self_eq_true]
      · rw [beq_false_of_ne hk, beq_false_of_ne (text_injective.ne hk)]

theorem item_keyed {ms : List (Key × JsonValue)} {k : Key} {v : JsonValue}
    (h : ms.lookup k = some v) : (keyed ms).item k.text = .ok v := by
  rw [keyed, item, lookup_keyed, h]

theorem ofMembers_keyed {α : Type} {ms : List (Key × α)} (h : (ms.map Prod.fst).Nodup) :
    Dict.ofMembers (ms.map fun m => (m.1.text, m.2)) = ms.map fun m => (m.1.text, m.2) := by
  refine Dict.ofMembers_of_nodup ?_
  have htexts : (ms.map fun m => (m.1.text, m.2)).map Prod.fst =
      (ms.map Prod.fst).map Key.text := by
    rw [List.map_map, List.map_map]
    rfl
  rw [htexts]
  exact h.map text_injective

/-! ## Nesting -/

/-- At each key a value or what is below it. -/
inductive Nested (α : Type) where
  | nil
  | leaf (k : Key) (a : α) (rest : Nested α)
  | node (k : Key) (child rest : Nested α)

namespace Nested

variable {α : Type}

/-- The keys of the top, in order. -/
def keys : Nested α → List Key
  | nil => []
  | leaf k _ rest => k :: rest.keys
  | node k _ rest => k :: rest.keys

/-- The values with their paths. -/
def entries : Nested α → List (Path × α)
  | nil => []
  | leaf k a rest => ([k], a) :: rest.entries
  | node k child rest => (child.entries.map fun e => (k :: e.1, e.2)) ++ rest.entries

/-- A value in front, in the first object when it is the one that the path goes through. -/
def insert (a : α) : Path → Nested α → Nested α
  | [], t => t
  | [k], t => leaf k a t
  | k :: l :: p, node m child rest =>
    if k = m then node k (insert a (l :: p) child) rest
    else node k (insert a (l :: p) nil) (node m child rest)
  | k :: l :: p, t => node k (insert a (l :: p) nil) t

/-- The values at their paths; neighbours are in one object as far as their paths agree. -/
def ofEntries (es : List (Path × α)) : Nested α := es.foldr (fun e t => t.insert e.2 e.1) nil

theorem entries_insert (a : α) (p : Path) (hp : p ≠ []) (t : Nested α) :
    (t.insert a p).entries = (p, a) :: t.entries := by
  induction p generalizing t with
  | nil => exact absurd rfl hp
  | cons k p ih =>
      have hbelow := ih
      cases p with
      | nil => cases t <;> rfl
      | cons l p =>
          have hne : l :: p ≠ [] := List.cons_ne_nil l p
          cases t with
          | nil => simp [insert, entries, ih hne]
          | leaf m b rest => simp [insert, entries, ih hne]
          | node m child rest =>
              rw [insert]
              split
              · next heq => simp [entries, ih hne, heq]
              · simp [entries, ih hne]

theorem entries_ofEntries {es : List (Path × α)} (h : ∀ e ∈ es, e.1 ≠ []) :
    (ofEntries es).entries = es := by
  induction es with
  | nil => rfl
  | cons e es ih =>
      rw [List.forall_mem_cons] at h
      show (insert e.2 e.1 (ofEntries es)).entries = _
      rw [entries_insert _ _ h.1, ih h.2]

/-! ## The nested value -/

/-- The keys of an array of two. -/
def isPair (t : Nested α) : Bool := t.keys == [.zero, .one]

/-- The members, the value of a leaf being `f` of it. -/
def members (f : α → JsonValue) : Nested α → List (String × JsonValue)
  | nil => []
  | leaf k a rest => (k.text, f a) :: rest.members f
  | node k child rest =>
    (k.text, if child.isPair then .arr ((child.members f).map Prod.snd)
      else .obj (child.members f)) :: rest.members f

/-- Only objects at the keys. -/
def holdsObjects : Nested α → Bool
  | nil => true
  | leaf _ _ _ => false
  | node _ child rest => !child.isPair && rest.holdsObjects

/-- No key stands twice in one object, no object is empty, an array is one of objects. -/
def isProper : Nested α → Bool
  | nil => true
  | leaf k _ rest => decide (k ∉ rest.keys) && rest.isProper
  | node k child rest =>
    decide (k ∉ rest.keys) && decide (child.keys ≠ []) &&
      (!child.isPair || child.holdsObjects) && child.isProper && rest.isProper

/-- Nested values that are so. -/
abbrev Proper (α : Type) := {t : Nested α // t.isProper = true}

variable {f : α → JsonValue} {t : Nested α}

theorem members_keys (f : α → JsonValue) (t : Nested α) :
    (t.members f).map Prod.fst = t.keys.map Key.text := by
  induction t with
  | nil => rfl
  | leaf k a rest ih => rw [members, keys, List.map_cons, List.map_cons, ih]
  | node k child rest _ ih => rw [members, keys, List.map_cons, List.map_cons, ih]

theorem mem_keys_of_mem_entries {e : Path × α} (h : e ∈ t.entries) :
    ∃ k p, e.1 = k :: p ∧ k ∈ t.keys := by
  induction t with
  | nil => cases h
  | leaf k a rest ih =>
      rcases List.mem_cons.1 h with rfl | h
      · exact ⟨k, [], rfl, List.mem_cons_self ..⟩
      · obtain ⟨l, p, heq, hl⟩ := ih h
        exact ⟨l, p, heq, List.mem_cons_of_mem _ hl⟩
  | node k child rest _ ih =>
      rcases List.mem_append.1 h with h | h
      · obtain ⟨e', -, rfl⟩ := List.mem_map.1 h
        exact ⟨k, e'.1, rfl, List.mem_cons_self ..⟩
      · obtain ⟨l, p, heq, hl⟩ := ih h
        exact ⟨l, p, heq, List.mem_cons_of_mem _ hl⟩

theorem isProper_leaf {k : Key} {a : α} {rest : Nested α} :
    (leaf k a rest).isProper = true ↔ k ∉ rest.keys ∧ rest.isProper = true := by
  rw [isProper, Bool.and_eq_true, decide_eq_true_eq]

theorem isProper_node {k : Key} {child rest : Nested α} :
    (node k child rest).isProper = true ↔
      k ∉ rest.keys ∧ child.keys ≠ [] ∧ (child.isPair = true → child.holdsObjects = true) ∧
        child.isProper = true ∧ rest.isProper = true := by
  simp only [isProper, Bool.and_eq_true, decide_eq_true_eq, Bool.or_eq_true, Bool.not_eq_true',
    and_assoc]
  rw [← Bool.not_eq_true, ← imp_iff_not_or]

theorem nodup_keys (h : t.isProper = true) : t.keys.Nodup := by
  induction t with
  | nil => exact List.nodup_nil
  | leaf k a rest ih =>
      obtain ⟨hk, hrest⟩ := isProper_leaf.1 h
      exact List.nodup_cons.2 ⟨hk, ih hrest⟩
  | node k child rest _ ih =>
      obtain ⟨hk, -, -, -, hrest⟩ := isProper_node.1 h
      exact List.nodup_cons.2 ⟨hk, ih hrest⟩

/-- No path stands twice. -/
theorem nodup_entries (h : t.isProper = true) : (t.entries.map Prod.fst).Nodup := by
  induction t with
  | nil => exact List.nodup_nil
  | leaf k a rest ih =>
      obtain ⟨hk, hrest⟩ := isProper_leaf.1 h
      refine List.nodup_cons.2 ⟨fun hmem => ?_, ih hrest⟩
      obtain ⟨e, he, heq⟩ := List.mem_map.1 hmem
      obtain ⟨l, p, hpath, hl⟩ := mem_keys_of_mem_entries he
      rw [hpath] at heq
      cases heq
      exact hk hl
  | node k child rest ihchild ih =>
      obtain ⟨hk, -, -, hchild, hrest⟩ := isProper_node.1 h
      rw [entries, List.map_append, List.nodup_append]
      refine ⟨?_, ih hrest, ?_⟩
      · have hcons : (child.entries.map fun e => (k :: e.1, e.2)).map Prod.fst =
            (child.entries.map Prod.fst).map (k :: ·) := by
          rw [List.map_map, List.map_map]
          rfl
        rw [hcons]
        exact (ihchild hchild).map (List.cons_injective)
      -- a path through the child begins with `k`, which no later entry does
      · intro p hp q hq heq
        obtain ⟨_, he, rfl⟩ := List.mem_map.1 hp
        obtain ⟨_, -, rfl⟩ := List.mem_map.1 he
        obtain ⟨e, he, rfl⟩ := List.mem_map.1 hq
        obtain ⟨l, p, hpath, hl⟩ := mem_keys_of_mem_entries he
        rw [hpath] at heq
        cases heq
        exact hk hl

/-- The value under the path of an entry. -/
theorem lookup_entries (h : t.isProper = true) {p : Path} {a : α} (hmem : (p, a) ∈ t.entries) :
    (t.entries.map fun e => (e.1.texts, f e.2)).lookup p.texts = some (f a) := by
  refine lookup_of_mem ?_ (List.mem_map.2 ⟨(p, a), hmem, rfl⟩)
  have htexts : (t.entries.map fun e => (e.1.texts, f e.2)).map Prod.fst =
      (t.entries.map Prod.fst).map Path.texts := by
    rw [List.map_map, List.map_map]
    rfl
  rw [htexts]
  exact (nodup_entries h).map texts_injective

/-! ## Its leaves -/

/-- What stands at the key of a node. -/
def container (f : α → JsonValue) (child : Nested α) : JsonValue :=
  if child.isPair then .arr ((child.members f).map Prod.snd) else .obj (child.members f)

theorem isObj_of_mem_members (h : t.holdsObjects = true) {m : String × JsonValue}
    (hm : m ∈ t.members f) : m.2.isObj = true := by
  induction t with
  | nil => cases hm
  | leaf k a rest => cases h
  | node k child rest _ ih =>
      rw [holdsObjects, Bool.and_eq_true, Bool.not_eq_true'] at h
      rcases List.mem_cons.1 hm with rfl | hm
      · show JsonValue.isObj (if child.isPair then _ else _) = true
        rw [h.1]
        rfl
      · exact ih h.2 hm

theorem leaves_members (hne : t.keys ≠ []) :
    leaves (.obj (t.members f)) = leavesOfMembers (t.members f) := by
  have hnonempty : (t.members f).isEmpty = false := by
    cases t with
    | nil => exact absurd rfl hne
    | leaf k a rest => rfl
    | node k child rest => rfl
  have hfree : ((t.members f).any fun m => hasSeparator m.1) = false := by
    rw [List.any_eq_false]
    intro m hm
    have hname : m.1 ∈ (t.members f).map Prod.fst := List.mem_map_of_mem hm
    rw [members_keys] at hname
    obtain ⟨k, -, hk⟩ := List.mem_map.1 hname
    rw [← hk, hasSeparator_text]
    exact Bool.false_ne_true
  rw [leaves, hnonempty, hfree]
  rfl

/-- An array has the leaves of the object with its indices for keys. -/
theorem leaves_container (hne : t.keys ≠ []) (hobjects : t.isPair = true → t.holdsObjects = true) :
    leaves (t.container f) = leavesOfMembers (t.members f) := by
  unfold container
  split
  · next hpair =>
      -- a pair is written as an array, whose items are indexed by the same two keys
      have hkeys : t.keys = [.zero, .one] := beq_iff_eq.1 hpair
      have hall : ((t.members f).map Prod.snd).all isObj = true := by
        rw [List.all_map, List.all_eq_true]
        exact fun m hm => isObj_of_mem_members (hobjects hpair) hm
      have hnames := members_keys f t
      rw [hkeys] at hnames
      obtain ⟨m, n, hmembers⟩ := List.length_eq_two.1 (show (t.members f).length = 2 by
        rw [← List.length_map (f := Prod.fst), hnames]
        rfl)
      rw [hmembers] at hnames hall ⊢
      have hindices : indexMembers 0 ([m, n].map Prod.snd) = [m, n] := by
        obtain ⟨k, v⟩ := m
        obtain ⟨l, w⟩ := n
        obtain ⟨rfl, rfl⟩ : k = "0" ∧ l = "1" := by
          simpa [Key.text] using hnames
        rfl
      have hany : ([m, n].map Prod.snd).any isObj = true := by
        rw [List.all_eq_true] at hall
        rw [List.any_eq_true]
        exact ⟨m.2, List.mem_cons_self .., hall m.2 (List.mem_cons_self ..)⟩
      rw [leaves_arr hany hall, hindices, ← hmembers]
      exact leaves_members hne
  · exact leaves_members hne

/-- The nested value has the values at their paths for leaves. -/
theorem leavesOfMembers_members (hf : ∀ a, (f a).isPlain = true) (h : t.isProper = true) :
    leavesOfMembers (t.members f) = .ok (t.entries.map fun e => (e.1.texts, f e.2)) := by
  induction t with
  | nil => rfl
  | leaf k a rest ih =>
      rw [members, leavesOfMembers, leaves_of_isPlain (hf a), ih (isProper_leaf.1 h).2]
      rfl
  | node k child rest ihchild ih =>
      obtain ⟨-, hne, hobjects, hchild, hrest⟩ := isProper_node.1 h
      have hleaves := leaves_container (f := f) hne hobjects
      rw [ihchild hchild] at hleaves
      show leavesOfMembers ((k.text, child.container f) :: rest.members f) = _
      rw [leavesOfMembers, hleaves, ih hrest, entries, List.map_append, List.map_map]
      show Except.ok _ = _
      rw [Flat.within, List.map_map]
      rfl

theorem leaves_value (hf : ∀ a, (f a).isPlain = true) (h : t.isProper = true) (hne : t.keys ≠ []) :
    leaves (.obj (t.members f)) = .ok (t.entries.map fun e => (e.1.texts, f e.2)) := by
  rw [leaves_members hne, leavesOfMembers_members hf h]

/-! ## Its names -/

theorem distinct_of_isPlain {v : JsonValue} (h : v.isPlain = true) : v.distinct = true := by
  cases v with
  | arr items =>
      refine distinctItems_iff.2 fun x hx => ?_
      have hscalar := List.all_eq_true.1 h x hx
      cases x <;> first | rfl | cases hscalar
  | obj ms => cases h
  | _ => rfl

theorem distinct_members (hf : ∀ a, (f a).isPlain = true) (h : t.isProper = true) :
    (JsonValue.obj (t.members f)).distinct = true := by
  rw [distinct_obj_iff, members_keys]
  refine ⟨(nodup_keys h).map text_injective, ?_⟩
  induction t with
  | nil => exact fun m hm => by cases hm
  | leaf k a rest ih =>
      rw [members, List.forall_mem_cons]
      exact ⟨distinct_of_isPlain (hf a), ih (isProper_leaf.1 h).2⟩
  | node k child rest ihchild ih =>
      obtain ⟨-, -, -, hchild, hrest⟩ := isProper_node.1 h
      rw [members, List.forall_mem_cons]
      refine ⟨?_, ih hrest⟩
      dsimp only
      split
      · refine distinctItems_iff.2 fun v hv => ?_
        obtain ⟨m, hm, rfl⟩ := List.mem_map.1 hv
        exact ihchild hchild m hm
      · rw [distinct_obj_iff, members_keys]
        exact ⟨(nodup_keys hchild).map text_injective, ihchild hchild⟩

/-- The member at a key. -/
theorem item_members (h : t.isProper = true) {k : Key} {v : JsonValue}
    (hm : (k.text, v) ∈ t.members f) : (JsonValue.obj (t.members f)).item k.text = .ok v := by
  have hnodup : ((t.members f).map Prod.fst).Nodup := by
    rw [members_keys]
    exact (nodup_keys h).map text_injective
  rw [item, lookup_of_mem hnodup hm]

theorem exists_item (h : t.isProper = true) {k : Key} (hk : k ∈ t.keys) :
    ∃ v, (JsonValue.obj (t.members f)).item k.text = .ok v := by
  have hname : k.text ∈ (t.members f).map Prod.fst := by
    rw [members_keys]
    exact List.mem_map_of_mem hk
  obtain ⟨⟨_, v⟩, hm, rfl⟩ := List.mem_map.1 hname
  exact ⟨v, item_members h hm⟩

theorem members_node {k : Key} {child rest : Nested α} (h : child.isPair = false) :
    (node k child rest).members f = (k.text, .obj (child.members f)) :: rest.members f := by
  rw [members, h]
  rfl

end Nested

end AstroPassport
