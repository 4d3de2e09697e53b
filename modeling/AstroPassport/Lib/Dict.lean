import Mathlib.Data.List.Forall2
import Mathlib.Data.List.Lex
import Mathlib.Data.List.Nodup
import Mathlib.Data.List.Perm.Basic
import Mathlib.Data.List.Sort

set_option autoImplicit false

/-! # Dictionaries as member lists

An insertion-ordered dictionary is the list of its members. Setting a key replaces the value where
the key stands and appends a new key at the end, so building a dictionary from members keeps the
last value of a repeated key at the place of the first. `sortByKey` puts members in the order of a
sort key; with distinct sort keys the result depends on the set of members only, which is what makes
a sorted spelling canonical.

Most facts are up to permutation. Setting a key that is there, and one that is not, is a permutation
of consing the member (`set_perm_cons`, `set_perm_of_notMem`), and two sorted lists with the same
members are one list (`eq_of_perm_of_pairwise`). Looking a key up does not depend on the order once
the keys are distinct. Two lists whose elements are related one by one stay so when one of them is
permuted and the other suitably too (`exists_perm_forall₂`), which is how objects of two languages
are compared. -/

namespace AstroPassport

variable {κ μ α β : Type*}

/-- A member at the end keeps the names apart when its name is new. -/
theorem nodup_names_snoc {ms : List (κ × α)} {m : κ × α} :
    ((ms ++ [m]).map Prod.fst).Nodup ↔ (ms.map Prod.fst).Nodup ∧ m.1 ∉ ms.map Prod.fst := by
  rw [List.map_append, List.map_singleton, ← List.concat_eq_append, List.nodup_concat, and_comm]

namespace Dict

/-- Set a key: in place when it is there, at the end when it is not. -/
def set [DecidableEq κ] (k : κ) (v : α) : List (κ × α) → List (κ × α)
  | [] => [(k, v)]
  | m :: ms => if m.1 = k then (m.1, v) :: ms else m :: set k v ms

/-- The dictionary of a member list with repeated keys. -/
def ofMembers [DecidableEq κ] (ms : List (κ × α)) : List (κ × α) :=
  ms.foldl (fun d m => set m.1 m.2 d) []

theorem keys_set [DecidableEq κ] (k : κ) (v : α) (d : List (κ × α)) :
    (set k v d).map Prod.fst
      = if k ∈ d.map Prod.fst then d.map Prod.fst else d.map Prod.fst ++ [k] := by
  induction d with
  | nil => simp [set]
  | cons m ms ih =>
      by_cases h : m.1 = k
      · simp [set, h]
      · have h' : k ≠ m.1 := fun hk => h hk.symm
        simp only [set, h, if_false, List.map_cons, ih, List.mem_cons, h', false_or]
        split <;> rfl

theorem nodup_set [DecidableEq κ] (k : κ) (v : α) {d : List (κ × α)}
    (h : (d.map Prod.fst).Nodup) : ((set k v d).map Prod.fst).Nodup := by
  rw [keys_set]
  split
  · exact h
  · next hk => exact List.Nodup.append h (List.nodup_singleton k) (by simpa using hk)

theorem nodup_foldl_set [DecidableEq κ] (ms : List (κ × α)) {d : List (κ × α)}
    (h : (d.map Prod.fst).Nodup) :
    ((ms.foldl (fun d m => set m.1 m.2 d) d).map Prod.fst).Nodup := by
  induction ms generalizing d with
  | nil => exact h
  | cons m ms ih => exact ih (nodup_set m.1 m.2 h)

/-- A dictionary never holds a key twice. -/
theorem nodup_ofMembers [DecidableEq κ] (ms : List (κ × α)) :
    ((ofMembers ms).map Prod.fst).Nodup :=
  nodup_foldl_set ms List.nodup_nil

theorem map_set [DecidableEq κ] [DecidableEq μ] {f : κ → μ} (hf : Function.Injective f)
    (g : α → β) (k : κ) (v : α) (d : List (κ × α)) :
    (set k v d).map (Prod.map f g) = set (f k) (g v) (d.map (Prod.map f g)) := by
  induction d with
  | nil => rfl
  | cons m ms ih =>
      by_cases h : m.1 = k
      · simp [set, h]
      · have h' : f m.1 ≠ f k := fun hk => h (hf hk)
        simp [set, h, h', ih]

/-- Renaming keys injectively and mapping values commutes with building the dictionary. -/
theorem map_ofMembers [DecidableEq κ] [DecidableEq μ] {f : κ → μ} (hf : Function.Injective f)
    (g : α → β) (ms : List (κ × α)) :
    (ofMembers ms).map (Prod.map f g) = ofMembers (ms.map (Prod.map f g)) := by
  have hfold : ∀ (ms d : List (κ × α)),
      (ms.foldl (fun d m => set m.1 m.2 d) d).map (Prod.map f g)
        = (ms.map (Prod.map f g)).foldl (fun d m => set m.1 m.2 d) (d.map (Prod.map f g)) := by
    intro ms
    induction ms with
    | nil => intro d; rfl
    | cons m ms ih =>
        intro d
        simp only [List.foldl_cons, List.map_cons, ih, map_set hf, Prod.map_fst, Prod.map_snd]
  exact hfold ms []

theorem set_of_notMem [DecidableEq κ] {k : κ} {d : List (κ × α)} (h : k ∉ d.map Prod.fst)
    (v : α) : set k v d = d ++ [(k, v)] := by
  induction d with
  | nil => rfl
  | cons m ms ih =>
      simp only [List.map_cons, List.mem_cons, not_or] at h
      have h' : m.1 ≠ k := fun hk => h.1 hk.symm
      simp [set, h', ih h.2]

/-- Members with distinct keys are a dictionary already. -/
theorem ofMembers_of_nodup [DecidableEq κ] {ms : List (κ × α)} (h : (ms.map Prod.fst).Nodup) :
    ofMembers ms = ms := by
  have hfold : ∀ (ms d : List (κ × α)), ((d ++ ms).map Prod.fst).Nodup →
      ms.foldl (fun d m => set m.1 m.2 d) d = d ++ ms := by
    intro ms
    induction ms with
    | nil => intro d _; simp
    | cons m ms ih =>
        intro d hd
        have hk : m.1 ∉ d.map Prod.fst := by
          rw [List.map_append, List.map_cons, List.nodup_append] at hd
          intro hmem
          exact hd.2.2 m.1 hmem m.1 (List.mem_cons_self ..) rfl
        rw [List.foldl_cons, set_of_notMem hk, ih]
        · simp
        · simpa using hd
  simpa [ofMembers] using hfold ms [] (by simpa using h)

/-- Setting a key that is there changes one member, whatever the order. -/
theorem set_perm_cons [DecidableEq κ] {k : κ} {w : α} {d rest : List (κ × α)}
    (h : d.Perm ((k, w) :: rest)) (hnodup : (d.map Prod.fst).Nodup) (v : α) :
    (set k v d).Perm ((k, v) :: rest) := by
  induction d generalizing rest with
  | nil => exact absurd h.length_eq (by simp)
  | cons m ms ih =>
      rw [List.map_cons, List.nodup_cons] at hnodup
      by_cases hk : m.1 = k
      · -- the key stands once, so this member is the one of the right-hand side
        have hm : m = (k, w) := by
          rcases List.mem_cons.mp (h.subset (List.mem_cons_self ..)) with heq | hmem
          · exact heq
          · have hnodup' : (((k, w) :: rest).map Prod.fst).Nodup :=
              (h.map Prod.fst).nodup_iff.mp (List.nodup_cons.mpr hnodup)
            rw [List.map_cons, List.nodup_cons] at hnodup'
            exact absurd (List.mem_map.mpr ⟨m, hmem, hk⟩) hnodup'.1
        subst hm
        rw [set, if_pos rfl]
        exact h.cons_inv.cons _
      · rw [set, if_neg hk]
        have hmem : m ∈ rest := by
          rcases List.mem_cons.mp (h.subset (List.mem_cons_self ..)) with heq | hmem
          · exact absurd (congrArg Prod.fst heq) hk
          · exact hmem
        obtain ⟨before, after, rfl⟩ := List.append_of_mem hmem
        have hrest : (before ++ m :: after).Perm (m :: (before ++ after)) := List.perm_middle
        have htail : ms.Perm ((k, w) :: (before ++ after)) :=
          (h.trans ((hrest.cons _).trans (.swap ..))).cons_inv
        exact ((ih htail hnodup.2).cons m).trans ((List.Perm.swap ..).trans (hrest.symm.cons _))

theorem set_perm_of_notMem [DecidableEq κ] {k : κ} {d : List (κ × α)} (h : k ∉ d.map Prod.fst)
    (v : α) : (set k v d).Perm ((k, v) :: d) := by
  rw [set_of_notMem h]
  exact List.perm_append_singleton _ _

/-- Take a key away. -/
def erase [DecidableEq κ] (k : κ) (d : List (κ × α)) : List (κ × α) :=
  d.filter fun m => decide (m.1 ≠ k)

theorem erase_perm_of_cons [DecidableEq κ] {k : κ} {v : α} {d rest : List (κ × α)}
    (h : d.Perm ((k, v) :: rest)) (hnotMem : k ∉ rest.map Prod.fst) : (erase k d).Perm rest := by
  refine (h.filter _).trans ?_
  rw [List.filter_cons_of_neg (by simp), List.filter_eq_self.mpr]
  intro m hm
  exact decide_eq_true fun hk => hnotMem (List.mem_map.mpr ⟨m, hm, hk⟩)

theorem set_subset [DecidableEq κ] (k : κ) (v : α) (d : List (κ × α)) :
    set k v d ⊆ (k, v) :: d := by
  induction d with
  | nil => simp [set]
  | cons m ms ih =>
      obtain ⟨k', v'⟩ := m
      by_cases h : k' = k
      · subst h
        simp [set]
      · have htail : set k v ms ⊆ (k, v) :: (k', v') :: ms := fun x hx => by
          rcases List.mem_cons.mp (ih hx) with rfl | hmem
          · exact List.mem_cons_self ..
          · exact List.mem_cons_of_mem _ (List.mem_cons_of_mem _ hmem)
        simpa [set, h] using htail

/-- A dictionary holds nothing but members it was built from. -/
theorem ofMembers_subset [DecidableEq κ] (ms : List (κ × α)) : ofMembers ms ⊆ ms := by
  have hfold : ∀ (ms d : List (κ × α)),
      ms.foldl (fun d m => set m.1 m.2 d) d ⊆ d ++ ms := by
    intro ms
    induction ms with
    | nil => intro d; simp
    | cons m ms ih =>
        intro d x hx
        rcases List.mem_append.mp (ih _ hx) with hset | hms
        · rcases List.mem_cons.mp (set_subset m.1 m.2 d hset) with rfl | hd
          · simp
          · exact List.mem_append_left _ hd
        · exact List.mem_append_right _ (List.mem_cons_of_mem _ hms)
  simpa [ofMembers] using hfold ms []

end Dict

/-! ## Sorted members -/

/-- Members in the order of a sort key. -/
def sortByKey [LinearOrder μ] (key : κ → μ) (ms : List (κ × α)) : List (κ × α) :=
  ms.mergeSort (fun m n => decide (key m.1 ≤ key n.1))

theorem sortByKey_perm [LinearOrder μ] (key : κ → μ) (ms : List (κ × α)) :
    (sortByKey key ms).Perm ms := List.mergeSort_perm _ _

theorem pairwise_sortByKey [LinearOrder μ] (key : κ → μ) (ms : List (κ × α)) :
    (sortByKey key ms).Pairwise (fun m n => key m.1 ≤ key n.1) := by
  have htrans : ∀ a b c : κ × α, decide (key a.1 ≤ key b.1) → decide (key b.1 ≤ key c.1) →
      decide (key a.1 ≤ key c.1) := by
    intro a b c hab hbc
    simp only [decide_eq_true_eq] at hab hbc ⊢
    exact hab.trans hbc
  have htotal : ∀ a b : κ × α, decide (key a.1 ≤ key b.1) || decide (key b.1 ≤ key a.1) := by
    intro a b
    simpa using le_total (key a.1) (key b.1)
  simpa [sortByKey] using List.pairwise_mergeSort htrans htotal ms

/-- With distinct sort keys, the sorted list depends on the members and not on their order. -/
theorem eq_of_perm_of_pairwise [LinearOrder μ] {key : κ → μ} {ms ns : List (κ × α)}
    (hperm : ms.Perm ns) (hnodup : (ms.map (key ∘ Prod.fst)).Nodup)
    (hms : ms.Pairwise (fun m n => key m.1 ≤ key n.1))
    (hns : ns.Pairwise (fun m n => key m.1 ≤ key n.1)) : ms = ns := by
  refine List.Perm.eq_of_pairwise ?_ hms hns hperm
  intro a b ha hb hab hba
  have hkey : (key ∘ Prod.fst) a = (key ∘ Prod.fst) b := le_antisymm hab hba
  exact List.inj_on_of_nodup_map hnodup ha (hperm.mem_iff.mpr hb) hkey

theorem sortByKey_eq_of_perm [LinearOrder μ] {key : κ → μ} {ms ns : List (κ × α)}
    (hperm : ms.Perm ns) (hnodup : (ms.map (key ∘ Prod.fst)).Nodup) :
    sortByKey key ms = sortByKey key ns := by
  have hperm' : (sortByKey key ms).Perm (sortByKey key ns) :=
    (sortByKey_perm key ms).trans (hperm.trans (sortByKey_perm key ns).symm)
  refine eq_of_perm_of_pairwise hperm' ?_ (pairwise_sortByKey key ms) (pairwise_sortByKey key ns)
  exact ((sortByKey_perm key ms).map _).nodup_iff.mpr hnodup

/-- Sorted members stay as they are. -/
theorem sortByKey_of_pairwise [LinearOrder μ] {key : κ → μ} {ms : List (κ × α)}
    (h : ms.Pairwise (fun m n => key m.1 ≤ key n.1)) : sortByKey key ms = ms :=
  List.mergeSort_of_pairwise (by simpa using h)

/-- Renaming keys to keys of the same order commutes with sorting. -/
theorem map_sortByKey [LinearOrder μ] {κ' ν : Type*} [LinearOrder ν] {key : κ → μ} {key' : κ' → ν}
    {f : κ → κ'} (h : ∀ k l, key k ≤ key l ↔ key' (f k) ≤ key' (f l)) (g : α → β)
    (ms : List (κ × α)) :
    (sortByKey key ms).map (Prod.map f g) = sortByKey key' (ms.map (Prod.map f g)) := by
  refine List.map_mergeSort fun m _ n _ => ?_
  simp only [Prod.map_fst, h]

/-! ## Matching two lists element by element, up to order -/

/-- A reordering of the right-hand list is a reordering of the left-hand one. -/
theorem exists_perm_forall₂ {R : α → β → Prop} {xs : List α} {ys zs : List β}
    (h : List.Forall₂ R xs ys) (hp : ys.Perm zs) :
    ∃ ws, xs.Perm ws ∧ List.Forall₂ R ws zs := by
  have hcomp : Relation.Comp (List.Forall₂ R) List.Perm xs zs := ⟨ys, h, hp⟩
  rw [List.forall₂_comp_perm_eq_perm_comp_forall₂] at hcomp
  exact hcomp

/-- A reordering of the left-hand list is a reordering of the right-hand one. -/
theorem exists_forall₂_perm {R : α → β → Prop} {xs ws : List α} {ys : List β}
    (h : List.Forall₂ R xs ys) (hp : xs.Perm ws) :
    ∃ zs, List.Forall₂ R ws zs ∧ ys.Perm zs := by
  obtain ⟨zs, hperm, hzs⟩ := exists_perm_forall₂ h.flip hp
  exact ⟨zs, hzs.flip, hperm⟩

/-! ## Finding members -/

/-- With distinct keys a member is found by its key. -/
theorem lookup_of_mem [BEq κ] [LawfulBEq κ] {ms : List (κ × α)} {k : κ} {v : α}
    (hnodup : (ms.map Prod.fst).Nodup) (h : (k, v) ∈ ms) : ms.lookup k = some v := by
  induction ms with
  | nil => cases h
  | cons m ms ih =>
      obtain ⟨l, w⟩ := m
      rw [List.map_cons, List.nodup_cons] at hnodup
      rcases List.mem_cons.mp h with heq | hmem
      · cases heq
        exact List.lookup_cons_self
      · have hne : (k == l) = false := by
          rw [beq_eq_false_iff_ne]
          rintro rfl
          exact hnodup.1 (List.mem_map.mpr ⟨_, hmem, rfl⟩)
        rw [List.lookup_cons, hne]
        exact ih hnodup.2 hmem

theorem mem_of_lookup [BEq κ] [LawfulBEq κ] {ms : List (κ × α)} {k : κ} {v : α}
    (h : ms.lookup k = some v) : (k, v) ∈ ms := by
  obtain ⟨before, after, rfl, -⟩ := List.lookup_eq_some_iff.mp h
  exact List.mem_append_right _ (List.mem_cons_self ..)

/-- Setting a key is seen at that key, and nowhere else. -/
theorem Dict.lookup_set [DecidableEq κ] [BEq κ] [LawfulBEq κ] (k l : κ) (v : α) (d : List (κ × α)) :
    (Dict.set k v d).lookup l = if l = k then some v else d.lookup l := by
  induction d with
  | nil => by_cases h : l = k <;> simp [Dict.set, List.lookup_cons, h, beq_false_of_ne]
  | cons m ms ih =>
      obtain ⟨n, w⟩ := m
      by_cases hn : n = k
      · subst hn
        by_cases h : l = n <;> simp [Dict.set, List.lookup_cons, h, beq_false_of_ne]
      · by_cases h : l = n
        · subst h
          simp [Dict.set, hn]
        · simp [Dict.set, List.lookup_cons, hn, ih, beq_false_of_ne h]

/-- Setting a key to the value it has changes nothing. -/
theorem Dict.set_of_lookup [DecidableEq κ] [BEq κ] [LawfulBEq κ] {k : κ} {v : α} {d : List (κ × α)}
    (h : d.lookup k = some v) : Dict.set k v d = d := by
  induction d with
  | nil => cases h
  | cons m ms ih =>
      obtain ⟨n, w⟩ := m
      by_cases hn : n = k
      · subst hn
        rw [List.lookup_cons_self, Option.some.injEq] at h
        simp [Dict.set, h]
      · rw [List.lookup_cons, beq_false_of_ne fun hk => hn hk.symm] at h
        simp [Dict.set, hn, ih h]

/-- A dictionary with no names but expected ones, and the expected value at each, is what is
    expected in some order. -/
theorem perm_of_lookup [BEq κ] [LawfulBEq κ] {ms expected : List (κ × α)}
    (hms : (ms.map Prod.fst).Nodup) (hexpected : (expected.map Prod.fst).Nodup)
    (hnames : ∀ m ∈ ms, m.1 ∈ expected.map Prod.fst)
    (hvalues : ∀ m ∈ expected, ms.lookup m.1 = some m.2) : ms.Perm expected := by
  rw [List.perm_ext_iff_of_nodup hms.of_map hexpected.of_map]
  intro m
  refine ⟨fun hm => ?_, fun hm => mem_of_lookup (hvalues m hm)⟩
  obtain ⟨n, hn, hkey⟩ := List.mem_map.mp (hnames m hm)
  have hvalue := hvalues n hn
  rw [hkey, lookup_of_mem hms hm] at hvalue
  obtain rfl : m = n := Prod.ext hkey.symm (Option.some.inj hvalue)
  exact hn

/-- Members in another order have the same value at each key. -/
theorem value_eq_of_perm [BEq κ] [LawfulBEq κ] {ms ns : List (κ × α)} {k : κ} {v w : α}
    (hperm : ms.Perm ns) (hnodup : (ns.map Prod.fst).Nodup) (hv : (k, v) ∈ ms) (hw : (k, w) ∈ ns) :
    v = w := by
  have h := lookup_of_mem hnodup (hperm.subset hv)
  rw [lookup_of_mem hnodup hw] at h
  exact (Option.some.inj h).symm

end AstroPassport
