import AstroPassport.Canonical.Encode

set_option autoImplicit false

/-! # `canonical` is a canonical form

Three descriptions of what the encoder should do, in terms that do not mention it: which values have
a canonical spelling (`Canonicalizable`), when two values are one JSON value up to spelling
(`SameJson`), and what a value in normal form looks like (`PlainJson.Normalized`). The encoder
accepts exactly the first, identifies exactly the second, and its bytes load back as the third.

`canonical` is a normalisation followed by a printer, and the two are treated apart. For the
normalisation each constructor of a value has a lemma saying which values have that result, and
`normalize_eq_iff` is their induction over all values; objects need that sorting by the UTF-16 units
of distinct names decides the order (`sortByKey_eq_iff_perm`). The printer is injective and its
texts are read back (`utf8_print_injective`), which is why two values with the same bytes have the
same normal form. `canonical_isCanonicalForm` states the three descriptions at once. -/

namespace AstroPassport

variable (nfc : Nfc)

/-! ## Values with a canonical spelling -/

/-- No surrogate code point occurs. -/
def SurrogateFree (s : List CodePoint) : Prop := ∀ c ∈ s, ¬ (0xD800 ≤ c.val ∧ c.val < 0xE000)

/-- The form C of a string that has one. -/
def strForm (s : List CodePoint) : Option (List Char) := (scalars? s).map nfc.normalize

/-- Two keys have the same form C. -/
def SameKey (k l : PyKey) : Prop :=
  ∃ s t a, k = .str s ∧ l = .str t ∧ strForm nfc s = some a ∧ strForm nfc t = some a

mutual

/-- Numbers are finite, integral and safe, keys are strings, no string holds a surrogate, and no
    dictionary has two keys of the same form C. -/
def Canonicalizable : PyValue → Prop
  | .none => True
  | .bool _ => True
  | .int n => |n| ≤ maxSafeInteger
  | .float x => ∃ f n, x = .finite f ∧ f.value = (n : ℤ) ∧ |n| ≤ maxSafeInteger
  | .str s => SurrogateFree s
  | .list xs => itemsCanonicalizable xs
  | .dict ms => membersCanonicalizable ms ∧ ms.Pairwise fun m n => ¬ SameKey nfc m.1 n.1

/-- Every item of a list is one that `canonical` takes. -/
def itemsCanonicalizable : List PyValue → Prop
  | [] => True
  | x :: xs => Canonicalizable x ∧ itemsCanonicalizable xs

/-- Every key of a `dict` is a `str` without surrogates, and every value is one that `canonical`
    takes. -/
def membersCanonicalizable : List (PyKey × PyValue) → Prop
  | [] => True
  | (k, v) :: ms =>
    (∃ s, k = .str s ∧ SurrogateFree s) ∧ Canonicalizable v ∧ membersCanonicalizable ms

end

variable {nfc}

theorem itemsCanonicalizable_iff {xs : List PyValue} :
    itemsCanonicalizable nfc xs ↔ ∀ x ∈ xs, Canonicalizable nfc x := by
  induction xs with
  | nil => simp [itemsCanonicalizable]
  | cons x xs ih => rw [itemsCanonicalizable, ih, List.forall_mem_cons]

theorem membersCanonicalizable_iff {ms : List (PyKey × PyValue)} :
    membersCanonicalizable nfc ms ↔
      ∀ m ∈ ms, (∃ s, m.1 = .str s ∧ SurrogateFree s) ∧ Canonicalizable nfc m.2 := by
  induction ms with
  | nil => simp [membersCanonicalizable]
  | cons m ms ih =>
      obtain ⟨k, v⟩ := m
      rw [membersCanonicalizable, ih, List.forall_mem_cons, and_assoc]

theorem surrogateFree_iff {s : List CodePoint} : SurrogateFree s ↔ ∃ cs, scalars? s = some cs := by
  rw [SurrogateFree, ← scalars?_isSome, Option.isSome_iff_exists]

theorem strForm_eq_some {s : List CodePoint} {t : List Char} :
    strForm nfc s = some t ↔ normalizeStr nfc s = .ok t := by
  simp [strForm, normalizeStr_eq_ok]

theorem exists_normalizeStr (nfc : Nfc) {s : List CodePoint} :
    (∃ t, normalizeStr nfc s = .ok t) ↔ SurrogateFree s := by
  simp [normalizeStr_eq_ok, surrogateFree_iff]

/-- Keys with a form C are the same when the forms are. -/
theorem sameKey_iff {k l : PyKey} {a b : List Char} (hk : normalizeKey nfc k = .ok a)
    (hl : normalizeKey nfc l = .ok b) : a = b ↔ SameKey nfc k l := by
  obtain ⟨s, rfl, hs⟩ := normalizeKey_eq_ok.1 hk
  obtain ⟨t, rfl, ht⟩ := normalizeKey_eq_ok.1 hl
  rw [← strForm_eq_some] at hs ht
  constructor
  · rintro rfl
    exact ⟨s, t, a, rfl, rfl, hs, ht⟩
  · rintro ⟨s', t', c, hs', ht', hc, hd⟩
    cases hs'
    cases ht'
    rw [hs] at hc
    rw [ht] at hd
    exact Option.some.inj (hc.trans hd.symm)

/-- The forms of keys are distinct exactly when no two keys are the same. -/
theorem nodup_forms_iff {ms : List (PyKey × PyValue)} {ns : List (List Char × PlainJson)}
    (h : List.Forall₂ (MemberNormal nfc) ms ns) :
    (ns.map Prod.fst).Nodup ↔ ms.Pairwise fun m n => ¬ SameKey nfc m.1 n.1 := by
  induction h with
  | nil => simp
  | @cons m n ms ns hm hms ih =>
      rw [List.map_cons, List.nodup_cons, List.pairwise_cons, ih]
      refine and_congr_left fun _ => ?_
      -- the head key against every later one
      constructor
      · intro hn m' hm' hsame
        obtain ⟨n', hn', hmn⟩ := exists_of_forall₂ hms m' hm'
        have heq : n.1 = n'.1 := (sameKey_iff hm.1 hmn.1).mpr hsame
        exact hn (List.mem_map.mpr ⟨n', hn', heq.symm⟩)
      · intro hm' hmem
        obtain ⟨n', hn', heq⟩ := List.mem_map.mp hmem
        obtain ⟨m', hmm, hmn⟩ := exists_of_forall₂ hms.flip n' hn'
        exact hm' m' hmm ((sameKey_iff hm.1 hmn.1).mp heq.symm)

/-- The encoder's normalisation succeeds exactly on the values with a canonical spelling. -/
theorem exists_normalize_iff (v : PyValue) :
    (∃ n, normalize nfc v = .ok n) ↔ Canonicalizable nfc v := by
  induction v with
  | none => simp [normalize, Canonicalizable]
  | bool b => simp [normalize, Canonicalizable]
  | int n => simp [normalize, normalizeInt_eq_ok, Canonicalizable]
  | float x =>
      simp only [normalize, normalizeFloat_eq_ok, Canonicalizable]
      constructor
      · rintro ⟨r, f, n, hx, hval, hle, -⟩
        exact ⟨f, n, hx, hval, hle⟩
      · rintro ⟨f, n, hx, hval, hle⟩
        exact ⟨_, f, n, hx, hval, hle, rfl⟩
  | str s =>
      rw [Canonicalizable, ← exists_normalizeStr nfc]
      simp [normalize]
  | list xs ih =>
      rw [Canonicalizable, itemsCanonicalizable_iff]
      simp only [normalize_list_eq_ok]
      constructor
      · rintro ⟨r, ns, hns, -⟩ x hx
        obtain ⟨n, -, hn⟩ := exists_of_forall₂ hns x hx
        exact (ih x hx).mp ⟨n, hn⟩
      · intro h
        obtain ⟨ns, hns⟩ := exists_forall₂ fun x hx => (ih x hx).mpr (h x hx)
        exact ⟨_, ns, hns, rfl⟩
  | dict ms ih =>
      rw [Canonicalizable, membersCanonicalizable_iff]
      simp only [normalize_dict_eq_ok]
      constructor
      · rintro ⟨r, ns, hns, hnodup, -⟩
        refine ⟨fun m hm => ?_, (nodup_forms_iff hns).mp hnodup⟩
        obtain ⟨n, -, hkey, hval⟩ := exists_of_forall₂ hns m hm
        obtain ⟨s, hs, hstr⟩ := normalizeKey_eq_ok.1 hkey
        exact ⟨⟨s, hs, (exists_normalizeStr nfc).mp ⟨n.1, hstr⟩⟩, (ih m hm).mp ⟨n.2, hval⟩⟩
      · rintro ⟨hms, hkeys⟩
        -- each member normalises on its own; the names are compared after all of them
        have hex : ∀ m ∈ ms, ∃ n, MemberNormal nfc m n := by
          intro m hm
          obtain ⟨⟨s, hs, hfree⟩, hval⟩ := hms m hm
          obtain ⟨k, hk⟩ := (exists_normalizeStr nfc).mpr hfree
          obtain ⟨n, hn⟩ := (ih m hm).mpr hval
          exact ⟨(k, n), normalizeKey_eq_ok.2 ⟨s, hs, hk⟩, hn⟩
        obtain ⟨ns, hns⟩ := exists_forall₂ hex
        exact ⟨_, ns, hns, (nodup_forms_iff hns).mpr hkeys, rfl⟩

/-! ## One JSON value up to spelling -/

/-- The exact value of a number. -/
def PyValue.number? : PyValue → Option ℚ
  | .int n => some n
  | .float (.finite f) => some f.value
  | _ => Option.none

variable (nfc)

mutual

/-- Two values are the same JSON value: numbers by value, strings and keys by form C, members in any
    order, everything else as it is. -/
inductive SameJson : PyValue → PyValue → Prop
  | none : SameJson .none .none
  | bool (b : Bool) : SameJson (.bool b) (.bool b)
  | num {v w : PyValue} {q : ℚ} : v.number? = some q → w.number? = some q → SameJson v w
  | str {s t : List CodePoint} {a : List Char} :
      strForm nfc s = some a → strForm nfc t = some a → SameJson (.str s) (.str t)
  | list {xs ys : List PyValue} : SameItems xs ys → SameJson (.list xs) (.list ys)
  | dict {ms ms' ns : List (PyKey × PyValue)} :
      SameMembers ms ms' → ms'.Perm ns → SameJson (.dict ms) (.dict ns)

/-- The same items in the same order. -/
inductive SameItems : List PyValue → List PyValue → Prop
  | nil : SameItems [] []
  | cons {x y : PyValue} {xs ys : List PyValue} :
      SameJson x y → SameItems xs ys → SameItems (x :: xs) (y :: ys)

/-- The same members in the same order. -/
inductive SameMembers : List (PyKey × PyValue) → List (PyKey × PyValue) → Prop
  | nil : SameMembers [] []
  | cons {k l : PyKey} {v w : PyValue} {ms ns : List (PyKey × PyValue)} :
      SameKey nfc k l → SameJson v w → SameMembers ms ns → SameMembers ((k, v) :: ms) ((l, w) :: ns)

end

variable {nfc}

theorem sameItems_iff {xs ys : List PyValue} :
    SameItems nfc xs ys ↔ List.Forall₂ (SameJson nfc) xs ys := by
  induction xs generalizing ys with
  | nil =>
      rw [List.forall₂_nil_left_iff]
      exact ⟨fun h => by cases h; rfl, fun h => by subst h; exact .nil⟩
  | cons x xs ih =>
      constructor
      · intro h
        cases h with
        | cons hx hxs => exact .cons hx (ih.mp hxs)
      · intro h
        cases h with
        | cons hx hxs => exact .cons hx (ih.mpr hxs)

/-- One member the same as another. -/
def SameMember (nfc : Nfc) (m n : PyKey × PyValue) : Prop :=
  SameKey nfc m.1 n.1 ∧ SameJson nfc m.2 n.2

theorem sameMembers_iff {ms ns : List (PyKey × PyValue)} :
    SameMembers nfc ms ns ↔ List.Forall₂ (SameMember nfc) ms ns := by
  induction ms generalizing ns with
  | nil =>
      rw [List.forall₂_nil_left_iff]
      exact ⟨fun h => by cases h; rfl, fun h => by subst h; exact .nil⟩
  | cons m ms ih =>
      constructor
      · intro h
        cases h with
        | cons hk hv hms => exact .cons ⟨hk, hv⟩ (ih.mp hms)
      · intro h
        cases h with
        | cons hm hms => exact .cons hm.1 hm.2 (ih.mpr hms)

/-- Only an integral safe number is normalised to an integer. -/
theorem normalize_number {v : PyValue} {q : ℚ} {n : PlainJson} (hq : v.number? = some q)
    (h : normalize nfc v = .ok n) : ∃ k : ℤ, n = .int k ∧ q = k := by
  cases v with
  | int m =>
      obtain ⟨-, rfl⟩ := normalizeInt_eq_ok.1 (by simpa only [normalize] using h)
      exact ⟨m, rfl, by simpa [PyValue.number?] using hq.symm⟩
  | float x =>
      obtain ⟨f, k, rfl, hval, -, rfl⟩ := normalizeFloat_eq_ok.1 (by simpa only [normalize] using h)
      exact ⟨k, rfl, by rw [← hval]; simpa [PyValue.number?] using hq.symm⟩
  | _ => simp [PyValue.number?] at hq

theorem number_of_normalize_int {v : PyValue} {k : ℤ} (h : normalize nfc v = .ok (.int k)) :
    v.number? = some (k : ℚ) := by
  cases v with
  | int m =>
      obtain ⟨-, hk⟩ := normalizeInt_eq_ok.1 (by simpa only [normalize] using h)
      cases hk
      rfl
  | float x =>
      obtain ⟨f, m, rfl, hval, -, hk⟩ := normalizeFloat_eq_ok.1 (by simpa only [normalize] using h)
      cases hk
      simp [PyValue.number?, hval]
  | none => simp [normalize] at h
  | bool b => simp [normalize] at h
  | str s => simp [normalize] at h
  | list xs => simp [normalize] at h
  | dict ms => simp [normalize] at h

theorem utf16beKey_injective : Function.Injective utf16beKey := by
  intro k l h
  apply utf16Encode_scalar_injective
  have h1 := bigEndian_lt_iff (utf16Encode (k.map scalar)) (utf16Encode (l.map scalar))
  have h2 := bigEndian_lt_iff (utf16Encode (l.map scalar)) (utf16Encode (k.map scalar))
  unfold utf16beKey at h
  rw [h] at h1 h2
  exact le_antisymm (not_lt.mp fun hlt => absurd (h2.mpr hlt) (lt_irrefl _))
    (not_lt.mp fun hlt => absurd (h1.mpr hlt) (lt_irrefl _))

theorem nodup_utf16beKey {ns : List (List Char × PlainJson)} (h : (ns.map Prod.fst).Nodup) :
    (ns.map (utf16beKey ∘ Prod.fst)).Nodup := by
  have := h.map utf16beKey_injective
  rwa [List.map_map] at this

theorem sortByKey_eq_iff_perm {ms ns : List (List Char × PlainJson)}
    (h : (ms.map Prod.fst).Nodup) :
    sortByKey utf16beKey ms = sortByKey utf16beKey ns ↔ ms.Perm ns := by
  constructor
  · intro heq
    exact (sortByKey_perm utf16beKey ms).symm.trans (heq ▸ sortByKey_perm utf16beKey ns)
  · intro hperm
    exact sortByKey_eq_of_perm hperm (nodup_utf16beKey h)

/-! ### Which values have a given result -/

theorem normalize_eq_null {w : PyValue} : normalize nfc w = .ok .null ↔ w = .none := by
  cases w <;> simp [normalize, normalizeInt_eq_ok, normalizeFloat_eq_ok]

theorem normalize_eq_bool {w : PyValue} {b : Bool} :
    normalize nfc w = .ok (.bool b) ↔ w = .bool b := by
  cases w <;> simp [normalize, normalizeInt_eq_ok, normalizeFloat_eq_ok]

theorem normalize_eq_str {w : PyValue} {t : List Char} :
    normalize nfc w = .ok (.str t) ↔ ∃ s, w = .str s ∧ normalizeStr nfc s = .ok t := by
  cases w <;> simp [normalize, normalizeInt_eq_ok, normalizeFloat_eq_ok]

theorem normalize_eq_arr {w : PyValue} {ns : List PlainJson} :
    normalize nfc w = .ok (.arr ns) ↔
      ∃ xs, w = .list xs ∧ List.Forall₂ (fun x n => normalize nfc x = .ok n) xs ns := by
  cases w <;> simp [normalize, normalizeInt_eq_ok, normalizeFloat_eq_ok, normalizeItems_eq_ok]

theorem normalize_eq_obj {w : PyValue} {r : List (List Char × PlainJson)} :
    normalize nfc w = .ok (.obj r) ↔
      ∃ ms ns, w = .dict ms ∧ List.Forall₂ (MemberNormal nfc) ms ns ∧
        (ns.map Prod.fst).Nodup ∧ r = sortByKey utf16beKey ns := by
  cases w with
  | dict ms => simp [normalize_dict_eq_ok]
  | _ => simp [normalize, normalizeInt_eq_ok, normalizeFloat_eq_ok]

/-- Normalised results are equal exactly when the values are the same JSON value. -/
theorem normalize_eq_iff (v : PyValue) : ∀ w n m, normalize nfc v = .ok n →
    normalize nfc w = .ok m → (n = m ↔ SameJson nfc v w) := by
  -- numbers compare by value, whichever of the two number types they are
  have number : ∀ {v w : PyValue} {q : ℚ} {n m : PlainJson}, v.number? = some q →
      normalize nfc v = .ok n → normalize nfc w = .ok m → (n = m ↔ SameJson nfc v w) := by
    intro v w q n m hq hv hw
    obtain ⟨k, rfl, rfl⟩ := normalize_number hq hv
    constructor
    · rintro rfl
      exact .num hq (number_of_normalize_int hw)
    · intro h
      have hw' : w.number? = some (k : ℚ) := by
        cases h <;> simp_all [PyValue.number?]
      obtain ⟨l, rfl, hkl⟩ := normalize_number hw' hw
      rw [Int.cast_injective hkl]
  induction v with
  | none =>
      intro w n m hv hw
      cases hv
      constructor
      · rintro rfl
        rw [normalize_eq_null.1 hw]
        exact .none
      · intro h
        cases h with
        | none => simpa [normalize] using hw
        | num hq _ => cases hq
  | bool b =>
      intro w n m hv hw
      cases hv
      constructor
      · rintro rfl
        rw [normalize_eq_bool.1 hw]
        exact .bool b
      · intro h
        cases h with
        | bool => simpa [normalize] using hw
        | num hq _ => cases hq
  | int k => exact fun w n m hv hw => number rfl hv hw
  | float x =>
      intro w n m hv hw
      obtain ⟨f, k, rfl, -, -, -⟩ := normalizeFloat_eq_ok.1 (by simpa only [normalize] using hv)
      exact number rfl hv hw
  | str s =>
      intro w n m hv hw
      obtain ⟨a, hs, rfl⟩ := map_eq_ok.1 (by simpa only [normalize] using hv)
      rw [← strForm_eq_some] at hs
      constructor
      · rintro rfl
        obtain ⟨t, rfl, ht⟩ := normalize_eq_str.1 hw
        exact .str hs (strForm_eq_some.2 ht)
      · intro h
        cases h with
        | str hs' ht =>
            rw [hs] at hs'
            cases hs'
            rw [strForm_eq_some] at ht
            simpa [normalize, ht] using hw
        | num hq _ => cases hq
  | list xs ih =>
      intro w n m hv hw
      obtain ⟨ns, hns, rfl⟩ := normalize_list_eq_ok.1 hv
      constructor
      · rintro rfl
        obtain ⟨ys, rfl, hys⟩ := normalize_eq_arr.1 hw
        exact .list (sameItems_iff.2 ((forall₂_result_eq_iff ih hns hys).mp rfl))
      · intro h
        cases h with
        | list hsame =>
            obtain ⟨ks, hks, rfl⟩ := normalize_list_eq_ok.1 hw
            rw [(forall₂_result_eq_iff ih hns hks).mpr (sameItems_iff.1 hsame)]
        | num hq _ => cases hq
  | dict ms ih =>
      intro w n m hv hw
      obtain ⟨ns, hns, hnodup, rfl⟩ := normalize_dict_eq_ok.1 hv
      have hmember : ∀ a ∈ ms, ∀ b p q, MemberNormal nfc a p → MemberNormal nfc b q →
          (p = q ↔ SameMember nfc a b) := by
        intro a ha b p q hp hq
        rw [Prod.ext_iff, sameKey_iff hp.1 hq.1, ih a ha b.2 p.2 q.2 hp.2 hq.2, SameMember]
      constructor
      · rintro rfl
        obtain ⟨ms₂, ns₂, rfl, hns₂, hnodup₂, hsort⟩ := normalize_eq_obj.1 hw
        have hperm := (sortByKey_eq_iff_perm hnodup).mp hsort
        obtain ⟨ms', hms', hmatch⟩ := exists_perm_forall₂ hns₂ hperm.symm
        have hsame := (forall₂_result_eq_iff hmember hns hmatch).mp rfl
        exact .dict (sameMembers_iff.2 hsame) hms'.symm
      · intro h
        cases h with
        | dict hsame hperm =>
            obtain ⟨ns₂, hns₂, hnodup₂, rfl⟩ := normalize_dict_eq_ok.1 hw
            obtain ⟨ns', hns', hperm'⟩ := exists_forall₂_perm hns₂ hperm.symm
            have heq := (forall₂_result_eq_iff hmember hns hns').mpr (sameMembers_iff.1 hsame)
            subst heq
            rw [(sortByKey_eq_iff_perm hnodup).mpr hperm'.symm]
        | num hq _ => cases hq

/-! ## Normal forms -/

mutual

/-- Integers are safe, strings and names are in form C, and names ascend strictly in the order of
    their UTF-16 units. -/
def PlainJson.Normalized (nfc : Nfc) : PlainJson → Prop
  | .null => True
  | .bool _ => True
  | .int n => |n| ≤ maxSafeInteger
  | .str s => nfc.normalize s = s
  | .arr xs => itemsNormalized nfc xs
  | .obj ms =>
    (ms.Pairwise fun m n => utf16beKey m.1 < utf16beKey n.1) ∧ membersNormalized nfc ms

/-- Every item is normalized. -/
def itemsNormalized (nfc : Nfc) : List PlainJson → Prop
  | [] => True
  | x :: xs => x.Normalized nfc ∧ itemsNormalized nfc xs

/-- Every key and every value is normalized. -/
def membersNormalized (nfc : Nfc) : List (List Char × PlainJson) → Prop
  | [] => True
  | (k, x) :: ms => nfc.normalize k = k ∧ x.Normalized nfc ∧ membersNormalized nfc ms

end

theorem itemsNormalized_iff {xs : List PlainJson} :
    itemsNormalized nfc xs ↔ ∀ x ∈ xs, x.Normalized nfc := by
  induction xs with
  | nil => simp [itemsNormalized]
  | cons x xs ih => rw [itemsNormalized, ih, List.forall_mem_cons]

theorem membersNormalized_iff {ms : List (List Char × PlainJson)} :
    membersNormalized nfc ms ↔ ∀ m ∈ ms, nfc.normalize m.1 = m.1 ∧ m.2.Normalized nfc := by
  induction ms with
  | nil => simp [membersNormalized]
  | cons m ms ih =>
      obtain ⟨k, x⟩ := m
      rw [membersNormalized, ih, List.forall_mem_cons, and_assoc]

theorem normalize_of_normalizeStr {s : List CodePoint} {t : List Char}
    (h : normalizeStr nfc s = .ok t) : nfc.normalize t = t := by
  obtain ⟨cs, -, rfl⟩ := normalizeStr_eq_ok.1 h
  exact nfc.idem cs

/-- Sorting distinct names makes them ascend strictly. -/
theorem pairwise_lt_sortByKey {ns : List (List Char × PlainJson)} (h : (ns.map Prod.fst).Nodup) :
    (sortByKey utf16beKey ns).Pairwise fun m n => utf16beKey m.1 < utf16beKey n.1 := by
  have hnodup : ((sortByKey utf16beKey ns).map (utf16beKey ∘ Prod.fst)).Nodup :=
    ((sortByKey_perm utf16beKey ns).map _).nodup_iff.mpr (nodup_utf16beKey h)
  have hne := List.pairwise_map.mp (List.nodup_iff_pairwise_ne.mp hnodup)
  exact (pairwise_sortByKey utf16beKey ns).imp₂ (fun _ _ hle hne => lt_of_le_of_ne hle hne) hne

/-- What the encoder computes is in normal form. -/
theorem normalized_of_normalize (v : PyValue) :
    ∀ n, normalize nfc v = .ok n → n.Normalized nfc := by
  induction v with
  | none => intro n h; cases h; trivial
  | bool b => intro n h; cases h; trivial
  | int k =>
      intro n h
      obtain ⟨hle, rfl⟩ := normalizeInt_eq_ok.1 (by simpa only [normalize] using h)
      exact hle
  | float x =>
      intro n h
      obtain ⟨f, k, -, -, hle, rfl⟩ := normalizeFloat_eq_ok.1 (by simpa only [normalize] using h)
      exact hle
  | str s =>
      intro n h
      obtain ⟨a, hs, rfl⟩ := map_eq_ok.1 (by simpa only [normalize] using h)
      exact normalize_of_normalizeStr hs
  | list xs ih =>
      intro n h
      obtain ⟨ns, hns, rfl⟩ := normalize_list_eq_ok.1 h
      -- each normalised item comes from an item of the list
      refine itemsNormalized_iff.2 fun n hn => ?_
      obtain ⟨x, hx, hxn⟩ := exists_of_forall₂ hns.flip n hn
      exact ih x hx n hxn
  | dict ms ih =>
      intro n h
      obtain ⟨ns, hns, hnodup, rfl⟩ := normalize_dict_eq_ok.1 h
      refine ⟨pairwise_lt_sortByKey hnodup, membersNormalized_iff.2 fun n hn => ?_⟩
      obtain ⟨m, hm, hkey, hval⟩ :=
        exists_of_forall₂ hns.flip n ((sortByKey_perm _ _).mem_iff.mp hn)
      obtain ⟨s, -, hs⟩ := normalizeKey_eq_ok.1 hkey
      exact ⟨normalize_of_normalizeStr hs, ih m hm n.2 hval⟩

theorem nodup_of_pairwise_lt {ms : List (List Char × PlainJson)}
    (h : ms.Pairwise fun m n => utf16beKey m.1 < utf16beKey n.1) : (ms.map Prod.fst).Nodup := by
  refine List.nodup_iff_pairwise_ne.mpr (List.pairwise_map.mpr (h.imp fun hlt heq => ?_))
  rw [heq] at hlt
  exact lt_irrefl _ hlt

/-- A value in normal form is its own normalisation. -/
theorem normalize_toPy (n : PlainJson) : n.Normalized nfc → normalize nfc n.toPy = .ok n := by
  have str : ∀ s, nfc.normalize s = s → normalizeStr nfc (s.map scalar) = .ok s := by
    intro s hs
    exact normalizeStr_eq_ok.2 ⟨s, scalars?_map_scalar s, hs⟩
  induction n with
  | null => intro _; rfl
  | bool b => intro _; rfl
  | int k => exact fun h => normalizeInt_eq_ok.2 ⟨h, rfl⟩
  | str s =>
      intro h
      rw [PlainJson.toPy, normalize, str s h]
      rfl
  | arr xs ih =>
      intro h
      have h' := itemsNormalized_iff.1 h
      rw [PlainJson.toPy, itemsToPy_eq_map, normalize_list_eq_ok]
      refine ⟨xs, List.forall₂_map_left_iff.mpr ?_, rfl⟩
      exact List.forall₂_same.mpr fun x hx => ih x hx (h' x hx)
  | obj ms ih =>
      intro h
      have h' := membersNormalized_iff.1 h.2
      rw [PlainJson.toPy, membersToPy_eq_map, normalize_dict_eq_ok]
      refine ⟨ms, List.forall₂_map_left_iff.mpr (List.forall₂_same.mpr fun m hm => ?_),
        nodup_of_pairwise_lt h.1, ?_⟩
      · exact ⟨normalizeKey_eq_ok.2 ⟨_, rfl, str m.1 (h' m hm).1⟩, ih m hm (h' m hm).2⟩
      · rw [sortByKey_of_pairwise (h.1.imp fun hlt => le_of_lt hlt)]

theorem distinctKeys_of_normalized (n : PlainJson) : n.Normalized nfc → n.DistinctKeys := by
  induction n with
  | arr xs ih =>
      intro h
      exact itemsDistinctKeys_iff.2 fun x hx => ih x hx (itemsNormalized_iff.1 h x hx)
  | obj ms ih =>
      intro h
      refine ⟨nodup_of_pairwise_lt h.1, membersDistinctKeys_iff.2 fun m hm => ?_⟩
      exact ih m hm (membersNormalized_iff.1 h.2 m hm).2
  | _ => intro _; trivial

/-! ## The encoder -/

theorem utf8_print_injective : Function.Injective fun n : PlainJson => utf8 n.print :=
  utf8_injective.comp PlainJson.print_injective

/-- **`canonical` is a canonical form.** It accepts the values with a canonical spelling, gives two
    of them the same bytes exactly when they are the same JSON value, and its bytes load as the
    normal form of what was encoded, whose encoding they are. -/
theorem canonical_isCanonicalForm (nfc : Nfc) :
    (∀ v, (∃ b, canonical nfc v = .ok b) ↔ Canonicalizable nfc v) ∧
    (∀ v w b c, canonical nfc v = .ok b → canonical nfc w = .ok c →
      (b = c ↔ SameJson nfc v w)) ∧
    (∀ v b, canonical nfc v = .ok b →
      ∃ n : PlainJson, n.Normalized nfc ∧ SameJson nfc v n.toPy ∧
        jsonLoads b = some n.toPy ∧ canonical nfc n.toPy = .ok b) := by
  refine ⟨fun v => ?_, fun v w b c hv hw => ?_, fun v b hv => ?_⟩
  · rw [← exists_normalize_iff]
    simp only [canonical_eq_ok]
    constructor
    · rintro ⟨b, n, hn, -⟩
      exact ⟨n, hn⟩
    · rintro ⟨n, hn⟩
      exact ⟨_, n, hn, rfl⟩
  · obtain ⟨n, hn, rfl⟩ := canonical_eq_ok.1 hv
    obtain ⟨m, hm, rfl⟩ := canonical_eq_ok.1 hw
    rw [← normalize_eq_iff v w n m hn hm]
    exact utf8_print_injective.eq_iff
  · obtain ⟨n, hn, rfl⟩ := canonical_eq_ok.1 hv
    have hnormal := normalized_of_normalize v n hn
    have hagain := normalize_toPy n hnormal
    exact ⟨n, hnormal, (normalize_eq_iff v n.toPy n n hn hagain).mp rfl,
      jsonLoads_print (distinctKeys_of_normalized n hnormal), canonical_eq_ok.2 ⟨n, hagain, rfl⟩⟩

/-- `4.0` is written as `4`, and reads back as `4`. -/
theorem canonical_isCanonicalForm_four :
    let nfc : Nfc := ⟨id, fun _ => rfl⟩
    let four : Finite64 := ⟨false, 2 ^ 52, -50, by decide, by decide, by decide, by decide⟩
    ∃ b n, canonical nfc (.float (.finite four)) = .ok b ∧ canonical nfc (.int 4) = .ok b ∧
      jsonLoads b = some n ∧ canonical nfc n = .ok b := by
  intro nfc four
  obtain ⟨haccept, hsame, hload⟩ := canonical_isCanonicalForm nfc
  have hvalue : four.value = ((4 : ℤ) : ℚ) := by norm_num [four, Finite64.value, Finite64.abs]
  obtain ⟨b, hb⟩ := (haccept (.float (.finite four))).mpr ⟨four, 4, rfl, hvalue, by decide⟩
  obtain ⟨c, hc⟩ := (haccept (.int 4)).mpr (show |(4 : ℤ)| ≤ maxSafeInteger by decide)
  have hbc : b = c := (hsame _ _ _ _ hb hc).mpr
    (.num (q := 4) (by simp [PyValue.number?, hvalue]) (by simp [PyValue.number?]))
  obtain ⟨n, -, -, hn, hagain⟩ := hload _ _ hb
  exact ⟨b, n.toPy, hb, hbc ▸ hc, hn, hagain⟩

end AstroPassport
