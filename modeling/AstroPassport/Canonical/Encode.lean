import AstroPassport.Lib.Except
import AstroPassport.Lib.Json.Python

set_option autoImplicit false

/-! # `canonical`: the restricted JSON canonicalisation of `app/canonical.py`

`canonical` first normalises a Python value (safe integers only, strings in NFC, members in the
order of the UTF-16 units of their names) and then writes it as compact UTF-8 JSON. Normal form C of
Unicode is a parameter, with idempotence as its one law (`Nfc`); `Nfc.acute`, which composes a base
letter with an acute accent, is one that changes texts. The interpreter's own limits (recursion
depth, memory) are not part of the model.

A failure names what the source raises, so that a caller can tell a refused value from an escaping
exception. The second half says, for each part of the normalisation, what a successful run of it has
computed: a list is normalised item by item, an object member by member under distinct names
(`MemberNormal`), and nothing about the order in which members are visited is left in these
statements. The proofs about the encoder use these lemmas and do not unfold it. -/

namespace AstroPassport

/-- Unicode normalisation to form C, on strings without surrogates. -/
structure Nfc where
  normalize : List Char → List Char
  idem : ∀ s, normalize (normalize s) = normalize s

/-- The part of form C that composes vowels with an acute accent. -/
def Nfc.acute : Nfc := ⟨composeAcute, composeAcute_composeAcute⟩

/-- The exceptions of `canonical`. -/
inductive CanonicalError where
  /-- `str.encode("utf-8", errors="strict")` met a surrogate. -/
  | surrogatesNotAllowed
  | valueError (message : String)
  deriving DecidableEq

/-- Plain-value results or an exception. -/
abbrev Canonical (α : Type) := Except CanonicalError α

/-- The largest integer `canonical` writes. -/
def maxSafeInteger : ℤ := 9007199254740991

variable (nfc : Nfc)

/-! ## `normalize` -/

/-- A string: strict UTF-8 first, then form C. -/
def normalizeStr (s : List CodePoint) : Canonical (List Char) :=
  match scalars? s with
  | some cs => .ok (nfc.normalize cs)
  | none => .error .surrogatesNotAllowed

/-- An `int`. -/
def normalizeInt (n : ℤ) : Canonical PlainJson :=
  if maxSafeInteger < |n| then .error (.valueError "unsafe integer") else .ok (.int n)

/-- A `float`: finite and integral, then as its integer. -/
def normalizeFloat (x : Binary64) : Canonical PlainJson :=
  match x with
  | .finite f =>
    if f.value.den ≠ 1 then .error (.valueError "safe integer required")
    else if (maxSafeInteger : ℚ) < |f.value| then .error (.valueError "unsafe integer")
    else .ok (.int f.value.num)
  | .inf _ | .nan => .error (.valueError "safe integer required")

/-- A dictionary key. -/
def normalizeKey (k : PyKey) : Canonical (List Char) :=
  match k with
  | .str s => normalizeStr nfc s
  | _ => .error (.valueError "string key required")

/-- The bytes a member name is sorted by: `pair[0].encode("utf-16-be")`. -/
def utf16beKey (k : List Char) : List Byte := bigEndian (utf16Encode (k.map scalar))

mutual

/-- `normalize` of `canonical`. -/
def normalize : PyValue → Canonical PlainJson
  | .none => .ok .null
  | .bool b => .ok (.bool b)
  | .int n => normalizeInt n
  | .float x => normalizeFloat x
  | .str s => (normalizeStr nfc s).map .str
  | .list xs => (normalizeItems xs).map .arr
  | .dict ms =>
    (collectDistinct (normalizeKey nfc) (.valueError "normalized key collision") []
      (normalizeMembers ms)).map fun out => .obj (sortByKey utf16beKey out)

/-- `_normalize` on the items of a list, up to the first that raises. -/
def normalizeItems : List PyValue → Canonical (List PlainJson)
  | [] => .ok []
  | x :: xs => do
    let n ← normalize x
    let ns ← normalizeItems xs
    return n :: ns

/-- The members as the loop of `normalize` meets them: the key, and what normalising the value
    gives once the key has passed. -/
def normalizeMembers : List (PyKey × PyValue) → List (PyKey × Canonical PlainJson)
  | [] => []
  | (key, v) :: ms => (key, normalize v) :: normalizeMembers ms

end

/-- `canonical`, of a value of any depth: the interpreter's recursion limit is left out. -/
def canonical (v : PyValue) : Canonical ByteArray :=
  (normalize nfc v).map fun n => utf8 n.print

/-! ## What a successful run of each part computed -/

variable {nfc}

theorem normalizeStr_eq_ok {s : List CodePoint} {t : List Char} :
    normalizeStr nfc s = .ok t ↔ ∃ cs, scalars? s = some cs ∧ nfc.normalize cs = t := by
  unfold normalizeStr
  split
  · next cs h => simp [h]
  · next h => simp [h]

theorem normalizeInt_eq_ok {n : ℤ} {r : PlainJson} :
    normalizeInt n = .ok r ↔ |n| ≤ maxSafeInteger ∧ r = .int n := by
  unfold normalizeInt
  split
  · next h => simp [h]
  · next h => simp [not_lt.mp h, eq_comm]

/-- A rational with denominator one is the integer its numerator is. -/
theorem normalizeFloat_eq_ok {x : Binary64} {r : PlainJson} :
    normalizeFloat x = .ok r ↔
      ∃ f n, x = .finite f ∧ f.value = (n : ℤ) ∧ |n| ≤ maxSafeInteger ∧ r = .int n := by
  cases x with
  | inf _ => simp [normalizeFloat]
  | nan => simp [normalizeFloat]
  | finite f =>
      simp only [normalizeFloat]
      constructor
      · intro h
        split_ifs at h with hden hbig
        have hval : f.value = (f.value.num : ℤ) := (Rat.den_eq_one_iff _).mp (not_not.mp hden) |>.symm
        refine ⟨f, f.value.num, rfl, hval, ?_, by simpa using h.symm⟩
        have := not_lt.mp hbig
        rw [hval] at this
        exact_mod_cast this
      · rintro ⟨f', n, hf, hval, hle, rfl⟩
        cases hf
        have hle' : ¬ (maxSafeInteger : ℚ) < |(n : ℚ)| := by
          rw [not_lt]
          exact_mod_cast hle
        simp [hval, hle']

theorem normalizeKey_eq_ok {k : PyKey} {t : List Char} :
    normalizeKey nfc k = .ok t ↔ ∃ s, k = .str s ∧ normalizeStr nfc s = .ok t := by
  cases k <;> simp [normalizeKey]

theorem normalizeItems_eq_ok {xs : List PyValue} {ns : List PlainJson} :
    normalizeItems nfc xs = .ok ns ↔ List.Forall₂ (fun x n => normalize nfc x = .ok n) xs ns := by
  induction xs generalizing ns with
  | nil => simp [normalizeItems, eq_comm]
  | cons x xs ih =>
      simp only [normalizeItems, bind_eq_ok, pure, Except.pure, Except.ok.injEq,
        List.forall₂_cons_left_iff, ih]
      constructor
      · rintro ⟨n, hn, ns', hns, rfl⟩
        exact ⟨n, ns', hn, hns, rfl⟩
      · rintro ⟨n, ns', hn, hns, rfl⟩
        exact ⟨n, hn, ns', hns, rfl⟩

/-- A member and what it is normalised to. -/
def MemberNormal (nfc : Nfc) (m : PyKey × PyValue) (n : List Char × PlainJson) : Prop :=
  normalizeKey nfc m.1 = .ok n.1 ∧ normalize nfc m.2 = .ok n.2

theorem normalizeMembers_eq_map (ms : List (PyKey × PyValue)) :
    normalizeMembers nfc ms = ms.map fun m => (m.1, normalize nfc m.2) := by
  induction ms with
  | nil => rfl
  | cons m ms ih => rw [normalizeMembers, ih, List.map_cons]

theorem normalize_list_eq_ok {xs : List PyValue} {r : PlainJson} :
    normalize nfc (.list xs) = .ok r ↔
      ∃ ns, List.Forall₂ (fun x n => normalize nfc x = .ok n) xs ns ∧ r = .arr ns := by
  simp [normalize, normalizeItems_eq_ok, eq_comm]

theorem normalize_dict_eq_ok {ms : List (PyKey × PyValue)} {r : PlainJson} :
    normalize nfc (.dict ms) = .ok r ↔
      ∃ ns, List.Forall₂ (MemberNormal nfc) ms ns ∧ (ns.map Prod.fst).Nodup ∧
        r = .obj (sortByKey utf16beKey ns) := by
  simp only [normalize, map_eq_ok, collectDistinct_nil_eq_ok, normalizeMembers_eq_map,
    List.forall₂_map_left_iff, and_assoc]
  constructor
  · rintro ⟨ns, hns, hnodup, rfl⟩
    exact ⟨ns, hns, hnodup, rfl⟩
  · rintro ⟨ns, hns, hnodup, rfl⟩
    exact ⟨ns, hns, hnodup, rfl⟩

theorem canonical_eq_ok {v : PyValue} {b : ByteArray} :
    canonical nfc v = .ok b ↔ ∃ n, normalize nfc v = .ok n ∧ utf8 n.print = b := by
  simp [canonical]

end AstroPassport
