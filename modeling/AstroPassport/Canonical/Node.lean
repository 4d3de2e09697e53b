import AstroPassport.Canonical.CanonicalForm
import AstroPassport.Lib.Json.Js

set_option autoImplicit false

/-! # The Node encoder of `conformance/acep1.mjs`, and that it agrees with `canonical`

The second implementation normalises and writes in two passes: `normalize` copies the value in the
order of its own keys, `emit` sorts the names again when it writes them. Both encoders are run on
one document, each after the decoder of its language. They differ in the type of an integer literal
(exact against nearest binary64), in the order members are visited in and in how they are sorted;
`Agree` is what still holds between their results, and it is kept by every constructor of a
document.

For numbers the point is that a literal is safe in one language exactly when it is in the other
(`safeInteger?_intLiteral`), for texts that the order of code units is the order of the big-endian
bytes (`utf16beKey_le_iff`), and for objects that both decoders keep the last of several members of
one name, whatever the place they keep it at (`names_of_text`). `agree_doc` is the induction over
documents, and `canonical_eq_nodeCanonical` the equality of bytes and of failures. -/

namespace AstroPassport

/-- The exceptions of the Node `canonical`. -/
inductive NodeError where
  | surrogate
  | integer
  | collision
  deriving DecidableEq

/-- A normalised JavaScript value: its numbers are safe integers, and `-0` is `0`. -/
inductive JsNormal where
  | null
  | bool (b : Bool)
  | int (n : ℤ)
  | str (s : JsString)
  | arr (items : List JsNormal)
  | obj (properties : List (JsString × JsNormal))

variable (nfc : Nfc)

/-! ## `normalize` -/

/-- A string: `isWellFormed`, then form C. -/
def nodeNormalizeStr (s : JsString) : Except NodeError JsString :=
  match scalars? (joinUnits s) with
  | some cs => .ok (jsText (nfc.normalize cs))
  | none => .error .surrogate

/-- The integer a number is, when `Number.isSafeInteger` accepts it. -/
def safeInteger? (x : Binary64) : Option ℤ :=
  match x with
  | .finite f =>
    if f.value.den = 1 ∧ |f.value| ≤ (maxSafeInteger : ℚ) then some f.value.num else none
  | .inf _ | .nan => none

mutual

/-- `normalize` of `acep1.mjs`. -/
def nodeNormalize : JsValue → Except NodeError JsNormal
  | .null => .ok .null
  | .bool b => .ok (.bool b)
  | .num x =>
    match safeInteger? x with
    | some n => .ok (.int n)
    | none => .error .integer
  | .str s => (nodeNormalizeStr nfc s).map .str
  | .arr xs => (nodeNormalizeItems xs).map .arr
  | .obj ms =>
    (collectDistinct (nodeNormalizeStr nfc) .collision []
      (ownProperties (nodeNormalizeProperties ms))).map .obj

/-- `normalize` on the items of an array, up to the first that throws. -/
def nodeNormalizeItems : List JsValue → Except NodeError (List JsNormal)
  | [] => .ok []
  | x :: xs => do
    let n ← nodeNormalize x
    let ns ← nodeNormalizeItems xs
    return n :: ns

/-- The properties as the loop of `normalize` meets them: the name, and what normalising the value
    gives once the name has passed. -/
def nodeNormalizeProperties : List (JsString × JsValue) → List (JsString × Except NodeError JsNormal)
  | [] => []
  | (k, v) :: ms => (k, nodeNormalize v) :: nodeNormalizeProperties ms

end

/-! ## `emit` -/

/-- `Array.prototype.join` with a comma. -/
def joinComma (xs : List JsString) : JsString := (jsText [',']).intercalate xs

/-- One property as `emit` writes it, the text of its value at hand. -/
def emitProperty (m : JsString × JsString) : JsString := jsQuote m.1 ++ (jsText [':'] ++ m.2)

mutual

/-- `emit` of `acep1.mjs`. -/
def emit : JsNormal → JsString
  | .null => jsText ['n', 'u', 'l', 'l']
  | .bool true => jsText ['t', 'r', 'u', 'e']
  | .bool false => jsText ['f', 'a', 'l', 's', 'e']
  | .int n => jsText (printInt n)
  | .str s => jsQuote s
  | .arr xs => jsText ['['] ++ (joinComma (emitItems xs) ++ jsText [']'])
  | .obj ms =>
    jsText ['{'] ++ (joinComma ((sortByKey id (ownProperties (emitProperties ms))).map emitProperty)
      ++ jsText ['}'])

/-- The texts of the items of an array. -/
def emitItems : List JsNormal → List JsString
  | [] => []
  | x :: xs => emit x :: emitItems xs

/-- The names of an object, each with the text of its value. -/
def emitProperties : List (JsString × JsNormal) → List (JsString × JsString)
  | [] => []
  | (k, x) :: ms => (k, emit x) :: emitProperties ms

end

/-- `canonical` of `acep1.mjs`. -/
def nodeCanonical (v : JsValue) : Except NodeError ByteArray :=
  (nodeNormalize nfc v).map fun n => bufferFromUtf8 (emit n)

/-! ## What a successful run of each part computed -/

variable {nfc}

theorem nodeNormalizeStr_eq_ok {s t : JsString} :
    nodeNormalizeStr nfc s = .ok t ↔
      ∃ a, normalizeStr nfc (joinUnits s) = .ok a ∧ t = jsText a := by
  unfold nodeNormalizeStr normalizeStr
  cases scalars? (joinUnits s) <;> simp [eq_comm]

theorem safeInteger?_eq_some {x : Binary64} {n : ℤ} :
    safeInteger? x = some n ↔
      ∃ f, x = .finite f ∧ f.value = (n : ℤ) ∧ |n| ≤ maxSafeInteger := by
  cases x with
  | inf _ => simp [safeInteger?]
  | nan => simp [safeInteger?]
  | finite f =>
      simp only [safeInteger?]
      constructor
      · intro h
        split_ifs at h with hsafe
        have hval : f.value = (f.value.num : ℤ) := ((Rat.den_eq_one_iff _).mp hsafe.1).symm
        cases h
        refine ⟨f, rfl, hval, ?_⟩
        have hle := hsafe.2
        rw [hval] at hle
        exact_mod_cast hle
      · rintro ⟨f', hf, hval, hle⟩
        cases hf
        have hle' : |(n : ℚ)| ≤ (maxSafeInteger : ℚ) := by exact_mod_cast hle
        simp [hval, hle']

theorem nodeNormalizeItems_eq_ok {xs : List JsValue} {ns : List JsNormal} :
    nodeNormalizeItems nfc xs = .ok ns ↔
      List.Forall₂ (fun x n => nodeNormalize nfc x = .ok n) xs ns := by
  induction xs generalizing ns with
  | nil => simp [nodeNormalizeItems, eq_comm]
  | cons x xs ih =>
      simp only [nodeNormalizeItems, bind_eq_ok, pure, Except.pure, Except.ok.injEq,
        List.forall₂_cons_left_iff, ih]
      constructor
      · rintro ⟨n, hn, ns', hns, rfl⟩
        exact ⟨n, ns', hn, hns, rfl⟩
      · rintro ⟨n, ns', hn, hns, rfl⟩
        exact ⟨n, hn, ns', hns, rfl⟩

theorem nodeNormalizeProperties_eq_map (ms : List (JsString × JsValue)) :
    nodeNormalizeProperties nfc ms = ms.map fun m => (m.1, nodeNormalize nfc m.2) := by
  induction ms with
  | nil => rfl
  | cons m ms ih => rw [nodeNormalizeProperties, ih, List.map_cons]

/-- A property and what it is normalised to. -/
def PropertyNormal (nfc : Nfc) (m : JsString × JsValue) (n : JsString × JsNormal) : Prop :=
  nodeNormalizeStr nfc m.1 = .ok n.1 ∧ nodeNormalize nfc m.2 = .ok n.2

/-- An object is normalised to its normalised properties in some order. -/
theorem nodeNormalize_obj_eq_ok {ms : List (JsString × JsValue)} {r : JsNormal} :
    nodeNormalize nfc (.obj ms) = .ok r → ∃ ns ns', List.Forall₂ (PropertyNormal nfc) ms ns ∧
      (ns.map Prod.fst).Nodup ∧ ns.Perm ns' ∧ r = .obj ns' := by
  intro h
  simp only [nodeNormalize, map_eq_ok, collectDistinct_nil_eq_ok,
    nodeNormalizeProperties_eq_map] at h
  obtain ⟨ns', ⟨hns', hnodup⟩, rfl⟩ := h
  obtain ⟨ns, hns, hperm⟩ := exists_forall₂_perm hns' (ownProperties_perm _)
  rw [List.forall₂_map_left_iff] at hns
  exact ⟨ns, ns', hns, (hperm.map _).nodup_iff.mp hnodup, hperm.symm, rfl⟩

/-- And it is normalised as soon as all of its properties are. -/
theorem nodeNormalize_obj_of_forall₂ {ms : List (JsString × JsValue)}
    {ns : List (JsString × JsNormal)} (hns : List.Forall₂ (PropertyNormal nfc) ms ns)
    (hnodup : (ns.map Prod.fst).Nodup) :
    ∃ ns', nodeNormalize nfc (.obj ms) = .ok (.obj ns') ∧ ns.Perm ns' := by
  have hmap : List.Forall₂ (fun (m : JsString × Except NodeError JsNormal) n =>
      nodeNormalizeStr nfc m.1 = .ok n.1 ∧ m.2 = .ok n.2)
      (ms.map fun m => (m.1, nodeNormalize nfc m.2)) ns := List.forall₂_map_left_iff.mpr hns
  obtain ⟨ns', hns', hperm⟩ := exists_forall₂_perm hmap (ownProperties_perm _).symm
  refine ⟨ns', ?_, hperm⟩
  simp only [nodeNormalize, map_eq_ok, collectDistinct_nil_eq_ok, nodeNormalizeProperties_eq_map]
  exact ⟨ns', ⟨hns', (hperm.map _).nodup_iff.mp hnodup⟩, rfl⟩

/-! ## Numbers -/

theorem NumLit.abs_signedInt (l : NumLit) : |l.signedInt| = l.int := by
  unfold NumLit.signedInt
  split <;> simp

/-- An integer literal read as the nearest binary64 is a safe integer exactly when it is one read
    exactly, and then it is that integer. -/
theorem safeInteger?_intLiteral {l : NumLit} (hfrac : l.frac = none) (hexp : l.exp = none) (n : ℤ) :
    safeInteger? l.binary64 = some n ↔ n = l.signedInt ∧ |n| ≤ maxSafeInteger := by
  have hmag : l.magnitude = l.int := by
    simp [NumLit.magnitude, hfrac, hexp, fromDigits]
  rw [safeInteger?_eq_some]
  by_cases hsmall : l.int < 2 ^ 53
  · have hround : roundMagnitude l.magnitude = l.int := by
      rw [hmag, roundMagnitude_natCast hsmall]
    have hfin : ∃ f, l.binary64 = .finite f ∧ f.value = (l.signedInt : ℤ) := by
      rcases Binary64.ofMagnitude_cases l.neg l.magnitude l.magnitude_nonneg with
        ⟨f, hf, hneg, habs⟩ | ⟨-, hbig⟩
      · refine ⟨f, hf, ?_⟩
        rw [Finite64.value, hneg, habs, hround, NumLit.signedInt]
        split <;> simp
      · have hlt : (l.int : ℚ) < 2 ^ 53 := by exact_mod_cast hsmall
        rw [hround] at hbig
        have hpow : (2 : ℚ) ^ 53 ≤ 2 ^ 1024 := pow_le_pow_right₀ (by norm_num) (by norm_num)
        exact absurd hpow (not_le.mpr (hbig.trans_lt hlt))
    obtain ⟨f, hf, hval⟩ := hfin
    constructor
    · rintro ⟨f', hf', hval', hle⟩
      rw [hf] at hf'
      cases hf'
      rw [hval] at hval'
      exact ⟨(Int.cast_injective hval').symm, hle⟩
    · rintro ⟨rfl, hle⟩
      exact ⟨f, hf, hval, hle⟩
  · -- a literal out of range rounds to a binary64 out of range
    have hbig : (2 : ℚ) ^ 53 ≤ roundMagnitude l.magnitude := by
      rw [hmag, ← roundMagnitude_two_pow 53]
      apply roundMagnitude_mono (by positivity)
      exact_mod_cast not_lt.mp hsmall
    constructor
    · rintro ⟨f, hf, hval, hle⟩
      rcases Binary64.ofMagnitude_cases l.neg l.magnitude l.magnitude_nonneg with
        ⟨f', hf', -, habs⟩ | ⟨hf', -⟩
      · rw [NumLit.binary64, hf'] at hf
        cases hf
        rw [← habs, ← Finite64.abs_value, hval] at hbig
        have hbig' : (2 : ℤ) ^ 53 ≤ |n| := by exact_mod_cast hbig
        unfold maxSafeInteger at hle
        omega
      · rw [NumLit.binary64, hf'] at hf
        cases hf
    · rintro ⟨rfl, hle⟩
      rw [NumLit.abs_signedInt] at hle
      unfold maxSafeInteger at hle
      omega

/-! ## Text -/

theorem joinComma_map_jsText (xs : List (List Char)) :
    joinComma (xs.map jsText) = jsText ([','].intercalate xs) := by
  have hcons : ∀ (x : List Char) (xs : List (List Char)),
      joinComma ((x :: xs).map jsText) = jsText ([','].intercalate (x :: xs)) := by
    intro x xs
    induction xs generalizing x with
    | nil => simp [joinComma]
    | cons y ys ih =>
        have ih' := ih y
        simp only [joinComma, List.map_cons] at ih'
        simp only [joinComma, List.map_cons, List.intercalate_cons_cons, ih', jsText_append]
  cases xs with
  | nil => rfl
  | cons x xs => exact hcons x xs

theorem emitItems_eq_map (xs : List JsNormal) : emitItems xs = xs.map emit := by
  induction xs with
  | nil => rfl
  | cons x xs ih => rw [emitItems, ih, List.map_cons]

theorem emitProperties_eq_map (ms : List (JsString × JsNormal)) :
    emitProperties ms = ms.map (Prod.map id emit) := by
  induction ms with
  | nil => rfl
  | cons m ms ih =>
      rw [emitProperties, ih, List.map_cons]
      rfl

theorem emitProperty_jsText (m : List Char × PlainJson) :
    emitProperty (jsText m.1, jsText m.2.print) = jsText (printMember m) := by
  rw [emitProperty, jsQuote_jsText]
  simp only [← jsText_append]
  rfl

/-- The UTF-16 order of names and the order of their big-endian bytes are one order. -/
theorem utf16beKey_le_iff (k l : List Char) : utf16beKey k ≤ utf16beKey l ↔ jsText k ≤ jsText l := by
  rw [← not_lt, ← not_lt]
  exact not_congr (bigEndian_lt_iff (jsText l) (jsText k))

/-! ## Agreement -/

/-- Two results agree: both are failures, or both are values that are written alike. -/
def Agree (r : Canonical PlainJson) (r' : Except NodeError JsNormal) : Prop :=
  (∀ n, r = .ok n → ∃ n', r' = .ok n' ∧ emit n' = jsText n.print) ∧
  (∀ n', r' = .ok n' → ∃ n, r = .ok n)

theorem agree_num {v : PyValue} {x : Binary64}
    (h : ∀ n, normalize nfc v = .ok n ↔ ∃ k, safeInteger? x = some k ∧ n = .int k) :
    Agree (normalize nfc v) (nodeNormalize nfc (.num x)) := by
  constructor
  · intro n hn
    obtain ⟨k, hk, rfl⟩ := (h n).mp hn
    exact ⟨.int k, by simp [nodeNormalize, hk], rfl⟩
  · intro n' hn'
    cases hk : safeInteger? x with
    | none => simp [nodeNormalize, hk] at hn'
    | some k => exact ⟨.int k, (h _).mpr ⟨k, hk, rfl⟩⟩

/-- A float is normalised to the safe integer it is. -/
theorem normalize_float_eq_ok {x : Binary64} {n : PlainJson} :
    normalize nfc (.float x) = .ok n ↔ ∃ k, safeInteger? x = some k ∧ n = .int k := by
  simp only [normalize, normalizeFloat_eq_ok, safeInteger?_eq_some]
  constructor
  · rintro ⟨f, k, hf, hval, hle, rfl⟩
    exact ⟨k, ⟨f, hf, hval, hle⟩, rfl⟩
  · rintro ⟨k, ⟨f, hf, hval, hle⟩, rfl⟩
    exact ⟨f, k, hf, hval, hle, rfl⟩

/-- Number literals: the integer ones by `safeInteger?_intLiteral`, the others because both sides
    round to the same binary64. -/
theorem agree_literal (l : NumLit) :
    Agree (normalize nfc (pyDecodeNum l)) (nodeNormalize nfc (.num l.binary64)) := by
  apply agree_num
  intro n
  unfold pyDecodeNum
  split
  · next hfrac hexp =>
      simp only [normalize, normalizeInt_eq_ok, safeInteger?_intLiteral hfrac hexp]
      constructor
      · rintro ⟨hle, rfl⟩
        exact ⟨_, ⟨rfl, hle⟩, rfl⟩
      · rintro ⟨k, ⟨rfl, hle⟩, rfl⟩
        exact ⟨hle, rfl⟩
  · exact normalize_float_eq_ok

theorem agree_str (s : JsString) :
    Agree (normalize nfc (.str (joinUnits s))) (nodeNormalize nfc (.str s)) := by
  simp only [normalize, nodeNormalize]
  constructor
  · intro n hn
    obtain ⟨a, ha, rfl⟩ := map_eq_ok.1 hn
    refine ⟨.str (jsText a), map_eq_ok.2 ⟨_, nodeNormalizeStr_eq_ok.2 ⟨a, ha, rfl⟩, rfl⟩, ?_⟩
    rw [emit, PlainJson.print, jsQuote_jsText]
  · intro n' hn'
    obtain ⟨t, ht, rfl⟩ := map_eq_ok.1 hn'
    obtain ⟨a, ha, -⟩ := nodeNormalizeStr_eq_ok.1 ht
    exact ⟨.str a, map_eq_ok.2 ⟨a, ha, rfl⟩⟩

theorem agree_arr {ds : List JsonDoc}
    (h : ∀ d ∈ ds, Agree (normalize nfc (pyDecode d)) (nodeNormalize nfc (jsDecode d))) :
    Agree (normalize nfc (.list (ds.map pyDecode))) (nodeNormalize nfc (.arr (ds.map jsDecode))) := by
  constructor
  · intro n hn
    obtain ⟨ns, hns, rfl⟩ := normalize_list_eq_ok.1 hn
    rw [List.forall₂_map_left_iff] at hns
    obtain ⟨ns', hns', htext⟩ := exists_forall₂_map_eq (f := emit)
      (g := fun n : PlainJson => jsText n.print) (fun d hd n hn => (h d hd).1 n hn) hns
    refine ⟨.arr ns', ?_, ?_⟩
    · simp only [nodeNormalize, map_eq_ok, nodeNormalizeItems_eq_ok, List.forall₂_map_left_iff]
      exact ⟨ns', hns', rfl⟩
    -- the items are joined by commas on both sides
    · have hjoin := joinComma_map_jsText (ns.map PlainJson.print)
      rw [List.map_map] at hjoin
      change joinComma (ns.map fun n => jsText n.print) = _ at hjoin
      rw [emit, emitItems_eq_map, htext, hjoin, print_arr]
      simp only [← jsText_append]
      rfl
  · intro n' hn'
    simp only [nodeNormalize, map_eq_ok, nodeNormalizeItems_eq_ok,
      List.forall₂_map_left_iff] at hn'
    obtain ⟨ns', hns', -⟩ := hn'
    have hex : ∀ d ∈ ds, ∃ n, normalize nfc (pyDecode d) = .ok n := by
      intro d hd
      obtain ⟨m, -, hm⟩ := exists_of_forall₂ hns' d hd
      exact (h d hd).2 m hm
    obtain ⟨ns, hns⟩ := exists_forall₂ hex
    exact ⟨.arr ns, normalize_list_eq_ok.2 ⟨ns, List.forall₂_map_left_iff.mpr hns, rfl⟩⟩

/-! ### Objects -/

/-- The members of a document's object after duplicates are resolved, names as JavaScript reads
    them. -/
def docDict (ms : List (List StrItem × JsonDoc)) : List (JsString × JsonDoc) :=
  Dict.ofMembers (ms.map (Prod.map jsDecodeStr id))

/-- A JavaScript name as a Python key. -/
def pyKeyOf (k : JsString) : PyKey := .str (joinUnits k)

theorem pyKeyOf_injective : Function.Injective pyKeyOf := fun _ _ h =>
  joinUnits_injective (PyKey.str.inj h)

/-- Both decoders keep the same members, in the same order. -/
theorem pyDecode_obj (ms : List (List StrItem × JsonDoc)) :
    pyDecode (.obj ms) = .dict ((docDict ms).map (Prod.map pyKeyOf pyDecode)) := by
  have hmap : pyDecodeMembers ms = (ms.map (Prod.map jsDecodeStr id)).map
      (Prod.map pyKeyOf pyDecode) := by
    induction ms with
    | nil => rfl
    | cons m ms ih =>
        rw [pyDecodeMembers, ih, pyDecodeStr_eq_joinUnits]
        rfl
  rw [pyDecode, docDict, hmap, Dict.map_ofMembers pyKeyOf_injective]

theorem jsDecode_obj (ms : List (List StrItem × JsonDoc)) :
    jsDecode (.obj ms) = .obj ((docDict ms).map (Prod.map id jsDecode)) := by
  have hmap : jsDecodeMembers ms = (ms.map (Prod.map jsDecodeStr id)).map
      (Prod.map id jsDecode) := by
    induction ms with
    | nil => rfl
    | cons m ms ih =>
        rw [jsDecodeMembers, ih]
        rfl
  rw [jsDecode, docDict, hmap, Dict.map_ofMembers Function.injective_id]

theorem mem_docDict {ms : List (List StrItem × JsonDoc)} {m : JsString × JsonDoc}
    (h : m ∈ docDict ms) : ∃ m' ∈ ms, m'.2 = m.2 := by
  obtain ⟨m', hm', rfl⟩ := List.mem_map.mp (Dict.ofMembers_subset _ h)
  exact ⟨m', hm', rfl⟩

/-- Properties written like members have their names. -/
theorem names_of_text {ns : List (List Char × PlainJson)} {ns' : List (JsString × JsNormal)}
    (htext : ns'.map (Prod.map id emit) = ns.map (Prod.map jsText fun n => jsText n.print)) :
    ns'.map Prod.fst = (ns.map Prod.fst).map jsText := by
  have h := congrArg (List.map Prod.fst) htext
  rw [List.map_map, List.map_map] at h
  rw [List.map_map]
  exact h

/-- The written object is the sorted members, whatever order the properties are in. -/
theorem emit_obj {ns : List (List Char × PlainJson)} {ns' ps : List (JsString × JsNormal)}
    (hnodup : (ns.map Prod.fst).Nodup) (hperm : ns'.Perm ps)
    (htext : ns'.map (Prod.map id emit) = ns.map (Prod.map jsText fun n => jsText n.print)) :
    emit (.obj ps) = jsText (PlainJson.obj (sortByKey utf16beKey ns)).print := by
  have hkeys : ((ns'.map (Prod.map id emit)).map (id ∘ Prod.fst)).Nodup := by
    have hnames := hnodup.map jsText_injective
    rw [← names_of_text htext] at hnames
    rw [List.map_map]
    exact hnames
  have hsort : sortByKey id (ownProperties (emitProperties ps))
      = (sortByKey utf16beKey ns).map (Prod.map jsText fun n => jsText n.print) := by
    have hle : ∀ k l, utf16beKey k ≤ utf16beKey l ↔ id (jsText k) ≤ id (jsText l) :=
      utf16beKey_le_iff
    rw [map_sortByKey hle, ← htext, emitProperties_eq_map]
    refine (sortByKey_eq_of_perm ?_ hkeys).symm
    exact (hperm.map _).trans (ownProperties_perm _).symm
  have hwrite : ((sortByKey utf16beKey ns).map (Prod.map jsText fun n => jsText n.print)).map
      emitProperty = ((sortByKey utf16beKey ns).map printMember).map jsText := by
    rw [List.map_map, List.map_map]
    exact List.map_congr_left fun m _ => emitProperty_jsText m
  rw [emit, hsort, hwrite, joinComma_map_jsText, print_obj]
  simp only [← jsText_append]
  rfl

theorem agree_obj {ms : List (List StrItem × JsonDoc)}
    (h : ∀ m ∈ ms, Agree (normalize nfc (pyDecode m.2)) (nodeNormalize nfc (jsDecode m.2))) :
    Agree (normalize nfc (pyDecode (.obj ms))) (nodeNormalize nfc (jsDecode (.obj ms))) := by
  have hdict : ∀ m ∈ docDict ms,
      Agree (normalize nfc (pyDecode m.2)) (nodeNormalize nfc (jsDecode m.2)) := by
    intro m hm
    obtain ⟨m', hm', heq⟩ := mem_docDict hm
    exact heq ▸ h m' hm'
  -- a normalised member gives a normalised property of the same name and text
  have hmember : ∀ m ∈ docDict ms, ∀ n, MemberNormal nfc (Prod.map pyKeyOf pyDecode m) n →
      ∃ n', PropertyNormal nfc (Prod.map id jsDecode m) n' ∧
        Prod.map id emit n' = Prod.map jsText (fun n => jsText n.print) n := by
    rintro m hm n ⟨hkey, hval⟩
    obtain ⟨v, hv, htext⟩ := (hdict m hm).1 n.2 hval
    obtain ⟨s, hs, hstr⟩ := normalizeKey_eq_ok.1 hkey
    cases hs
    exact ⟨(jsText n.1, v), ⟨nodeNormalizeStr_eq_ok.2 ⟨n.1, hstr, rfl⟩, hv⟩,
      Prod.ext rfl htext⟩
  rw [pyDecode_obj, jsDecode_obj]
  constructor
  · intro n hn
    obtain ⟨ns, hns, hnodup, rfl⟩ := normalize_dict_eq_ok.1 hn
    rw [List.forall₂_map_left_iff] at hns
    obtain ⟨ns', hns', htext⟩ := exists_forall₂_map_eq hmember hns
    have hnodup' : (ns'.map Prod.fst).Nodup := by
      rw [names_of_text htext]
      exact hnodup.map jsText_injective
    obtain ⟨ps, hps, hperm⟩ :=
      nodeNormalize_obj_of_forall₂ (List.forall₂_map_left_iff.mpr hns') hnodup'
    exact ⟨_, hps, emit_obj hnodup hperm htext⟩
  · intro n' hn'
    obtain ⟨ns', ps, hns', hnodup', -, rfl⟩ := nodeNormalize_obj_eq_ok hn'
    rw [List.forall₂_map_left_iff] at hns'
    have hex : ∀ m ∈ docDict ms, ∃ n, MemberNormal nfc (Prod.map pyKeyOf pyDecode m) n := by
      intro m hm
      obtain ⟨p, -, hkey, hval⟩ := exists_of_forall₂ hns' m hm
      obtain ⟨a, ha, -⟩ := nodeNormalizeStr_eq_ok.1 hkey
      obtain ⟨n, hn⟩ := (hdict m hm).2 p.2 hval
      exact ⟨(a, n), normalizeKey_eq_ok.2 ⟨_, rfl, ha⟩, hn⟩
    obtain ⟨ns, hns⟩ := exists_forall₂ hex
    -- the properties computed from these members are the ones at hand
    obtain ⟨qs, hqs, htext⟩ := exists_forall₂_map_eq hmember hns
    have hdet : Relator.RightUnique
        fun (m : JsString × JsonDoc) n => PropertyNormal nfc (Prod.map id jsDecode m) n := by
      intro m p q hp hq
      exact Prod.ext (Except.ok.inj (hp.1.symm.trans hq.1)) (Except.ok.inj (hp.2.symm.trans hq.2))
    have hqs' : qs = ns' := List.right_unique_forall₂' hdet hqs hns'
    subst hqs'
    have hnodup : (ns.map Prod.fst).Nodup := by
      rw [names_of_text htext] at hnodup'
      exact List.Nodup.of_map _ hnodup'
    exact ⟨_, normalize_dict_eq_ok.2 ⟨ns, List.forall₂_map_left_iff.mpr hns, hnodup, rfl⟩⟩

/-- The normalisations of the two encoders agree on every document. -/
theorem agree_doc (d : JsonDoc) :
    d.standard = true → Agree (normalize nfc (pyDecode d)) (nodeNormalize nfc (jsDecode d)) := by
  induction d with
  | null =>
      intro _
      refine ⟨fun n hn => ⟨.null, rfl, ?_⟩, fun n' _ => ⟨.null, rfl⟩⟩
      cases hn
      rfl
  | bool b =>
      intro _
      refine ⟨fun n hn => ⟨.bool b, rfl, ?_⟩, fun n' _ => ⟨.bool b, rfl⟩⟩
      cases hn
      cases b <;> rfl
  -- NaN and the infinities are not standard
  | const c => intro h; cases h
  | num l => exact fun _ => agree_literal l
  | str s =>
      intro _
      rw [pyDecode, jsDecode, pyDecodeStr_eq_joinUnits]
      exact agree_str (jsDecodeStr s)
  | arr ds ih =>
      intro h
      have hpy : pyDecodeItems ds = ds.map pyDecode := by
        clear ih h
        induction ds with
        | nil => rfl
        | cons d ds ih => rw [pyDecodeItems, ih, List.map_cons]
      have hjs : jsDecodeItems ds = ds.map jsDecode := by
        clear ih h hpy
        induction ds with
        | nil => rfl
        | cons d ds ih => rw [jsDecodeItems, ih, List.map_cons]
      rw [pyDecode, jsDecode, hpy, hjs]
      exact agree_arr fun d hd => ih d hd (standardItems_iff.1 h d hd)
  | obj ms ih =>
      intro h
      exact agree_obj fun m hm => ih m hm (standardMembers_iff.1 h m hm)

/-- A JSON document of the standard grammar. -/
def StandardDoc := {d : JsonDoc // d.standard = true}

/-- **The two encoders agree.** On every JSON document, each after the decoder of its language,
    they both fail or both give the same bytes. -/
theorem canonical_eq_nodeCanonical (nfc : Nfc) (d : StandardDoc) :
    (canonical nfc (pyDecode d.val)).toOption
      = (jsonParse d.val).bind fun v => (nodeCanonical nfc v).toOption := by
  obtain ⟨d, hd⟩ := d
  obtain ⟨hsome, hback⟩ := @agree_doc nfc d hd
  rw [jsonParse, if_pos hd, Option.bind_some]
  cases hn : normalize nfc (pyDecode d) with
  | ok n =>
      obtain ⟨n', hn', htext⟩ := hsome n hn
      simp only [canonical, nodeCanonical, hn, hn', Except.map, htext, bufferFromUtf8_jsText]
      rfl
  | error e =>
      cases hn' : nodeNormalize nfc (jsDecode d) with
      | ok n' =>
          obtain ⟨n, hok⟩ := hback n' hn'
          rw [hn] at hok
          cases hok
      | error e' => simp only [canonical, nodeCanonical, hn, hn', Except.map, Except.toOption]

/-- `{"10": [-0.0, 1e2], "2": "é", "a\ud83d\ude00": null}`, its letter é written as two
    characters. -/
def mixedDoc : StandardDoc :=
  ⟨.obj [([.chr '1', .chr '0'],
      .arr [.num ⟨true, 0, some [0], none⟩, .num ⟨false, 1, none, some 2⟩]),
    ([.chr '2'], .str [.chr 'e', .chr '\u0301']),
    ([.chr 'a', .unit 0xD83D, .unit 0xDE00], .null)], rfl⟩

/-- What it is normalised to. -/
def mixedMembers : List (List Char × PlainJson) :=
  [("10".toList, .arr [.int 0, .int 100]), ("2".toList, .str "é".toList), ("a😀".toList, .null)]

/-- Both encoders write the members by their code units, where JavaScript enumerates 2 before 10. -/
theorem canonical_eq_nodeCanonical_mixed :
    (canonical Nfc.acute (pyDecode mixedDoc.val)).toOption
        = some (utf8 (PlainJson.obj mixedMembers).print) ∧
      ((jsonParse mixedDoc.val).bind fun v => (nodeCanonical Nfc.acute v).toOption)
        = some (utf8 (PlainJson.obj mixedMembers).print) := by
  have hzero : safeInteger? (NumLit.binary64 ⟨true, 0, some [0], none⟩) = some 0 := by
    decide +kernel
  have hhundred : safeInteger? (NumLit.binary64 ⟨false, 1, none, some 2⟩) = some 100 := by
    decide +kernel
  have hitems : normalize Nfc.acute (pyDecode (.arr [.num ⟨true, 0, some [0], none⟩,
      .num ⟨false, 1, none, some 2⟩])) = .ok (.arr [.int 0, .int 100]) :=
    normalize_list_eq_ok.2 ⟨_, .cons (normalize_float_eq_ok.2 ⟨_, hzero, rfl⟩)
      (.cons (normalize_float_eq_ok.2 ⟨_, hhundred, rfl⟩) .nil), rfl⟩
  have hnormal : normalize Nfc.acute (pyDecode mixedDoc.val) = .ok (.obj mixedMembers) := by
    refine normalize_dict_eq_ok.2 ⟨mixedMembers, ?_, by decide, ?_⟩
    · exact .cons ⟨rfl, hitems⟩ (.cons ⟨rfl, rfl⟩ (.cons ⟨rfl, rfl⟩ .nil))
    · rw [sortByKey_of_pairwise (by decide)]
  have hpython := canonical_eq_ok.2 ⟨_, hnormal, rfl⟩
  have hagree := canonical_eq_nodeCanonical Nfc.acute mixedDoc
  rw [hpython] at hagree ⊢
  exact ⟨rfl, hagree.symm⟩

end AstroPassport
