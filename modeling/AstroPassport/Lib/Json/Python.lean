import AstroPassport.Lib.Binary64
import AstroPassport.Lib.Dict
import AstroPassport.Lib.Json.Print

set_option autoImplicit false

/-! # JSON as Python values

`PyValue` is the fragment of Python's objects that JSON data is made of, and `pyDecode` the reading
of a document by the standard `json` module: an integer literal becomes an exact `int`, a literal
with a fraction or an exponent the nearest `float`; two escaped surrogates that form a pair become
one code point; of members with one name the last wins, at the place of the first.

A dictionary may also have keys that are no strings, since an encoder must say what it does with
them; decoding builds none of these. Printing a plain value and decoding it gives the Python value
it stands for (`jsonLoads_print`), provided that no object in it gives a name twice
(`DistinctKeys`), which a dictionary could not show. The decoder is total on documents; that a text
is none is the parser's matter, and the limits of the interpreter are left out, the one on the
digits of an integer literal among them. -/

namespace AstroPassport

/-- A dictionary key: a string, or one of the other hashable scalars. -/
inductive PyKey where
  | none
  | bool (b : Bool)
  | int (n : ℤ)
  | float (x : Binary64)
  | str (s : List CodePoint)
  deriving DecidableEq

/-- A Python value built from `None`, booleans, integers, floats, strings, lists and dictionaries;
    a dictionary is its members in insertion order. -/
inductive PyValue where
  | none
  | bool (b : Bool)
  | int (n : ℤ)
  | float (x : Binary64)
  | str (s : List CodePoint)
  | list (items : List PyValue)
  | dict (members : List (PyKey × PyValue))

namespace PyValue

section Induction

variable {P : PyValue → Prop} (none : P .none) (bool : ∀ b, P (.bool b)) (int : ∀ n, P (.int n))
  (float : ∀ x, P (.float x)) (str : ∀ s, P (.str s))
  (list : ∀ xs, (∀ x ∈ xs, P x) → P (.list xs)) (dict : ∀ ms, (∀ m ∈ ms, P m.2) → P (.dict ms))

include none bool int float str list dict

/-- Induction over a value, with the hypothesis for every item and every member's value. -/
@[elab_as_elim, induction_eliminator]
theorem induction_on (v : PyValue) : P v :=
  @PyValue.rec P (fun xs => ∀ x ∈ xs, P x) (fun ms => ∀ m ∈ ms, P m.2) (fun m => P m.2)
    none bool int float str list dict
    (fun _ h => by cases h)
    (fun _ _ hx hxs => List.forall_mem_cons.mpr ⟨hx, hxs⟩)
    (fun _ h => by cases h)
    (fun _ _ hm hms => List.forall_mem_cons.mpr ⟨hm, hms⟩)
    (fun _ _ h => h) v

end Induction

end PyValue

/-- A `str`. -/
def pyStr (s : List Char) : PyValue := .str (s.map scalar)

/-- A text as a key of a `dict`. -/
def pyKey (s : String) : PyKey := .str (s.toList.map scalar)

/-! ## Decoding -/

/-- A string literal: an escaped high surrogate joins with an escaped low one right after it. -/
def pyDecodeStr : List StrItem → List CodePoint
  | [] => []
  | .chr c :: rest => scalar c :: pyDecodeStr rest
  | .unit u :: .unit v :: rest =>
    if u.isHigh && v.isLow then joinPair u v :: pyDecodeStr rest
    else u.codePoint :: pyDecodeStr (.unit v :: rest)
  | .unit u :: rest => u.codePoint :: pyDecodeStr rest

theorem NumLit.magnitude_nonneg (l : NumLit) : 0 ≤ l.magnitude := by
  unfold NumLit.magnitude
  positivity

/-- The sign of a literal put on its integer part. -/
def NumLit.signedInt (l : NumLit) : ℤ := if l.neg then -l.int else l.int

/-- The binary64 nearest a literal. -/
def NumLit.binary64 (l : NumLit) : Binary64 :=
  Binary64.ofMagnitude l.neg l.magnitude l.magnitude_nonneg

/-- A number literal: exact when it is an integer literal, the nearest `float` otherwise. -/
def pyDecodeNum (l : NumLit) : PyValue :=
  match l.frac, l.exp with
  | Option.none, Option.none => .int l.signedInt
  | _, _ => .float l.binary64

/-- The constants that the `json` module reads beyond the JSON grammar. -/
def pyDecodeConst : JsonConst → PyValue
  | .nan => .float .nan
  | .infinity => .float (.inf false)
  | .negInfinity => .float (.inf true)

mutual

/-- The Python value of a document. -/
def pyDecode : JsonDoc → PyValue
  | .null => .none
  | .bool b => .bool b
  | .const c => pyDecodeConst c
  | .num l => pyDecodeNum l
  | .str s => .str (pyDecodeStr s)
  | .arr items => .list (pyDecodeItems items)
  | .obj members => .dict (Dict.ofMembers (pyDecodeMembers members))

/-- The decoded items. -/
def pyDecodeItems : List JsonDoc → List PyValue
  | [] => []
  | d :: ds => pyDecode d :: pyDecodeItems ds

/-- The decoded members, before the `dict` keeps the last of a name. -/
def pyDecodeMembers : List (List StrItem × JsonDoc) → List (PyKey × PyValue)
  | [] => []
  | (k, d) :: ms => (.str (pyDecodeStr k), pyDecode d) :: pyDecodeMembers ms

end

/-- `json.loads` of a UTF-8 text. Neither the bytes of a lone surrogate, which Python would let pass
    in a string, nor its limit of 4300 digits for an integer is part of it. -/
def jsonLoads (bytes : ByteArray) : Option PyValue :=
  bytes.utf8Decode?.bind fun text => (parseDoc text.toList).map pyDecode

/-! ## Decoding what was printed -/

mutual

/-- A plain value as a Python value. -/
def PlainJson.toPy : PlainJson → PyValue
  | .null => .none
  | .bool b => .bool b
  | .int n => .int n
  | .str s => .str (s.map scalar)
  | .arr xs => .list (itemsToPy xs)
  | .obj ms => .dict (membersToPy ms)

/-- The items as Python values. -/
def itemsToPy : List PlainJson → List PyValue
  | [] => []
  | x :: xs => x.toPy :: itemsToPy xs

/-- The members as those of a `dict`. -/
def membersToPy : List (List Char × PlainJson) → List (PyKey × PyValue)
  | [] => []
  | (k, x) :: ms => (.str (k.map scalar), x.toPy) :: membersToPy ms

end

theorem itemsToPy_eq_map (xs : List PlainJson) : itemsToPy xs = xs.map PlainJson.toPy := by
  induction xs with
  | nil => rfl
  | cons x xs ih => rw [itemsToPy, ih, List.map_cons]

theorem membersToPy_eq_map (ms : List (List Char × PlainJson)) :
    membersToPy ms = ms.map fun m => (PyKey.str (m.1.map scalar), m.2.toPy) := by
  induction ms with
  | nil => rfl
  | cons m ms ih => rw [membersToPy, ih, List.map_cons]

mutual

/-- Every object of the value has distinct member names. -/
def PlainJson.DistinctKeys : PlainJson → Prop
  | .arr xs => itemsDistinctKeys xs
  | .obj ms => (ms.map Prod.fst).Nodup ∧ membersDistinctKeys ms
  | _ => True

/-- In no object below the items a name occurs twice. -/
def itemsDistinctKeys : List PlainJson → Prop
  | [] => True
  | x :: xs => x.DistinctKeys ∧ itemsDistinctKeys xs

/-- In no object below the members a name occurs twice. -/
def membersDistinctKeys : List (List Char × PlainJson) → Prop
  | [] => True
  | (_, x) :: ms => x.DistinctKeys ∧ membersDistinctKeys ms

end

theorem itemsDistinctKeys_iff {xs : List PlainJson} :
    itemsDistinctKeys xs ↔ ∀ x ∈ xs, x.DistinctKeys := by
  induction xs with
  | nil => simp [itemsDistinctKeys]
  | cons x xs ih => rw [itemsDistinctKeys, ih, List.forall_mem_cons]

theorem membersDistinctKeys_iff {ms : List (List Char × PlainJson)} :
    membersDistinctKeys ms ↔ ∀ m ∈ ms, m.2.DistinctKeys := by
  induction ms with
  | nil => simp [membersDistinctKeys]
  | cons m ms ih =>
      obtain ⟨k, x⟩ := m
      rw [membersDistinctKeys, ih, List.forall_mem_cons]

theorem pyDecodeStr_charItem (s : List Char) : pyDecodeStr (s.map charItem) = s.map scalar := by
  have hcontrol : ∀ c, charItem c = .chr c ∨
      ∃ u, charItem c = .unit u ∧ u.isHigh = false ∧ u.codePoint = scalar c := by
    intro c
    unfold charItem
    split
    · next h =>
        refine Or.inr ⟨_, rfl, ?_, rfl⟩
        simp only [CodeUnit.isHigh, Bool.and_eq_false_iff, decide_eq_false_iff_not]
        omega
    · exact Or.inl rfl
  induction s with
  | nil => rfl
  | cons c s ih =>
      rw [List.map_cons, List.map_cons, ← ih]
      rcases hcontrol c with hc | ⟨u, hc, hhigh, hcp⟩
      · rw [hc, pyDecodeStr]
      · rw [hc]
        -- a control character stands for itself, whatever item comes after it
        cases s with
        | nil => simp [pyDecodeStr, hcp]
        | cons d s =>
            rw [List.map_cons]
            cases charItem d <;> simp [pyDecodeStr, hhigh, hcp]

theorem pyDecode_intLit (n : ℤ) : pyDecodeNum (intLit n) = .int n := by
  simp only [pyDecodeNum, intLit, NumLit.signedInt, decide_eq_true_eq]
  congr 1
  split <;> omega

theorem map_scalar_injective : Function.Injective (List.map scalar) := by
  intro s t h
  have h' := congrArg scalars? h
  simpa using h'

theorem strKey_injective : Function.Injective fun k : List Char => PyKey.str (k.map scalar) := by
  intro s t h
  exact map_scalar_injective (PyKey.str.inj h)

theorem nodup_membersToPy {ms : List (List Char × PlainJson)} (h : (ms.map Prod.fst).Nodup) :
    ((membersToPy ms).map Prod.fst).Nodup := by
  rw [membersToPy_eq_map, List.map_map]
  have := h.map strKey_injective
  rwa [List.map_map] at this

mutual

/-- The document a value spells decodes to that value. -/
theorem pyDecode_doc : ∀ v : PlainJson, v.DistinctKeys → pyDecode v.doc = v.toPy
  | .null, _ => by rw [PlainJson.doc, pyDecode, PlainJson.toPy]
  | .bool b, _ => by rw [PlainJson.doc, pyDecode, PlainJson.toPy]
  | .int n, _ => by rw [PlainJson.doc, pyDecode, PlainJson.toPy, pyDecode_intLit]
  | .str s, _ => by rw [PlainJson.doc, pyDecode, PlainJson.toPy, pyDecodeStr_charItem]
  | .arr xs, h => by
      rw [PlainJson.DistinctKeys] at h
      rw [PlainJson.doc, pyDecode, PlainJson.toPy, pyDecodeItems_doc xs h]
  | .obj ms, h => by
      rw [PlainJson.DistinctKeys] at h
      rw [PlainJson.doc, pyDecode, PlainJson.toPy, pyDecodeMembers_doc ms h.2,
        Dict.ofMembers_of_nodup (nodup_membersToPy h.1)]

theorem pyDecodeItems_doc :
    ∀ xs : List PlainJson, itemsDistinctKeys xs → pyDecodeItems (docItems xs) = itemsToPy xs
  | [], _ => by rw [docItems, pyDecodeItems, itemsToPy]
  | x :: xs, h => by
      rw [itemsDistinctKeys] at h
      rw [docItems, pyDecodeItems, itemsToPy, pyDecode_doc x h.1, pyDecodeItems_doc xs h.2]

theorem pyDecodeMembers_doc : ∀ ms : List (List Char × PlainJson), membersDistinctKeys ms →
    pyDecodeMembers (docMembers ms) = membersToPy ms
  | [], _ => by rw [docMembers, pyDecodeMembers, membersToPy]
  | (k, x) :: ms, h => by
      rw [membersDistinctKeys] at h
      rw [docMembers, pyDecodeMembers, membersToPy, pyDecodeStr_charItem, pyDecode_doc x h.1,
        pyDecodeMembers_doc ms h.2]

end

/-- **Reading back.** The UTF-8 bytes of a printed value are loaded as that value. -/
theorem jsonLoads_print {v : PlainJson} (h : v.DistinctKeys) :
    jsonLoads (utf8 v.print) = some v.toPy := by
  rw [jsonLoads, utf8_eq, List.utf8Decode?_utf8Encode, Option.bind_some, List.toList_toArray,
    parseDoc_print, Option.map_some, pyDecode_doc v h]

end AstroPassport
