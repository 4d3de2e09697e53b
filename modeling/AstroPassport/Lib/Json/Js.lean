import AstroPassport.Lib.Json.Python

set_option autoImplicit false

/-! # JSON as JavaScript values

Strings are sequences of UTF-16 code units, every number is a binary64, and the own keys of an
object are listed with its array indices first, in ascending order, before the other names in the
order of their creation. `JSON.parse` rejects the constants outside the JSON grammar.

A decoded object is the dictionary of its members, of which a repeated name keeps the last value,
put into the order of own keys; that order is a permutation (`ownProperties_perm`), and nothing else
is used of it. A string literal decodes to code units without the joining that Python does, and the
two decodings are one up to joining (`pyDecodeStr_eq_joinUnits`). In the other direction
`JSON.stringify` of a text without surrogates writes the characters Python writes
(`jsQuote_jsText`), and `Buffer.from` of one gives its UTF-8. -/

namespace AstroPassport

/-- A JavaScript string. -/
abbrev JsString := List CodeUnit

/-- The code units of a scalar string. -/
def jsText (s : List Char) : JsString := utf16Encode (s.map scalar)

theorem jsText_injective : Function.Injective jsText := fun _ _ h => utf16Encode_scalar_injective h

@[simp]
theorem joinUnits_jsText (s : List Char) : joinUnits (jsText s) = s.map scalar :=
  joinUnits_utf16Encode s

@[simp]
theorem jsText_append (s t : List Char) : jsText (s ++ t) = jsText s ++ jsText t := by
  simp [jsText]

@[simp]
theorem jsText_nil : jsText [] = [] := rfl

/-- A JavaScript value as JSON has them; an object is its own properties in creation order. -/
inductive JsValue where
  | null
  | bool (b : Bool)
  | num (x : Binary64)
  | str (s : JsString)
  | arr (items : List JsValue)
  | obj (properties : List (JsString × JsValue))

/-! ## Own keys -/

/-- The array index a name is the canonical spelling of. -/
def arrayIndex? (k : JsString) : Option ℕ :=
  (scalars? (joinUnits k)).bind fun cs =>
    let n := fromDigits (spanDigits cs).1
    if numeral n = cs ∧ n < 2 ^ 32 - 1 then some n else none

/-- Properties in the order `Object.keys` lists them. -/
def ownProperties {α : Type} (ms : List (JsString × α)) : List (JsString × α) :=
  sortByKey (fun k => (arrayIndex? k).getD 0) (ms.filter fun m => (arrayIndex? m.1).isSome) ++
    ms.filter fun m => !(arrayIndex? m.1).isSome

theorem ownProperties_perm {α : Type} (ms : List (JsString × α)) : (ownProperties ms).Perm ms := by
  unfold ownProperties
  calc sortByKey (fun k => (arrayIndex? k).getD 0) (ms.filter fun m => (arrayIndex? m.1).isSome) ++
          ms.filter (fun m => !(arrayIndex? m.1).isSome)
      |>.Perm (ms.filter (fun m => (arrayIndex? m.1).isSome) ++
          ms.filter (fun m => !(arrayIndex? m.1).isSome)) :=
        (sortByKey_perm _ _).append_right _
    _ |>.Perm ms := List.filter_append_perm _ ms

/-! ## `JSON.parse` -/

/-- A string literal. -/
def jsDecodeStr (s : List StrItem) : JsString :=
  s.flatMap fun i =>
    match i with
    | .chr c => utf16 (scalar c)
    | .unit u => [u]

mutual

/-- The JavaScript value of a document of the standard grammar; `JSON.parse` has rejected the others
    before (`jsonParse`). -/
def jsDecode : JsonDoc → JsValue
  | .null => .null
  | .bool b => .bool b
  | .const _ => .null
  | .num l => .num l.binary64
  | .str s => .str (jsDecodeStr s)
  | .arr items => .arr (jsDecodeItems items)
  | .obj members => .obj (Dict.ofMembers (jsDecodeMembers members))

/-- The decoded items. -/
def jsDecodeItems : List JsonDoc → List JsValue
  | [] => []
  | d :: ds => jsDecode d :: jsDecodeItems ds

/-- The decoded members, before the order of an object. -/
def jsDecodeMembers : List (List StrItem × JsonDoc) → List (JsString × JsValue)
  | [] => []
  | (k, d) :: ms => (jsDecodeStr k, jsDecode d) :: jsDecodeMembers ms

end

/-- `JSON.parse`. -/
def jsonParse (d : JsonDoc) : Option JsValue := if d.standard then some (jsDecode d) else none

/-! ## Strings in and out -/

/-- The decoders of the two languages read a string literal as the same code points. -/
theorem pyDecodeStr_eq_joinUnits (s : List StrItem) :
    pyDecodeStr s = joinUnits (jsDecodeStr s) := by
  induction s using pyDecodeStr.induct with
  | case1 => rfl
  | case2 c rest ih =>
      simp only [jsDecodeStr] at ih
      rw [pyDecodeStr, jsDecodeStr, List.flatMap_cons, joinUnits_scalar_append, ih]
  | case3 u v rest h ih =>
      simp only [jsDecodeStr] at ih
      simp only [pyDecodeStr, jsDecodeStr, List.flatMap_cons, List.cons_append, List.nil_append,
        joinUnits, h, if_true, ih]
  | case4 u v rest h ih =>
      simp only [jsDecodeStr, List.flatMap_cons, List.cons_append, List.nil_append] at ih
      simp only [pyDecodeStr, jsDecodeStr, List.flatMap_cons, List.cons_append, List.nil_append,
        joinUnits, h, Bool.false_eq_true, if_false, ih]
  | case5 u rest hnot ih =>
      simp only [jsDecodeStr] at ih
      rw [pyDecodeStr.eq_4 _ _ hnot, jsDecodeStr, List.flatMap_cons, ih]
      -- what follows is not an escape, so its first unit continues no pair
      cases rest with
      | nil => rfl
      | cons i rest =>
          cases i with
          | unit v => exact absurd rfl (hnot v rest)
          | chr c =>
              obtain ⟨w, ws, hw, hlow⟩ := utf16_scalar_head c
              simp [hw, hlow, joinUnits]

/-- The escapes of `QuoteJSONString`. -/
def jsEscape (c : CodePoint) : JsString :=
  if c.val = 0x08 then jsText ['\\', 'b'] else if c.val = 0x09 then jsText ['\\', 't']
  else if c.val = 0x0A then jsText ['\\', 'n'] else if c.val = 0x0C then jsText ['\\', 'f']
  else if c.val = 0x0D then jsText ['\\', 'r'] else if c.val = 0x22 then jsText ['\\', '"']
  else if c.val = 0x5C then jsText ['\\', '\\']
  else if c.val < 0x20 ∨ c.toChar? = none then
    jsText ['\\', 'u', Nat.digitChar (c.val / 0x1000), Nat.digitChar (c.val / 0x100 % 16),
      Nat.digitChar (c.val / 16 % 16), Nat.digitChar (c.val % 16)]
  else utf16 c

/-- `JSON.stringify` of a string. -/
def jsQuote (s : JsString) : JsString :=
  jsText ['"'] ++ ((joinUnits s).flatMap jsEscape ++ jsText ['"'])

/-- The two languages escape a scalar value alike. -/
theorem jsEscape_scalar (c : Char) : jsEscape (scalar c) = jsText (escapeChar c) := by
  -- the seven characters with a short escape, each by evaluation
  by_cases h08 : c = '\x08'
  · subst h08; rfl
  by_cases h09 : c = '\t'
  · subst h09; rfl
  by_cases h0a : c = '\n'
  · subst h0a; rfl
  by_cases h0c : c = '\x0c'
  · subst h0c; rfl
  by_cases h0d : c = '\r'
  · subst h0d; rfl
  by_cases h22 : c = '"'
  · subst h22; rfl
  by_cases h5c : c = '\\'
  · subst h5c; rfl
  have hval : (scalar c).val = c.toNat := rfl
  have hne : ∀ d : Char, c ≠ d → c.toNat ≠ d.toNat := fun d h heq => h (Char.toNat_inj.mp heq)
  have n08 : c.toNat ≠ 0x08 := hne '\x08' h08
  have n09 : c.toNat ≠ 0x09 := hne '\t' h09
  have n0a : c.toNat ≠ 0x0A := hne '\n' h0a
  have n0c : c.toNat ≠ 0x0C := hne '\x0c' h0c
  have n0d : c.toNat ≠ 0x0D := hne '\r' h0d
  have n22 : c.toNat ≠ 0x22 := hne '"' h22
  have n5c : c.toNat ≠ 0x5C := hne '\\' h5c
  simp only [jsEscape, escapeChar, hval, h08, h09, h0a, h0c, h0d, h22, h5c, n08, n09, n0a, n0c, n0d,
    n22, n5c, toChar?_scalar, reduceCtorEq, or_false, if_false]
  -- a control character or one that stands for itself
  split
  · next hlt =>
      have h1 : c.toNat / 4096 = 0 := by omega
      have h2 : c.toNat / 256 % 16 = 0 := by omega
      have h3 : c.toNat / 16 % 16 = c.toNat / 16 := by omega
      rw [h1, h2, h3]
      rfl
  · simp [jsText]

/-- On a well-formed string, the two languages quote alike. -/
theorem jsQuote_jsText (s : List Char) : jsQuote (jsText s) = jsText (quote s) := by
  have hflat : (s.map scalar).flatMap jsEscape = jsText (s.flatMap escapeChar) := by
    induction s with
    | nil => rfl
    | cons c s ih => simp [jsEscape_scalar, ih]
  rw [jsQuote, joinUnits_jsText, hflat, quote]
  simp only [← jsText_append]
  rfl

/-- `Buffer.from(text, 'utf8')`: a lone surrogate becomes the replacement character. -/
def bufferFromUtf8 (s : JsString) : ByteArray :=
  utf8 ((joinUnits s).map fun c => c.toChar?.getD '\uFFFD')

theorem bufferFromUtf8_jsText (s : List Char) : bufferFromUtf8 (jsText s) = utf8 s := by
  have h : ((fun c : CodePoint => c.toChar?.getD '\uFFFD') ∘ scalar) = id := by
    funext c
    simp
  rw [bufferFromUtf8, joinUnits_jsText, List.map_map, h, List.map_id]

end AstroPassport
