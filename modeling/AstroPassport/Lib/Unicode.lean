import Mathlib.Data.List.Basic
import Mathlib.Data.List.Lex
import Mathlib.Order.Fin.Basic
import Mathlib.Tactic.SplitIfs

set_option autoImplicit false

/-! # Code points, UTF-16 code units and their order

Three kinds of string occur side by side. A *code point string* may hold surrogate code points
anywhere; a *scalar string* is a `List Char` and holds none; a *code unit string* is UTF-16. Joining
surrogate pairs reads a unit string as the code points it spells, a lone surrogate standing for
itself; encoding goes back, and `utf16Encode_joinUnits` says nothing is lost on the way, so unit
strings may be compared through the code points they spell. A further part ties the order of unit
strings to the order of their big-endian bytes, and the last one is a piece of normal form C that
can be evaluated.

That piece composes the small vowels with a following acute accent (`composeAcute`). It is
idempotent and leaves ASCII alone, which are the laws of the full form that programs here rely on.
-/

namespace AstroPassport

/-- A Unicode code point, surrogates included. -/
abbrev CodePoint := Fin 0x110000

/-- A UTF-16 code unit. -/
abbrev CodeUnit := Fin 0x10000

/-- A byte. -/
abbrev Byte := Fin 256

/-- For the literals of a byte. -/
instance neZero_byte : @NeZero ℕ Zero.ofOfNat0 256 := ⟨by decide⟩

/-- The high (leading) half of a surrogate pair. -/
def CodeUnit.isHigh (u : CodeUnit) : Bool := 0xD800 ≤ u.val && u.val < 0xDC00

/-- The low (trailing) half of a surrogate pair. -/
def CodeUnit.isLow (u : CodeUnit) : Bool := 0xDC00 ≤ u.val && u.val < 0xE000

/-- A code unit standing for itself. -/
def CodeUnit.codePoint (u : CodeUnit) : CodePoint := ⟨u.val, by omega⟩

/-- The code point a surrogate pair spells. -/
def joinPair (hi lo : CodeUnit) : CodePoint :=
  ⟨0x10000 + (hi.val - 0xD800) % 0x400 * 0x400 + (lo.val - 0xDC00) % 0x400, by omega⟩

/-- The code point of a scalar value. -/
def scalar (c : Char) : CodePoint := ⟨c.toNat, by
  have := c.valid
  simp only [UInt32.isValidChar, Nat.isValidChar] at this
  simp only [Char.toNat]
  omega⟩

/-- A code point as a scalar value, unless it is a surrogate. -/
def CodePoint.toChar? (c : CodePoint) : Option Char :=
  if c.val.isValidChar then some (Char.ofNat c.val) else none

/-- A code point string as a scalar string, unless it holds a surrogate. -/
def scalars? (s : List CodePoint) : Option (List Char) := s.mapM CodePoint.toChar?

@[simp]
theorem toChar?_scalar (c : Char) : CodePoint.toChar? (scalar c) = some c := by
  have h : c.toNat.isValidChar := c.valid
  simp only [CodePoint.toChar?, scalar, h, if_true, Char.ofNat_toNat]

theorem scalar_of_toChar? {c : CodePoint} {d : Char} (h : c.toChar? = some d) : scalar d = c := by
  unfold CodePoint.toChar? at h
  split at h
  · next hc =>
      cases h
      apply Fin.ext
      simp only [scalar]
      rw [Char.ofNat, dif_pos hc]
      rfl
  · cases h

@[simp]
theorem scalars?_map_scalar (s : List Char) : scalars? (s.map scalar) = some s := by
  induction s with
  | nil => rfl
  | cons c s ih =>
      simp only [scalars?, List.map_cons, List.mapM_cons, toChar?_scalar] at ih ⊢
      simp [ih]

theorem map_scalar_of_scalars? {s : List CodePoint} {t : List Char} (h : scalars? s = some t) :
    t.map scalar = s := by
  induction s generalizing t with
  | nil =>
      simp only [scalars?, List.mapM_nil, Option.pure_def, Option.some.injEq] at h
      subst h
      rfl
  | cons c s ih =>
      simp only [scalars?, List.mapM_cons, Option.bind_eq_bind, Option.bind_eq_some_iff,
        Option.pure_def, Option.some.injEq] at h
      obtain ⟨d, hd, t', ht', rfl⟩ := h
      simp only [List.map_cons, scalar_of_toChar? hd, ih ht']

/-- A code point string reads as a scalar string exactly when it holds no surrogate. -/
theorem scalars?_isSome (s : List CodePoint) :
    (scalars? s).isSome ↔ ∀ c ∈ s, ¬ (0xD800 ≤ c.val ∧ c.val < 0xE000) := by
  induction s with
  | nil => simp [scalars?]
  | cons c s ih =>
      have hc : (CodePoint.toChar? c).isSome ↔ ¬ (0xD800 ≤ c.val ∧ c.val < 0xE000) := by
        have := c.isLt
        simp only [CodePoint.toChar?, Nat.isValidChar]
        split <;> simp only [Option.isSome_some, Option.isSome_none, true_iff, false_iff,
          Bool.false_eq_true] <;> omega
      simp only [List.forall_mem_cons, ← ih, ← hc]
      simp only [scalars?, List.mapM_cons, Option.bind_eq_bind, Option.pure_def]
      cases CodePoint.toChar? c <;> cases List.mapM CodePoint.toChar? s <;> simp

/-- `encode("ascii")` of an ASCII text. -/
def ascii (s : String) : List Byte := s.toList.map fun c => ⟨c.toNat % 256, by omega⟩

/-! ## UTF-8 -/

/-- The UTF-8 bytes of a scalar string. -/
def utf8 (s : List Char) : ByteArray := (String.ofList s).toByteArray

theorem utf8_eq (s : List Char) : utf8 s = s.utf8Encode := String.toByteArray_ofList

theorem utf8_injective : Function.Injective utf8 := by
  intro s t h
  exact String.ofList_injective (String.toByteArray_inj.mp h)

/-! ## UTF-16 -/

/-- The code units of one code point. -/
def utf16 (c : CodePoint) : List CodeUnit :=
  if h : c.val < 0x10000 then [⟨c.val, h⟩]
  else [⟨0xD800 + (c.val - 0x10000) / 0x400, by omega⟩,
    ⟨0xDC00 + (c.val - 0x10000) % 0x400, by omega⟩]

/-- The code units of a code point string. -/
def utf16Encode (s : List CodePoint) : List CodeUnit := s.flatMap utf16

/-- The code points a code unit string spells. -/
def joinUnits : List CodeUnit → List CodePoint
  | [] => []
  | [u] => [u.codePoint]
  | u :: v :: rest =>
    if u.isHigh && v.isLow then joinPair u v :: joinUnits rest
    else u.codePoint :: joinUnits (v :: rest)

@[simp]
theorem utf16Encode_nil : utf16Encode [] = [] := rfl

@[simp]
theorem utf16Encode_cons (c : CodePoint) (s : List CodePoint) :
    utf16Encode (c :: s) = utf16 c ++ utf16Encode s := by simp [utf16Encode]

@[simp]
theorem utf16Encode_append (s t : List CodePoint) :
    utf16Encode (s ++ t) = utf16Encode s ++ utf16Encode t := by simp [utf16Encode]

@[simp]
theorem utf16_codePoint (u : CodeUnit) : utf16 u.codePoint = [u] := by
  simp [utf16, CodeUnit.codePoint]

theorem utf16_joinPair {hi lo : CodeUnit} (hh : hi.isHigh = true) (hl : lo.isLow = true) :
    utf16 (joinPair hi lo) = [hi, lo] := by
  simp only [CodeUnit.isHigh, CodeUnit.isLow, Bool.and_eq_true, decide_eq_true_eq] at hh hl
  have hbig : ¬ (joinPair hi lo).val < 0x10000 := by
    simp only [joinPair]
    omega
  simp only [utf16, hbig, dif_neg, not_false_eq_true]
  simp only [joinPair, List.cons.injEq, Fin.ext_iff, and_true]
  omega

/-- Reading a unit string as code points loses nothing. -/
@[simp]
theorem utf16Encode_joinUnits (s : List CodeUnit) : utf16Encode (joinUnits s) = s := by
  induction s using joinUnits.induct with
  | case1 => rfl
  | case2 u => simp [joinUnits]
  | case3 u v rest h ih =>
      have h' := h
      rw [Bool.and_eq_true] at h'
      simp [joinUnits, h, ih, utf16_joinPair h'.1 h'.2]
  | case4 u v rest h ih => simp [joinUnits, h, ih]

/-- So unit strings are equal as soon as they spell the same code points. -/
theorem joinUnits_injective {s t : List CodeUnit} (h : joinUnits s = joinUnits t) : s = t := by
  rw [← utf16Encode_joinUnits s, h, utf16Encode_joinUnits]

/-- The units of a scalar value never continue what stands before them: no unit before them forms a
    pair with the first of them. -/
theorem utf16_scalar_head (c : Char) :
    ∃ u rest, utf16 (scalar c) = u :: rest ∧ u.isLow = false := by
  have hc := c.valid
  simp only [UInt32.isValidChar, Nat.isValidChar] at hc
  have hval : (scalar c).val = c.toNat := rfl
  simp only [Char.toNat] at hval
  unfold utf16
  split
  · next h =>
      refine ⟨_, _, rfl, ?_⟩
      simp only [CodeUnit.isLow, Bool.and_eq_false_iff, decide_eq_false_iff_not, not_le, not_lt]
      omega
  · next h =>
      refine ⟨_, _, rfl, ?_⟩
      simp only [CodeUnit.isLow, Bool.and_eq_false_iff, decide_eq_false_iff_not, not_le, not_lt]
      omega

/-- Nor do they continue into what stands after them. -/
theorem joinUnits_scalar_append (c : Char) (rest : List CodeUnit) :
    joinUnits (utf16 (scalar c) ++ rest) = scalar c :: joinUnits rest := by
  have hc := c.valid
  simp only [UInt32.isValidChar, Nat.isValidChar] at hc
  have hval : (scalar c).val = c.toNat := rfl
  simp only [Char.toNat] at hval
  unfold utf16
  split
  · next h =>
      -- one unit: a scalar value is no surrogate
      have hhigh : CodeUnit.isHigh ⟨(scalar c).val, h⟩ = false := by
        simp only [CodeUnit.isHigh, Bool.and_eq_false_iff, decide_eq_false_iff_not, not_le, not_lt]
        omega
      cases rest with
      | nil => rfl
      | cons v rest => simp [joinUnits, hhigh, CodeUnit.codePoint]
  · next h =>
      have hlt := (scalar c).isLt
      -- two units, a high and a low surrogate, that join to the scalar
      have hpair : ∀ hh hl, joinPair ⟨0xD800 + ((scalar c).val - 0x10000) / 0x400, hh⟩
          ⟨0xDC00 + ((scalar c).val - 0x10000) % 0x400, hl⟩ = scalar c := by
        intro hh hl
        apply Fin.ext
        simp only [joinPair]
        omega
      have hboth : ∀ hh hl, (CodeUnit.isHigh ⟨0xD800 + ((scalar c).val - 0x10000) / 0x400, hh⟩ &&
          CodeUnit.isLow ⟨0xDC00 + ((scalar c).val - 0x10000) % 0x400, hl⟩) = true := by
        intro hh hl
        simp only [CodeUnit.isHigh, CodeUnit.isLow, Bool.and_eq_true, decide_eq_true_eq]
        omega
      simp only [List.cons_append, List.nil_append, joinUnits, hboth, if_true, hpair]

/-- A scalar string is recovered from its code units. -/
@[simp]
theorem joinUnits_utf16Encode (s : List Char) :
    joinUnits (utf16Encode (s.map scalar)) = s.map scalar := by
  induction s with
  | nil => rfl
  | cons c s ih => rw [List.map_cons, utf16Encode_cons, joinUnits_scalar_append, ih]

theorem utf16Encode_scalar_injective {s t : List Char}
    (h : utf16Encode (s.map scalar) = utf16Encode (t.map scalar)) : s = t := by
  have h' := congrArg (fun u => scalars? (joinUnits u)) h
  simpa using h'

/-! ## Big-endian bytes and their order -/

/-- The two bytes of a code unit, high first. -/
def CodeUnit.bytes (u : CodeUnit) : List Byte :=
  [⟨u.val / 256, by omega⟩, ⟨u.val % 256, by omega⟩]

/-- `utf-16-be`, without a byte order mark. -/
def bigEndian (s : List CodeUnit) : List Byte := s.flatMap CodeUnit.bytes

/-- Big-endian bytes sort as the code units they come from. -/
theorem bigEndian_lt_iff (s t : List CodeUnit) : bigEndian s < bigEndian t ↔ s < t := by
  induction s generalizing t with
  | nil => cases t <;> simp [bigEndian, CodeUnit.bytes]
  | cons u s ih =>
      cases t with
      | nil => simp [bigEndian, CodeUnit.bytes]
      | cons v t =>
          have ih' := ih t
          simp only [bigEndian] at ih'
          simp only [bigEndian, List.flatMap_cons, CodeUnit.bytes, List.cons_append,
            List.nil_append, List.cons_lt_cons_iff, ih', Fin.lt_def, Fin.ext_iff]
          -- a unit is its high byte and its low byte
          have hu := Nat.div_add_mod u.val 256
          have hv := Nat.div_add_mod v.val 256
          have hu' : u.val % 256 < 256 := Nat.mod_lt _ (by decide)
          have hv' : v.val % 256 < 256 := Nat.mod_lt _ (by decide)
          constructor
          · rintro (h | ⟨h1, h | ⟨h2, h⟩⟩)
            · left; omega
            · left; omega
            · right; exact ⟨by omega, h⟩
          · rintro (h | ⟨h1, h⟩)
            · by_cases hq : u.val / 256 < v.val / 256
              · exact Or.inl hq
              · exact Or.inr ⟨by omega, Or.inl (by omega)⟩
            · exact Or.inr ⟨by omega, Or.inr ⟨by omega, h⟩⟩

/-! ## Composition of a mark -/

/-- The character that a small vowel and an acute accent after it are composed to. -/
def acuteComposite (c m : Char) : Option Char :=
  if m = '\u0301' then
    match c with
    | 'a' => some 'á'
    | 'e' => some 'é'
    | 'i' => some 'í'
    | 'o' => some 'ó'
    | 'u' => some 'ú'
    | _ => none
  else none

/-- The part of normal form C that is about small vowels with an acute accent. -/
def composeAcute : List Char → List Char
  | [] => []
  | [c] => [c]
  | c :: m :: s =>
    match acuteComposite c m with
    | some d => d :: composeAcute s
    | none => c :: composeAcute (m :: s)

/-- A composed character is no mark, and nothing is composed to it. -/
theorem acuteComposite_eq_some {c m d : Char} (h : acuteComposite c m = some d) :
    m = '\u0301' ∧ d ≠ '\u0301' ∧ ∀ x, acuteComposite d x = none := by
  unfold acuteComposite at h
  split at h
  · next hm =>
      refine ⟨hm, ?_⟩
      split at h <;> cases h <;> refine ⟨by decide, fun x => ?_⟩ <;> simp [acuteComposite]
  · cases h

theorem acuteComposite_of_ne {c m : Char} (h : m ≠ '\u0301') : acuteComposite c m = none :=
  if_neg h

/-- What starts with a mark started with it before. -/
theorem head_of_composeAcute {s t : List Char} (h : composeAcute s = '\u0301' :: t) :
    s.head? = some '\u0301' := by
  cases s with
  | nil => cases h
  | cons c s =>
      cases s with
      | nil =>
          cases h
          rfl
      | cons m s =>
          rw [composeAcute] at h
          split at h
          · next d hd =>
              have hne := (acuteComposite_eq_some hd).2.1
              exact absurd (List.cons.inj h).1 hne
          · cases h
            rfl

/-- A character that is composed with nothing stays at the front. -/
theorem composeAcute_cons {c : Char} {s : List Char}
    (h : ∀ m t, s = m :: t → acuteComposite c m = none) :
    composeAcute (c :: s) = c :: composeAcute s := by
  cases s with
  | nil => rfl
  | cons m t => rw [composeAcute, h m t rfl]

theorem composeAcute_composeAcute (s : List Char) :
    composeAcute (composeAcute s) = composeAcute s := by
  fun_induction composeAcute s with
  | case1 => rfl
  | case2 c => rfl
  | case3 c m s d hd ih =>
      have hnone := (acuteComposite_eq_some hd).2.2
      rw [composeAcute_cons fun x _ _ => hnone x, ih]
  | case4 c m s hnone ih =>
      rw [composeAcute_cons ?_, ih]
      intro x t hhead
      by_cases hx : x = '\u0301'
      · -- a mark in front was there before, and was not composed with
        subst hx
        have hm := head_of_composeAcute hhead
        rw [List.head?_cons, Option.some.injEq] at hm
        rwa [← hm]
      · exact acuteComposite_of_ne hx

/-- Marks are not ASCII. -/
theorem composeAcute_ascii {s : List Char} (h : ∀ c ∈ s, c.toNat < 128) : composeAcute s = s := by
  induction s with
  | nil => rfl
  | cons c s ih =>
      obtain ⟨-, hrest⟩ := List.forall_mem_cons.mp h
      rw [composeAcute_cons ?_, ih hrest]
      rintro m t rfl
      apply acuteComposite_of_ne
      rintro rfl
      exact absurd (hrest _ (List.mem_cons_self ..)) (by decide)

end AstroPassport
