import Mathlib.Data.Nat.Digits.Lemmas
import Mathlib.Tactic.Ring

set_option autoImplicit false

/-! # Numerals

Reading and writing natural numbers in ASCII digits, in the two spellings text formats use: a
numeral without leading zeros (`numeral`, read back by `spanDigits`), and a field of exactly `w`
digits (`padded`, read by `readDigits`). For the second the reader and the writer are inverse on
both sides (`readDigits_padded`, `eq_padded_of_readDigits`), which is what makes a fixed text layout
a bijection with the numbers in it.

Readers take a text from the front and leave the rest of it, so that a layout of several fields is
read field by field. A run of digits ends where the next character is no digit (`StopsDigits`), and
that condition is all that a numeral needs of what stands behind it. Digits are a base and a list;
their value is read from the front, and a list of given length has values up to the power of the
base only (`fromDigits_lt`, `fromDigits_inj`). A digest is a text of sixty-four digits in
hexadecimal. -/

namespace AstroPassport

/-- The value of an ASCII digit. -/
def digit? (c : Char) : Option ℕ :=
  if '0'.toNat ≤ c.toNat ∧ c.toNat ≤ '9'.toNat then some (c.toNat - '0'.toNat) else none

theorem digit?_lt {c : Char} {d : ℕ} (h : digit? c = some d) : d < 10 := by
  unfold digit? at h
  split at h
  · next hc =>
      cases h
      simp only [Char.reduceToNat] at hc ⊢
      omega
  · cases h

@[simp]
theorem digit?_digitChar {d : ℕ} (h : d < 10) : digit? (Nat.digitChar d) = some d := by
  have hall : ∀ d < 10, digit? (Nat.digitChar d) = some d := by decide
  exact hall d h

theorem digitChar_of_digit? {c : Char} {d : ℕ} (h : digit? c = some d) : Nat.digitChar d = c := by
  have hd := digit?_lt h
  unfold digit? at h
  split at h
  · next hc =>
      simp only [Char.reduceToNat, Option.some.injEq] at hc h
      apply Char.toNat_inj.mp
      have hall : ∀ d < 10, (Nat.digitChar d).toNat = d + 48 := by decide
      rw [hall d hd]
      omega
  · cases h

/-- The value of a hexadecimal digit. -/
def hexDigit? (c : Char) : Option ℕ :=
  if '0'.toNat ≤ c.toNat ∧ c.toNat ≤ '9'.toNat then some (c.toNat - '0'.toNat)
  else if 'a'.toNat ≤ c.toNat ∧ c.toNat ≤ 'f'.toNat then some (c.toNat - 'a'.toNat + 10)
  else if 'A'.toNat ≤ c.toNat ∧ c.toNat ≤ 'F'.toNat then some (c.toNat - 'A'.toNat + 10)
  else none

theorem hexDigit?_digitChar {d : ℕ} (h : d < 16) : hexDigit? (Nat.digitChar d) = some d := by
  have hall : ∀ d < 16, hexDigit? (Nat.digitChar d) = some d := by decide
  exact hall d h

/-- The number a list of digits spells, most significant first. -/
def fromDigits (ds : List ℕ) : ℕ := Nat.ofDigits 10 ds.reverse

/-! ## Numerals without leading zeros -/

/-- The digits of `n`, most significant first; zero is the one digit `0`. -/
def numeralDigits (n : ℕ) : List ℕ := if n = 0 then [0] else (Nat.digits 10 n).reverse

/-- The decimal spelling of `n`. -/
def numeral (n : ℕ) : List Char := (numeralDigits n).map Nat.digitChar

theorem length_numeral_le {n w : ℕ} (h : n < 10 ^ w) (hw : 1 ≤ w) : (numeral n).length ≤ w := by
  rw [numeral, List.length_map, numeralDigits]
  split
  · exact hw
  · rw [List.length_reverse]
    exact (Nat.digits_length_le_iff (by norm_num) n).mpr h

theorem numeralDigits_lt {n d : ℕ} (h : d ∈ numeralDigits n) : d < 10 := by
  unfold numeralDigits at h
  split at h
  · simp only [List.mem_singleton] at h
    omega
  · exact Nat.digits_lt_base (by norm_num) (List.mem_reverse.mp h)

@[simp]
theorem fromDigits_numeralDigits (n : ℕ) : fromDigits (numeralDigits n) = n := by
  unfold fromDigits numeralDigits
  split
  · next h => simp [h]
  · simp [Nat.ofDigits_digits]

theorem numeralDigits_ne_nil (n : ℕ) : numeralDigits n ≠ [] := by
  unfold numeralDigits
  split
  · simp
  · next h => simpa [Nat.digits_eq_nil_iff_eq_zero] using h

/-- Only zero is spelled with a leading `0`. -/
theorem numeralDigits_head {n d : ℕ} {ds : List ℕ} (h : numeralDigits n = d :: ds) (hn : n ≠ 0) :
    d ≠ 0 := by
  simp only [numeralDigits, hn, if_false] at h
  have hne : Nat.digits 10 n ≠ [] := Nat.digits_ne_nil_iff_ne_zero.mpr hn
  have hlast := Nat.getLast_digit_ne_zero 10 hn
  have hrev : Nat.digits 10 n = ds.reverse ++ [d] := by
    have := congrArg List.reverse h
    simpa using this
  simp only [hrev, List.getLast_append_singleton] at hlast
  exact hlast

/-- Reading digits off the front of a text, as far as they go. -/
def spanDigits : List Char → List ℕ × List Char
  | [] => ([], [])
  | c :: cs =>
    match digit? c with
    | some d => ((d :: (spanDigits cs).1), (spanDigits cs).2)
    | none => ([], c :: cs)

/-- A text at which a numeral ends. -/
def StopsDigits (r : List Char) : Prop := ∀ c ∈ r.head?, digit? c = none

theorem spanDigits_append {ds : List ℕ} {r : List Char} (hd : ∀ d ∈ ds, d < 10)
    (hr : StopsDigits r) : spanDigits (ds.map Nat.digitChar ++ r) = (ds, r) := by
  induction ds with
  | nil =>
      cases r with
      | nil => rfl
      | cons c r => simp [spanDigits, hr c (by simp)]
  | cons d ds ih =>
      have h := digit?_digitChar (hd d (List.mem_cons_self ..))
      simp [spanDigits, h, ih (fun e he => hd e (List.mem_cons_of_mem _ he))]

/-- What was read off the front of a text, and what it left. -/
theorem eq_of_spanDigits {cs rest : List Char} {ds : List ℕ} (h : spanDigits cs = (ds, rest)) :
    cs = ds.map Nat.digitChar ++ rest ∧ ∀ d ∈ ds, d < 10 := by
  induction cs generalizing ds with
  | nil =>
      cases h
      simp
  | cons c cs ih =>
      rw [spanDigits] at h
      split at h
      · next d hd =>
          cases h
          obtain ⟨hcs, hlt⟩ := ih rfl
          refine ⟨?_, List.forall_mem_cons.mpr ⟨digit?_lt hd, hlt⟩⟩
          rw [List.map_cons, digitChar_of_digit? hd, List.cons_append, ← hcs]
      · cases h
        simp

/-- Digits of one length are determined by their number. -/
theorem fromDigits_inj {ds es : List ℕ} (hlength : ds.length = es.length) (hds : ∀ d ∈ ds, d < 10)
    (hes : ∀ d ∈ es, d < 10) (h : fromDigits ds = fromDigits es) : ds = es := by
  apply List.reverse_injective
  apply Nat.ofDigits_inj_of_len_eq (b := 10) (by norm_num) (by simpa using hlength) _ _ h
  · simpa using hds
  · simpa using hes

theorem fromDigits_lt {ds : List ℕ} (h : ∀ d ∈ ds, d < 10) : fromDigits ds < 10 ^ ds.length := by
  have hlt := Nat.ofDigits_lt_base_pow_length (b := 10) (l := ds.reverse) (by norm_num)
    (fun d hd => h d (List.mem_reverse.mp hd))
  rwa [List.length_reverse] at hlt

/-- Digits without a leading zero are those of their number. -/
theorem numeralDigits_fromDigits {d : ℕ} {ds : List ℕ} (hlt : ∀ e ∈ d :: ds, e < 10)
    (hlead : d ≠ 0 ∨ ds = []) : numeralDigits (fromDigits (d :: ds)) = d :: ds := by
  by_cases hd : d = 0
  · obtain rfl := hlead.resolve_left (not_not.mpr hd)
    subst hd
    rfl
  · have hdigits : Nat.digits 10 (fromDigits (d :: ds)) = (d :: ds).reverse := by
      apply Nat.digits_ofDigits 10 (by norm_num)
      · exact fun e he => hlt e (List.mem_reverse.mp he)
      · intro _
        simpa using hd
    have hne : fromDigits (d :: ds) ≠ 0 := by
      intro hzero
      simp [hzero] at hdigits
    rw [numeralDigits, if_neg hne, hdigits, List.reverse_reverse]

/-- A numeral is read back as its digits. -/
theorem spanDigits_numeral (n : ℕ) {r : List Char} (hr : StopsDigits r) :
    spanDigits (numeral n ++ r) = (numeralDigits n, r) :=
  spanDigits_append (fun _ h => numeralDigits_lt h) hr

/-! ## Fields of a fixed width -/

/-- The last `w` digits of `n`, zeros in front. -/
def padded : ℕ → ℕ → List Char
  | 0, _ => []
  | w + 1, n => padded w (n / 10) ++ [Nat.digitChar (n % 10)]

/-- Reading exactly `w` digits, onto the digits read before them. -/
def readDigits : ℕ → ℕ → List Char → Option (ℕ × List Char)
  | 0, acc, cs => some (acc, cs)
  | _ + 1, _, [] => none
  | w + 1, acc, c :: cs => (digit? c).bind fun d => readDigits w (10 * acc + d) cs

@[simp]
theorem length_padded (w n : ℕ) : (padded w n).length = w := by
  induction w generalizing n with
  | zero => rfl
  | succ w ih => simp [padded, ih]

/-- A field splits off its first digit. -/
theorem padded_succ (w n : ℕ) :
    padded (w + 1) n = Nat.digitChar (n / 10 ^ w % 10) :: padded w n := by
  induction w generalizing n with
  | zero => simp [padded]
  | succ w ih =>
      rw [padded, ih (n / 10), padded, List.cons_append, Nat.div_div_eq_div_mul, pow_succ']

/-- A field shows nothing of the digits left of it. -/
theorem padded_of_lt {w n : ℕ} (d : ℕ) (h : n < 10 ^ w) :
    padded w (d * 10 ^ w + n) = padded w n := by
  induction w generalizing n with
  | zero => rfl
  | succ w ih =>
      have hsplit : d * 10 ^ (w + 1) + n = 10 * (d * 10 ^ w) + n := by ring
      have hdiv : (d * 10 ^ (w + 1) + n) / 10 = d * 10 ^ w + n / 10 := by omega
      have hmod : (d * 10 ^ (w + 1) + n) % 10 = n % 10 := by omega
      have hn : n / 10 < 10 ^ w := by rwa [Nat.div_lt_iff_lt_mul (by norm_num), ← pow_succ]
      rw [padded, padded, hdiv, hmod, ih hn]

theorem readDigits_padded_acc (w n acc : ℕ) (r : List Char) :
    readDigits w acc (padded w n ++ r) = some (acc * 10 ^ w + n % 10 ^ w, r) := by
  induction w generalizing acc with
  | zero => simp [padded, readDigits, Nat.mod_one]
  | succ w ih =>
      have hd : n / 10 ^ w % 10 < 10 := Nat.mod_lt _ (by norm_num)
      rw [padded_succ, List.cons_append, readDigits, digit?_digitChar hd, Option.bind_some, ih]
      have hsplit : n % 10 ^ (w + 1) = n / 10 ^ w % 10 * 10 ^ w + n % 10 ^ w := by
        rw [pow_succ, Nat.mod_mul, mul_comm (10 ^ w) (n / 10 ^ w % 10), add_comm]
      rw [hsplit]
      congr 2
      ring

/-- A field is read back as its number. -/
theorem readDigits_padded {w n : ℕ} (h : n < 10 ^ w) (r : List Char) :
    readDigits w 0 (padded w n ++ r) = some (n, r) := by
  rw [readDigits_padded_acc, Nat.mod_eq_of_lt h, zero_mul, zero_add]

theorem readDigits_spec {w acc m : ℕ} {cs r : List Char} (h : readDigits w acc cs = some (m, r)) :
    ∃ n < 10 ^ w, m = acc * 10 ^ w + n ∧ cs = padded w n ++ r := by
  induction w generalizing acc cs with
  | zero =>
      simp only [readDigits, Option.some.injEq, Prod.mk.injEq] at h
      exact ⟨0, by norm_num, by simp [h.1], by simp [padded, h.2]⟩
  | succ w ih =>
      cases cs with
      | nil => simp [readDigits] at h
      | cons c cs =>
          simp only [readDigits, Option.bind_eq_some_iff] at h
          obtain ⟨d, hd, h⟩ := h
          obtain ⟨n, hn, rfl, rfl⟩ := ih h
          have hd10 := digit?_lt hd
          have hdiv : (d * 10 ^ w + n) / 10 ^ w = d := by
            rw [mul_comm, Nat.mul_add_div (by positivity), Nat.div_eq_of_lt hn, add_zero]
          refine ⟨d * 10 ^ w + n, ?_, by ring, ?_⟩
          · calc d * 10 ^ w + n < d * 10 ^ w + 10 ^ w := by omega
              _ = (d + 1) * 10 ^ w := by ring
              _ ≤ 10 * 10 ^ w := Nat.mul_le_mul_right _ (by omega)
              _ = 10 ^ (w + 1) := by ring
          · rw [padded_succ, hdiv, Nat.mod_eq_of_lt hd10, digitChar_of_digit? hd,
              padded_of_lt d hn, List.cons_append]
/-- What was read is a field of that width and its number. -/
theorem eq_padded_of_readDigits {w n : ℕ} {cs r : List Char}
    (h : readDigits w 0 cs = some (n, r)) : n < 10 ^ w ∧ cs = padded w n ++ r := by
  obtain ⟨m, hm, rfl, rfl⟩ := readDigits_spec h
  simp [hm]

/-! ## Texts of hexadecimal digits -/

/-- `^[0-9a-f]{<length>}$`. -/
def isLowerHex (length : ℕ) (s : String) : Bool :=
  decide (s.toList.length = length) &&
    s.toList.all fun c => ('0' ≤ c && c ≤ '9') || ('a' ≤ c && c ≤ 'f')

/-- `^[0-9a-f]{64}$`. -/
def isDigest (s : String) : Bool := isLowerHex 64 s

end AstroPassport
