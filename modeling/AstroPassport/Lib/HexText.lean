import AstroPassport.Lib.Binary64
import AstroPassport.Lib.Checked
import AstroPassport.Lib.Digits

set_option autoImplicit false

/-! # Hexadecimal texts of a binary64

`float.hex` and `float.fromhex`. The reader takes more spellings than the writer produces (white
space around the text, signs, a missing prefix, digits of either case, any exponent, infinities and
NaN), rounds to nearest and raises an `OverflowError` for a number too large, which it does before
it looks at what follows the number. A written text is read back (`fromHex_hex`).

The reader goes from the left: a sign, one of the words, or a prefix, a significand and an exponent.
The value of the digits is exact, a rational, and is rounded once at the end. A text is too large
when its number is, whatever stands behind it (`NumberOverflows`, `HexOverflows`), and on all other
texts a `ValueError` is the only exception (`contained_fromHex`). A written text of a finite number
has at least eight and at most thirty-two characters, which is what a model may ask of one. -/

namespace AstroPassport

/-! ## Writing -/

/-- The last `w` hexadecimal digits of `n`. -/
def hexDigits : ℕ → ℕ → List ℕ
  | 0, _ => []
  | w + 1, n => hexDigits w (n / 16) ++ [n % 16]

/-- A signed decimal exponent, its sign always written. -/
def exponentText (e : ℤ) : List Char := (if e < 0 then '-' else '+') :: numeral e.natAbs

/-- `x.hex()` without the sign. -/
def Finite64.hexMagnitude (x : Finite64) : List Char :=
  if x.man = 0 then "0x0.0p+0".toList
  else
    '0' :: 'x' :: Nat.digitChar (x.man / 2 ^ 52) :: '.' ::
      ((hexDigits 13 (x.man % 2 ^ 52)).map Nat.digitChar ++ 'p' :: exponentText (x.exp + 52))

/-- `float.hex`. -/
def Finite64.hex (x : Finite64) : List Char :=
  if x.neg then '-' :: x.hexMagnitude else x.hexMagnitude

/-- `x.hex()`. -/
def Binary64.hex : Binary64 → List Char
  | .finite x => x.hex
  | .inf neg => if neg then "-inf".toList else "inf".toList
  | .nan => "nan".toList

/-! ## Reading -/

/-- `Py_ISSPACE`. -/
def isAsciiSpace (c : Char) : Bool := (9 ≤ c.toNat && c.toNat ≤ 13) || c.toNat == 32

/-- Reading hexadecimal digits off the front of a text, as far as they go. -/
def spanHex : List Char → List ℕ × List Char
  | [] => ([], [])
  | c :: cs =>
    match hexDigit? c with
    | some d => (d :: (spanHex cs).1, (spanHex cs).2)
    | none => ([], c :: cs)

/-- A sign in front of a text, `true` for a minus. -/
def readSign : List Char → Bool × List Char
  | '-' :: cs => (true, cs)
  | '+' :: cs => (false, cs)
  | cs => (false, cs)

/-- A word in front of a text, in either case. -/
def readWord : List Char → List Char → Option (List Char)
  | [], cs => some cs
  | _ :: _, [] => none
  | w :: ws, c :: cs => if c.toLower = w then readWord ws cs else none

/-- `_Py_parse_inf_or_nan`. -/
def readInfOrNan (cs : List Char) : Option (Binary64 × List Char) :=
  match readWord "inf".toList (readSign cs).2 with
  | some rest => some (.inf (readSign cs).1, (readWord "inity".toList rest).getD rest)
  | none => (readWord "nan".toList (readSign cs).2).map (.nan, ·)

/-- The optional `0x`. -/
def skipHexPrefix : List Char → List Char
  | '0' :: 'x' :: cs => cs
  | '0' :: 'X' :: cs => cs
  | cs => cs

/-- The digits before and after the point; there is at least one. -/
def readSignificand (cs : List Char) : Option ((List ℕ × List ℕ) × List Char) :=
  match spanHex cs with
  | (int, '.' :: rest) =>
    if int.isEmpty && (spanHex rest).1.isEmpty then none
    else some ((int, (spanHex rest).1), (spanHex rest).2)
  | (int, rest) => if int.isEmpty then none else some ((int, []), rest)

/-- The exponent after a `p`, with at least one digit, or none at all. -/
def readBinaryExponent : List Char → Option (ℤ × List Char)
  | c :: cs =>
    if c = 'p' ∨ c = 'P' then
      match spanDigits (readSign cs).2 with
      | ([], _) => none
      | (ds, rest) => some (if (readSign cs).1 then -fromDigits ds else fromDigits ds, rest)
    else some (0, c :: cs)
  | [] => some (0, [])

/-- The number read, when only white space follows it. -/
def endOfHex (x : Binary64) (rest : List Char) : Checked Binary64 :=
  if rest.all isAsciiSpace then .ok x else .valueError

/-- The magnitude of a significand and an exponent. -/
def hexValue (digits : List ℕ × List ℕ) (exp : ℤ) : ℚ :=
  (Nat.ofDigits 16 (digits.1 ++ digits.2).reverse : ℕ) * 2 ^ (exp - 4 * digits.2.length)

theorem hexValue_nonneg (digits : List ℕ × List ℕ) (exp : ℤ) : 0 ≤ hexValue digits exp := by
  unfold hexValue
  positivity

/-- A number after its sign. -/
def readHexNumber (neg : Bool) (cs : List Char) : Checked Binary64 :=
  match readSignificand (skipHexPrefix cs) with
  | none => .valueError
  | some (digits, cs) =>
    match readBinaryExponent cs with
    | none => .valueError
    | some (exp, rest) =>
      match Binary64.ofMagnitude neg (hexValue digits exp) (hexValue_nonneg digits exp) with
      | .finite x => endOfHex (.finite x) rest
      | _ => .escaped .overflowError

/-- `float.fromhex`. -/
def Binary64.fromHex (text : List Char) : Checked Binary64 :=
  let cs := text.dropWhile isAsciiSpace
  match readInfOrNan cs with
  | some (x, rest) => endOfHex x rest
  | none => readHexNumber (readSign cs).1 (readSign cs).2

/-! ## Numbers that are too large -/

/-- A hexadecimal number, its sign read, that rounds to no finite binary64. What follows it in the
    text does not matter. -/
def NumberOverflows (cs : List Char) : Prop :=
  ∃ digits rest exp tail, readSignificand (skipHexPrefix cs) = some (digits, rest) ∧
    readBinaryExponent rest = some (exp, tail) ∧ 2 ^ 1024 ≤ roundMagnitude (hexValue digits exp)

/-- A text that `float.fromhex` reads as such a number. -/
def HexOverflows (text : List Char) : Prop :=
  readInfOrNan (text.dropWhile isAsciiSpace) = none ∧
    NumberOverflows (readSign (text.dropWhile isAsciiSpace)).2

theorem contained_endOfHex (x : Binary64) (rest : List Char) : (endOfHex x rest).Contained := by
  unfold endOfHex
  split <;> simp

theorem contained_readHexNumber {neg : Bool} {cs : List Char} :
    (readHexNumber neg cs).Contained ↔ ¬ NumberOverflows cs := by
  unfold readHexNumber NumberOverflows
  rcases hdigits : readSignificand (skipHexPrefix cs) with _ | ⟨digits, rest⟩
  · simp
  · rcases hexp : readBinaryExponent rest with _ | ⟨exp, tail⟩
    · simp [hexp]
    · rcases Binary64.ofMagnitude_cases neg (hexValue digits exp) (hexValue_nonneg digits exp) with
        ⟨x, hx, -, habs⟩ | ⟨hinf, hbig⟩
      · have hlt : roundMagnitude (hexValue digits exp) < 2 ^ 1024 := by
          have hexponent := x.exp_le
          rw [← habs, ← zpow_natCast]
          exact x.abs_lt_two_zpow.trans_le (zpow_le_zpow_right₀ (by norm_num) (by omega))
        simp [hexp, hx, hlt, contained_endOfHex]
      · simp [hexp, hinf, hbig]

/-- Only a number that is too large is more than a `ValueError`. -/
theorem contained_fromHex {text : List Char} :
    (Binary64.fromHex text).Contained ↔ ¬ HexOverflows text := by
  unfold HexOverflows
  rcases hword : readInfOrNan (text.dropWhile isAsciiSpace) with _ | ⟨x, rest⟩
  · simp only [Binary64.fromHex, hword, contained_readHexNumber, true_and]
  · simp only [Binary64.fromHex, hword, contained_endOfHex, reduceCtorEq, false_and, not_false_iff]

/-- And then it is an `OverflowError`. -/
theorem fromHex_eq_escaped {text : List Char} {e : Escape} (h : Binary64.fromHex text = .escaped e) :
    e = .overflowError := by
  have hend : ∀ x rest, endOfHex x rest ≠ .escaped e := fun x rest => contained_endOfHex x rest e
  simp only [Binary64.fromHex] at h
  split at h
  · exact absurd h (hend _ _)
  · unfold readHexNumber at h
    split at h
    · cases h
    · split at h
      · cases h
      · split at h
        · exact absurd h (hend _ _)
        · cases h
          rfl

/-! ## The length of a written text -/

theorem length_hexDigits (w n : ℕ) : (hexDigits w n).length = w := by
  induction w generalizing n with
  | zero => rfl
  | succ w ih => simp [hexDigits, ih]

theorem Finite64.length_hex_ge (x : Finite64) : 8 ≤ x.hex.length := by
  have hmagnitude : 8 ≤ x.hexMagnitude.length := by
    unfold hexMagnitude
    split
    · decide
    · simp only [List.length_cons, List.length_append, List.length_map, length_hexDigits]
      omega
  unfold hex
  split
  · rw [List.length_cons]
    omega
  · exact hmagnitude

/-- An exponent has at most four digits. -/
theorem Finite64.length_hex_le (x : Finite64) : x.hex.length ≤ 32 := by
  have hexponent : (numeral (x.exp + 52).natAbs).length ≤ 4 := by
    have := x.exp_ge
    have := x.exp_le
    exact length_numeral_le (by omega) (by norm_num)
  have hmagnitude : x.hexMagnitude.length ≤ 31 := by
    unfold hexMagnitude
    split
    · decide
    · simp only [List.length_cons, List.length_append, List.length_map, length_hexDigits,
        exponentText]
      omega
  unfold hex
  split
  · rw [List.length_cons]
    omega
  · omega

/-! ## A written text is read back -/

theorem hexDigits_lt {w n d : ℕ} (h : d ∈ hexDigits w n) : d < 16 := by
  induction w generalizing n with
  | zero => simp [hexDigits] at h
  | succ w ih =>
      rcases List.mem_append.mp h with h | h
      · exact ih h
      · rw [List.mem_singleton.mp h]
        exact Nat.mod_lt _ (by norm_num)

theorem ofDigits_hexDigits (w n : ℕ) : Nat.ofDigits 16 (hexDigits w n).reverse = n % 16 ^ w := by
  induction w generalizing n with
  | zero => simp [hexDigits, Nat.mod_one]
  | succ w ih =>
      rw [hexDigits, List.reverse_append, List.reverse_singleton, List.singleton_append,
        Nat.ofDigits_cons, ih, pow_succ', Nat.mod_mul]

theorem spanHex_append {ds : List ℕ} {rest : List Char} (hlt : ∀ d ∈ ds, d < 16)
    (hrest : ∀ c ∈ rest.head?, hexDigit? c = none) :
    spanHex (ds.map Nat.digitChar ++ rest) = (ds, rest) := by
  induction ds with
  | nil =>
      cases rest with
      | nil => rfl
      | cons c rest => simp [spanHex, hrest c (by simp)]
  | cons d ds ih =>
      have hdigit := hexDigit?_digitChar (hlt d (List.mem_cons_self ..))
      simp [spanHex, hdigit, ih fun e he => hlt e (List.mem_cons_of_mem _ he)]

/-- The canonical form is determined by the magnitude. -/
theorem Finite64.eq_of_abs_eq {x y : Finite64} (hneg : x.neg = y.neg) (habs : x.abs = y.abs) :
    x = y := by
  wlog hle : x.exp ≤ y.exp generalizing x y
  · exact (this hneg.symm habs.symm (not_le.mp hle).le).symm
  · have hscale : (x.man : ℚ) = (y.man * 2 ^ (y.exp - x.exp).toNat : ℕ) := by
      have hsub : ((y.exp - x.exp).toNat : ℤ) = y.exp - x.exp := by omega
      have hdiv : (x.man : ℚ) = y.man * 2 ^ y.exp / 2 ^ x.exp := by
        rw [eq_div_iff (by positivity)]
        exact habs
      rw [hdiv, mul_div_assoc, ← zpow_sub₀ (by norm_num), ← hsub, zpow_natCast]
      push_cast
      rfl
    have hman : x.man = y.man * 2 ^ (y.exp - x.exp).toNat := by exact_mod_cast hscale
    have hexp : x.exp = y.exp := by
      by_contra hne
      -- a larger exponent means a normal number, whose significand leaves no room to double
      have hnormal : 2 ^ 52 ≤ y.man := by
        have := x.exp_ge
        rcases y.normal with hbig | hsub
        · exact hbig
        · omega
      have htwo : 2 ^ 1 ≤ 2 ^ (y.exp - x.exp).toNat := Nat.pow_le_pow_right (by norm_num) (by omega)
      have hbig := Nat.mul_le_mul hnormal htwo
      have := x.man_lt
      omega
    obtain ⟨xneg, xman, xexp, _, _, _, _⟩ := x
    obtain ⟨yneg, yman, yexp, _, _, _, _⟩ := y
    simp only at hneg hexp hman
    subst hneg hexp
    simpa using hman

theorem Finite64.abs_lt_overflow (x : Finite64) : x.abs < 2 ^ 1024 := by
  calc x.abs < 2 ^ (x.exp + 53) := x.abs_lt_two_zpow
    _ ≤ 2 ^ (1024 : ℤ) := zpow_le_zpow_right₀ (by norm_num) (by have := x.exp_le; omega)
    _ = 2 ^ 1024 := zpow_natCast 2 1024

/-- The value of a finite binary64 rounds to it. -/
theorem Finite64.ofMagnitude_abs (x : Finite64) (h : 0 ≤ x.abs) :
    Binary64.ofMagnitude x.neg x.abs h = .finite x := by
  rcases Binary64.ofMagnitude_cases x.neg x.abs h with ⟨y, hy, hneg, habs⟩ | ⟨-, hbig⟩
  · rw [x.roundMagnitude_abs] at habs
    rw [hy, Finite64.eq_of_abs_eq hneg habs]
  · rw [x.roundMagnitude_abs] at hbig
    exact absurd x.abs_lt_overflow (not_lt.mpr hbig)

theorem readBinaryExponent_text (e : ℤ) : readBinaryExponent ('p' :: exponentText e) = some (e, []) := by
  have hspan := spanDigits_numeral e.natAbs (r := []) (by simp [StopsDigits])
  rw [List.append_nil] at hspan
  have hdigits := fromDigits_numeralDigits e.natAbs
  rcases hlist : numeralDigits e.natAbs with _ | ⟨d, ds⟩
  · exact absurd hlist (numeralDigits_ne_nil _)
  · rw [hlist] at hspan hdigits
    unfold exponentText
    split
    · next hneg =>
        simp only [readBinaryExponent, true_or, if_true, readSign, hspan, hdigits]
        congr
        omega
    · next hpos =>
        simp only [readBinaryExponent, true_or, if_true, readSign, hspan, hdigits,
          Bool.false_eq_true, if_false]
        congr
        omega

/-- What follows the prefix of a written number is read as its magnitude. -/
theorem exists_hexMagnitude (x : Finite64) :
    ∃ cs digits exp, x.hexMagnitude = '0' :: 'x' :: cs ∧
      readSignificand cs = some (digits, 'p' :: exponentText exp) ∧ hexValue digits exp = x.abs := by
  unfold Finite64.hexMagnitude
  split
  · next hzero =>
      refine ⟨"0.0p+0".toList, ([0], [0]), 0, rfl, by decide, ?_⟩
      simp [hexValue, Finite64.abs, hzero, Nat.ofDigits_cons]
  · refine ⟨_, ([x.man / 2 ^ 52], hexDigits 13 (x.man % 2 ^ 52)), x.exp + 52, rfl, ?_, ?_⟩
    -- the leading digit is the top bit, or zero for a subnormal
    · have hlead : x.man / 2 ^ 52 < 16 := by
        have := x.man_lt
        omega
      have hstop : ∀ c ∈ ('p' :: exponentText (x.exp + 52)).head?, hexDigit? c = none := by
        intro c hc
        cases hc
        decide
      have hfraction := spanHex_append (fun _ h => hexDigits_lt (n := x.man % 2 ^ 52) (w := 13) h)
        hstop
      have hdot : hexDigit? '.' = none := by decide
      simp only [readSignificand, spanHex, hexDigit?_digitChar hlead, hdot, hfraction,
        List.isEmpty_cons, Bool.false_and, Bool.false_eq_true, if_false]
    -- one digit and thirteen make the whole significand
    · have hdigits : Nat.ofDigits 16 ([x.man / 2 ^ 52] ++ hexDigits 13 (x.man % 2 ^ 52)).reverse =
          x.man := by
        rw [List.reverse_append, Nat.ofDigits_append, ofDigits_hexDigits, List.length_reverse,
          length_hexDigits, List.reverse_singleton, Nat.ofDigits_singleton]
        omega
      have hexp : x.exp + 52 - 4 * ((13 : ℕ) : ℤ) = x.exp := by
        push_cast
        ring
      rw [hexValue, hdigits, length_hexDigits, hexp, Finite64.abs]

theorem readHexNumber_hex (x : Finite64) :
    readHexNumber x.neg x.hexMagnitude = .ok (.finite x) := by
  obtain ⟨cs, digits, exp, htext, hsignificand, hvalue⟩ := exists_hexMagnitude x
  have hround : Binary64.ofMagnitude x.neg (hexValue digits exp) (hexValue_nonneg digits exp) =
      .finite x := by
    simp only [hvalue]
    exact x.ofMagnitude_abs x.abs_nonneg
  rw [htext]
  simp only [readHexNumber, skipHexPrefix, hsignificand, readBinaryExponent_text, hround]
  rfl

/-- `fromhex(x.hex())` is `x`. -/
theorem fromHex_hex (x : Finite64) : Binary64.fromHex x.hex = .ok (.finite x) := by
  obtain ⟨cs, -, -, htext, -, -⟩ := exists_hexMagnitude x
  have hsign : readSign x.hex = (x.neg, x.hexMagnitude) := by
    unfold Finite64.hex
    cases x.neg
    · rw [htext]
      rfl
    · rfl
  have hspace : x.hex.dropWhile isAsciiSpace = x.hex := by
    unfold Finite64.hex
    rw [htext]
    cases x.neg <;> rfl
  have hword : readInfOrNan x.hex = none := by
    simp only [readInfOrNan, hsign, htext]
    rfl
  simp only [Binary64.fromHex, hspace, hword, hsign, readHexNumber_hex]

end AstroPassport
