import AstroPassport.Lib.Digits
import AstroPassport.Lib.HalfEven
import Mathlib.Algebra.Order.Field.Power

set_option autoImplicit false

/-! # Decimal numbers and their fixed-point texts

A finite `Decimal` of the Python module: a sign, a coefficient and a power of ten, zeros keeping
their sign. Rounding to a number of places and the fixed-point text are half to even and exact
otherwise. A context bounds the digits of a result: a product is rounded to them, and a quantized
number that has more is an `InvalidOperation`.

The operations come in two forms. The first are without a context, `quantize` and `modNat`, and
their lemmas are about exact values; the second have the digits of the context as an argument, and
for operands within the bounds they are the first (`quantizeIn_of_le`, `modNatIn_of_le`), so that a
bound on the digits is all that a user has to supply. A plain text, digits with at most one point
between them, is read without a context and exactly (`readDecimal_eq_some`); what a fixed-point text
of a number is read back as is said by `readDecimal_fixed`. -/

namespace AstroPassport

/-- `± coeff * 10 ^ exp`. -/
structure PyDecimal where
  neg : Bool
  coeff : ℕ
  exp : ℤ
  deriving DecidableEq, Repr

namespace PyDecimal

/-- The value without the sign. -/
def magnitude (d : PyDecimal) : ℚ := d.coeff * 10 ^ d.exp

/-- The exact value; both zeros have value `0`. -/
def value (d : PyDecimal) : ℚ := if d.neg then -d.magnitude else d.magnitude

theorem magnitude_nonneg (d : PyDecimal) : 0 ≤ d.magnitude := by
  unfold magnitude
  positivity

theorem abs_value (d : PyDecimal) : |d.value| = d.magnitude := by
  unfold value
  split
  · rw [abs_neg, abs_of_nonneg d.magnitude_nonneg]
  · rw [abs_of_nonneg d.magnitude_nonneg]

/-- The magnitude in units of the last of so many places, rounded half to even. -/
def scaledMagnitude (places : ℕ) (d : PyDecimal) : ℕ :=
  (roundHalfEven (d.magnitude * 10 ^ places)).toNat

/-- `quantize`. -/
def quantize (places : ℕ) (d : PyDecimal) : PyDecimal := ⟨d.neg, d.scaledMagnitude places, -places⟩

/-- `d % m` for a natural number `m`: the remainder has the sign of `d`. -/
def modNat (d : PyDecimal) (m : ℕ) : PyDecimal :=
  if d.exp ≤ 0 then ⟨d.neg, d.coeff % (m * 10 ^ (-d.exp).toNat), d.exp⟩
  else ⟨d.neg, d.coeff * 10 ^ d.exp.toNat % m, 0⟩

/-- `format(d, ".<places>f")`. -/
def fixedText (places : ℕ) (d : PyDecimal) : List Char :=
  (if d.neg then ['-'] else []) ++ numeral (d.scaledMagnitude places / 10 ^ places) ++
    '.' :: padded places (d.scaledMagnitude places % 10 ^ places)

theorem scaledMagnitude_cast (places : ℕ) (d : PyDecimal) :
    (d.scaledMagnitude places : ℤ) = roundHalfEven (d.magnitude * 10 ^ places) := by
  apply Int.toNat_of_nonneg
  apply le_roundHalfEven
  have := d.magnitude_nonneg
  push_cast
  positivity

/-- A decimal of that many places is not rounded. -/
theorem scaledMagnitude_of_eq {places n : ℕ} {d : PyDecimal}
    (h : d.magnitude = n * 10 ^ (-(places : ℤ))) : d.scaledMagnitude places = n := by
  have hscale : d.magnitude * 10 ^ places = (n : ℤ) := by
    rw [h, mul_assoc, ← zpow_natCast, ← zpow_add₀ (by norm_num), neg_add_cancel, zpow_zero, mul_one]
    rfl
  have hcast := d.scaledMagnitude_cast places
  rw [hscale, roundHalfEven_intCast] at hcast
  exact_mod_cast hcast

theorem scaledMagnitude_le {places n : ℕ} {d : PyDecimal} (h : d.magnitude * 10 ^ places ≤ n) :
    d.scaledMagnitude places ≤ n := by
  have hround : (d.scaledMagnitude places : ℤ) ≤ n := by
    rw [scaledMagnitude_cast]
    exact roundHalfEven_le (by rwa [Int.cast_natCast])
  exact_mod_cast hround

/-! ## Contexts -/

/-- The coefficient has no more digits than a precision. -/
def fits (prec : ℕ) (d : PyDecimal) : Bool := decide (d.coeff < 10 ^ prec)

/-- The number rounded to the digits of a precision. -/
def roundTo (prec : ℕ) (d : PyDecimal) : PyDecimal :=
  if d.fits prec then d
  else
    let dropped := (Nat.digits 10 d.coeff).length - prec
    ⟨d.neg, (roundHalfEven (d.coeff / 10 ^ dropped)).toNat, d.exp + dropped⟩

/-- `d * 10 ** k`. -/
def mulPowTenIn (prec k : ℕ) (d : PyDecimal) : PyDecimal :=
  roundTo prec ⟨d.neg, d.coeff * 10 ^ k, d.exp⟩

/-- `quantize`; there is no result with too many digits. -/
def quantizeIn (prec places : ℕ) (d : PyDecimal) : Option PyDecimal :=
  if (d.quantize places).fits prec then some (d.quantize places) else none

/-- `d % m`; there is no result for an integer quotient with too many digits. -/
def modNatIn (prec : ℕ) (d : PyDecimal) (m : ℕ) : Option PyDecimal :=
  if ⌊d.magnitude / m⌋₊ < 10 ^ prec then some (d.modNat m) else none

/-- `int(d)`. -/
def toInt (d : PyDecimal) : ℤ := if d.neg then -⌊d.magnitude⌋₊ else ⌊d.magnitude⌋₊

theorem mulPowTenIn_of_lt {prec k : ℕ} {d : PyDecimal} (h : d.coeff * 10 ^ k < 10 ^ prec) :
    d.mulPowTenIn prec k = ⟨d.neg, d.coeff * 10 ^ k, d.exp⟩ :=
  if_pos (decide_eq_true h)

theorem quantizeIn_of_le {prec places n : ℕ} {d : PyDecimal} (h : d.magnitude * 10 ^ places ≤ n)
    (hn : n < 10 ^ prec) : d.quantizeIn prec places = some (d.quantize places) :=
  if_pos (decide_eq_true ((scaledMagnitude_le h).trans_lt hn))

theorem modNatIn_of_le {prec m : ℕ} {d : PyDecimal} (hm : 0 < m) (h : d.magnitude ≤ m)
    (hprec : 0 < prec) : d.modNatIn prec m = some (d.modNat m) := by
  apply if_pos
  have hle : d.magnitude / m ≤ 1 := by
    rw [div_le_one (by exact_mod_cast hm)]
    exact h
  have hfloor : ⌊d.magnitude / m⌋₊ ≤ 1 := Nat.floor_le_of_le (by exact_mod_cast hle)
  have hten : 1 < 10 ^ prec := Nat.one_lt_pow hprec.ne' (by norm_num)
  omega

/-- The integer a number is quantized to is its rounding. -/
theorem toInt_quantize_zero (d : PyDecimal) : (d.quantize 0).toInt = roundHalfEven d.value := by
  have hfloor : ⌊(d.quantize 0).magnitude⌋₊ = d.scaledMagnitude 0 := by
    simp [quantize, magnitude]
  have hcast := d.scaledMagnitude_cast 0
  rw [pow_zero, mul_one] at hcast
  unfold toInt value
  rw [hfloor, hcast]
  show (if d.neg then _ else _) = _
  split
  · rw [roundHalfEven_neg]
  · rfl

theorem value_mulPowTen (k : ℕ) (d : PyDecimal) :
    PyDecimal.value ⟨d.neg, d.coeff * 10 ^ k, d.exp⟩ = d.value * 10 ^ k := by
  unfold value magnitude
  push_cast
  split <;> ring

/-- A number scaled by a power of ten and quantized to an integer, where the context has room. -/
theorem quantizeIn_mulPowTenIn {prec places bound : ℕ} {d : PyDecimal}
    (hcoeff : d.coeff * 10 ^ places < 10 ^ prec) (hmagnitude : d.magnitude ≤ bound)
    (hbound : bound * 10 ^ places < 10 ^ prec) :
    ∃ r, (d.mulPowTenIn prec places).quantizeIn prec 0 = some r ∧
      r.toInt = roundHalfEven (d.value * 10 ^ places) := by
  have hscaled : magnitude ⟨d.neg, d.coeff * 10 ^ places, d.exp⟩ * 10 ^ 0 ≤
      (bound * 10 ^ places : ℕ) := by
    have heq : magnitude ⟨d.neg, d.coeff * 10 ^ places, d.exp⟩ = d.magnitude * 10 ^ places := by
      simp only [magnitude]
      push_cast
      ring
    rw [heq, pow_zero, mul_one]
    push_cast
    gcongr
  rw [mulPowTenIn_of_lt hcoeff, quantizeIn_of_le hscaled hbound]
  exact ⟨_, rfl, by rw [toInt_quantize_zero, value_mulPowTen]⟩

end PyDecimal

/-! ## Reading a plain decimal -/

/-- The integer digits and the fraction digits of `[0-9]+(?:\.[0-9]+)?`. -/
def readUnsigned (cs : List Char) : Option (List ℕ × List ℕ) :=
  match spanDigits cs with
  | ([], _) => none
  | (int, []) => some (int, [])
  | (int, '.' :: rest) =>
    match spanDigits rest with
    | ([], _) => none
    | (fraction, []) => some (int, fraction)
    | _ => none
  | _ => none

/-- The sign, the integer digits and the fraction digits of `-?[0-9]+(?:\.[0-9]+)?`. -/
def readDecimal : List Char → Option (Bool × List ℕ × List ℕ)
  | '-' :: cs => (readUnsigned cs).map (true, ·)
  | cs => (readUnsigned cs).map (false, ·)

/-- `Decimal(text)`, of the parts of a plain decimal. -/
def PyDecimal.ofParts (parts : Bool × List ℕ × List ℕ) : PyDecimal :=
  ⟨parts.1, fromDigits (parts.2.1 ++ parts.2.2), -parts.2.2.length⟩

theorem fromDigits_append (ds es : List ℕ) :
    fromDigits (ds ++ es) = fromDigits ds * 10 ^ es.length + fromDigits es := by
  simp only [fromDigits, List.reverse_append, Nat.ofDigits_append, List.length_reverse]
  ring

/-- The digits of a field. -/
theorem exists_digits_padded (w n : ℕ) :
    ∃ ds, padded w n = ds.map Nat.digitChar ∧ ds.length = w ∧ (∀ d ∈ ds, d < 10) ∧
      fromDigits ds = n % 10 ^ w := by
  induction w generalizing n with
  | zero => exact ⟨[], rfl, rfl, by simp, by simp [fromDigits, Nat.mod_one]⟩
  | succ w ih =>
      obtain ⟨ds, hds, hlength, hlt, hvalue⟩ := ih (n / 10)
      refine ⟨ds ++ [n % 10], ?_, by simp [hlength], ?_, ?_⟩
      · rw [padded, hds, List.map_append, List.map_cons, List.map_nil]
      · intro d hd
        rcases List.mem_append.mp hd with hd | hd
        · exact hlt d hd
        · rw [List.mem_singleton.mp hd]
          exact Nat.mod_lt _ (by norm_num)
      · have hone : fromDigits [n % 10] = n % 10 := by simp [fromDigits]
        rw [fromDigits_append, hvalue, hone, List.length_singleton, pow_one, pow_succ']
        have := Nat.mod_mul (x := n) (a := 10) (b := 10 ^ w)
        omega

/-- The text of digits, the point only in front of a fraction. -/
def unsignedText (int fraction : List ℕ) : List Char :=
  int.map Nat.digitChar ++ if fraction = [] then [] else '.' :: fraction.map Nat.digitChar

/-- The text of a sign and digits. -/
def decimalText (neg : Bool) (int fraction : List ℕ) : List Char :=
  (if neg then ['-'] else []) ++ unsignedText int fraction

theorem stopsDigits_fraction (fraction : List ℕ) :
    StopsDigits (if fraction = [] then [] else '.' :: fraction.map Nat.digitChar) := by
  intro c hc
  split at hc
  · cases hc
  · cases hc
    rfl

theorem spanDigits_map_digitChar {ds : List ℕ} (h : ∀ d ∈ ds, d < 10) :
    spanDigits (ds.map Nat.digitChar) = (ds, []) := by
  have := spanDigits_append h (r := []) (by simp [StopsDigits])
  rwa [List.append_nil] at this

/-- The unsigned decimals are the texts of digits, and are read as their digits. -/
theorem readUnsigned_eq_some {cs : List Char} {int fraction : List ℕ} :
    readUnsigned cs = some (int, fraction) ↔ cs = unsignedText int fraction ∧ int ≠ [] ∧
      (∀ d ∈ int, d < 10) ∧ ∀ d ∈ fraction, d < 10 := by
  constructor
  · intro h
    unfold readUnsigned at h
    split at h
    · cases h
    · next hne hint =>
        cases h
        obtain ⟨rfl, hlt⟩ := eq_of_spanDigits hint
        exact ⟨rfl, hne, hlt, by simp⟩
    · next rest hne hint =>
        split at h
        · cases h
        · next hne' hrest =>
            cases h
            obtain ⟨rfl, hlt⟩ := eq_of_spanDigits hint
            obtain ⟨rfl, hlt'⟩ := eq_of_spanDigits hrest
            refine ⟨?_, hne, hlt, hlt'⟩
            rw [unsignedText, if_neg hne', List.append_nil]
        · cases h
    · cases h
  · rintro ⟨rfl, hne, hlt, hlt'⟩
    unfold readUnsigned unsignedText
    rw [spanDigits_append hlt (stopsDigits_fraction fraction)]
    rcases int with _ | ⟨d, ds⟩
    · exact absurd rfl hne
    · rcases fraction with _ | ⟨e, es⟩
      · rfl
      · rw [if_neg (List.cons_ne_nil e es)]
        simp only [spanDigits_map_digitChar hlt']

/-- A digit is no sign. -/
theorem digitChar_ne_minus {d : ℕ} (h : d < 10) : Nat.digitChar d ≠ '-' := by
  intro heq
  have := digit?_digitChar h
  rw [heq] at this
  cases this

/-- The plain decimals are the texts of a sign and digits. -/
theorem readDecimal_eq_some {cs : List Char} {neg : Bool} {int fraction : List ℕ} :
    readDecimal cs = some (neg, int, fraction) ↔ cs = decimalText neg int fraction ∧ int ≠ [] ∧
      (∀ d ∈ int, d < 10) ∧ ∀ d ∈ fraction, d < 10 := by
  constructor
  · intro h
    unfold readDecimal at h
    split at h
    · simp only [Option.map_eq_some_iff, Prod.mk.injEq] at h
      obtain ⟨_, h, rfl, rfl⟩ := h
      obtain ⟨rfl, hrest⟩ := readUnsigned_eq_some.1 h
      exact ⟨rfl, hrest⟩
    · simp only [Option.map_eq_some_iff, Prod.mk.injEq] at h
      obtain ⟨_, h, rfl, rfl⟩ := h
      obtain ⟨rfl, hrest⟩ := readUnsigned_eq_some.1 h
      exact ⟨rfl, hrest⟩
  · rintro ⟨rfl, hne, hlt, hlt'⟩
    have hread := readUnsigned_eq_some.2 ⟨rfl, hne, hlt, hlt'⟩
    cases neg with
    | true => exact congrArg (Option.map (true, ·)) hread
    | false =>
        show readDecimal (unsignedText int fraction) = _
        unfold readDecimal
        split
        · next heq =>
            -- the text starts with its first digit
            rcases int with _ | ⟨d, ds⟩
            · exact absurd rfl hne
            · exact absurd (List.cons.inj heq).1 (digitChar_ne_minus (hlt d (by simp)))
        · rw [hread]
          rfl

/-- A fixed-point text without sign is read as the digits of its number. -/
theorem readDecimal_fixed {places n : ℕ} (hplaces : places ≠ 0) :
    ∃ fraction, readDecimal (numeral (n / 10 ^ places) ++
        '.' :: padded places (n % 10 ^ places)) =
        some (false, numeralDigits (n / 10 ^ places), fraction) ∧
      fraction.length = places ∧
      fromDigits (numeralDigits (n / 10 ^ places) ++ fraction) = n := by
  obtain ⟨fraction, hfraction, hlength, hlt, hvalue⟩ :=
    exists_digits_padded places (n % 10 ^ places)
  have hne : fraction ≠ [] := by
    rintro rfl
    exact hplaces hlength.symm
  refine ⟨fraction, ?_, hlength, ?_⟩
  · rw [readDecimal_eq_some]
    refine ⟨?_, numeralDigits_ne_nil _, fun _ h => numeralDigits_lt h, hlt⟩
    rw [hfraction, decimalText, unsignedText, if_neg hne]
    rfl
  · rw [fromDigits_append, fromDigits_numeralDigits, hvalue, hlength, Nat.mod_mod,
      mul_comm, Nat.div_add_mod]

end AstroPassport
