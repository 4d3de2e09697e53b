import AstroPassport.Lib.Binary64
import AstroPassport.Lib.Decimal

set_option autoImplicit false

/-! # The shortest decimal of a binary64

What `repr` prints of a float is the decimal with the fewest significant digits that rounds to it,
and the nearest such one. Of each length only the two decimals around the value need a look; with 17
digits the nearest one always rounds back (`roundMagnitude_nearest`), so the search ends there.

The search goes through the lengths from one digit on and takes the first that has a coefficient
which rounds back (`coefficient?`, `shortestFrom`). That the result rounds back is then by
construction once the last length is known to succeed, and this is where the precision of a binary64
comes in: 17 digits are closer together than two floats. Three things are used of the result: it
rounds back, it has at most 17 digits, and it is in the order of the floats, since rounding is
monotone and two decimals in the wrong order would be one float. -/

namespace AstroPassport

/-- The power of ten of the last of so many significant digits of `q`. -/
def lastPlace (q : ℚ) (digits : ℕ) : ℤ := Int.log 10 q - digits + 1

/-- The coefficient of the shortest spelling of `q` with so many digits, if one rounds back to `q`:
    the decimal below or the one above, or the nearer of the two, an even one first. -/
def coefficient? (q : ℚ) (digits : ℕ) : Option ℕ :=
  let e := lastPlace q digits
  let below := ⌊q / 10 ^ e⌋₊
  if roundMagnitude (below * 10 ^ e) = q then
    if roundMagnitude ((below + 1 : ℕ) * 10 ^ e) = q then some (roundHalfEven (q / 10 ^ e)).toNat
    else some below
  else if roundMagnitude ((below + 1 : ℕ) * 10 ^ e) = q then some (below + 1)
  else none

/-- The search over the number of digits; after the last length the nearest decimal is taken. -/
def shortestFrom (q : ℚ) : ℕ → ℕ → ℕ × ℤ
  | 0, digits => ((roundHalfEven (q / 10 ^ lastPlace q digits)).toNat, lastPlace q digits)
  | fuel + 1, digits =>
    match coefficient? q digits with
    | some n => (n, lastPlace q digits)
    | none => shortestFrom q fuel (digits + 1)

/-- The coefficient and the exponent of the shortest decimal of a magnitude. -/
def shortestDecimal (q : ℚ) : ℕ × ℤ := if q ≤ 0 then (0, 0) else shortestFrom q 16 1

/-- `Decimal(str(x))` of a finite float, up to the zeros that `str` writes after an integer. -/
def Finite64.toDecimal (x : Finite64) : PyDecimal :=
  ⟨x.neg, (shortestDecimal x.abs).1, (shortestDecimal x.abs).2⟩

/-! ## The shortest decimal rounds back -/

/-- The nearest decimal of 17 digits is within the relative error a binary64 absorbs. -/
theorem Finite64.roundMagnitude_nearest {x : Finite64} (hx : 0 < x.abs) :
    roundMagnitude ((roundHalfEven (x.abs / 10 ^ lastPlace x.abs 17)).toNat *
      10 ^ lastPlace x.abs 17) = x.abs := by
  have hunit : (0 : ℚ) < 10 ^ lastPlace x.abs 17 := by positivity
  have hcast : (((roundHalfEven (x.abs / 10 ^ lastPlace x.abs 17)).toNat : ℕ) : ℚ) =
      roundHalfEven (x.abs / 10 ^ lastPlace x.abs 17) := by
    have hnonneg : 0 ≤ roundHalfEven (x.abs / 10 ^ lastPlace x.abs 17) := by
      apply le_roundHalfEven
      push_cast
      positivity
    exact_mod_cast Int.toNat_of_nonneg hnonneg
  -- seventeen digits: the leading one stands sixteen places above the last
  have hlead : (10 : ℚ) ^ lastPlace x.abs 17 * 10 ^ 16 ≤ x.abs := by
    have hlog := Int.zpow_log_le_self (R := ℚ) (b := 10) (by norm_num) hx
    have hexp : Int.log 10 x.abs = lastPlace x.abs 17 + (16 : ℕ) := by
      simp only [lastPlace]
      push_cast
      ring
    rw [hexp, zpow_add₀ (by norm_num), zpow_natCast] at hlog
    exact_mod_cast hlog
  have hhalf := abs_roundHalfEven_sub_le (x.abs / 10 ^ lastPlace x.abs 17)
  -- half a unit of the last place is less than half a unit of the binary one
  apply roundMagnitude_of_near
  rw [hcast]
  have hscale : (roundHalfEven (x.abs / 10 ^ lastPlace x.abs 17) : ℚ) * 10 ^ lastPlace x.abs 17 -
      x.abs = (roundHalfEven (x.abs / 10 ^ lastPlace x.abs 17) - x.abs / 10 ^ lastPlace x.abs 17) *
        10 ^ lastPlace x.abs 17 := by
    rw [sub_mul, div_mul_cancel₀ _ hunit.ne']
  rw [hscale, abs_mul, abs_of_pos hunit]
  calc |(roundHalfEven (x.abs / 10 ^ lastPlace x.abs 17) : ℚ) - x.abs / 10 ^ lastPlace x.abs 17| *
        10 ^ lastPlace x.abs 17 * 2 ^ 54
      ≤ 1 / 2 * 10 ^ lastPlace x.abs 17 * 2 ^ 54 := by gcongr
    _ < 10 ^ lastPlace x.abs 17 * 10 ^ 16 := by
        have h : (1 / 2 * 2 ^ 54 : ℚ) < 10 ^ 16 := by norm_num
        calc 1 / 2 * (10 : ℚ) ^ lastPlace x.abs 17 * 2 ^ 54
            = 10 ^ lastPlace x.abs 17 * (1 / 2 * 2 ^ 54) := by ring
          _ < 10 ^ lastPlace x.abs 17 * 10 ^ 16 := mul_lt_mul_of_pos_left h hunit
    _ ≤ x.abs := hlead

theorem roundMagnitude_coefficient {q : ℚ} {digits n : ℕ} (hq : 0 ≤ q)
    (h : coefficient? q digits = some n) :
    roundMagnitude (n * 10 ^ lastPlace q digits) = q := by
  simp only [coefficient?] at h
  split_ifs at h with hbelow habove habove
  · cases h
    -- the nearer of two that round back is one of them
    have hfloor : ⌊q / 10 ^ lastPlace q digits⌋.toNat = ⌊q / 10 ^ lastPlace q digits⌋₊ :=
      Int.floor_toNat _
    have hnonneg : 0 ≤ ⌊q / 10 ^ lastPlace q digits⌋ := Int.floor_nonneg.mpr (by positivity)
    rcases roundHalfEven_cases (q / 10 ^ lastPlace q digits) with heq | heq
    · rw [heq, hfloor]
      exact hbelow
    · rw [heq, Int.toNat_add hnonneg (by norm_num), hfloor]
      exact habove
  · cases h
    exact hbelow
  · cases h
    exact habove

theorem Finite64.roundMagnitude_shortestFrom {x : Finite64} (hx : 0 < x.abs) {fuel digits : ℕ}
    (h : fuel + digits = 17) :
    roundMagnitude ((shortestFrom x.abs fuel digits).1 * 10 ^ (shortestFrom x.abs fuel digits).2) =
      x.abs := by
  induction fuel generalizing digits with
  | zero =>
      obtain rfl : digits = 17 := by omega
      exact roundMagnitude_nearest hx
  | succ fuel ih =>
      rw [shortestFrom]
      split
      · next n hn => exact roundMagnitude_coefficient hx.le hn
      · exact ih (by omega)

/-- The decimal `str` gives of a float rounds to the float. -/
theorem Finite64.roundMagnitude_toDecimal (x : Finite64) :
    roundMagnitude x.toDecimal.magnitude = x.abs := by
  show roundMagnitude ((shortestDecimal x.abs).1 * 10 ^ (shortestDecimal x.abs).2) = x.abs
  unfold shortestDecimal
  split
  · next h =>
      have hzero : x.abs = 0 := le_antisymm h x.abs_nonneg
      have hround := roundMagnitude_natCast (n := 0) (by norm_num)
      simpa [hzero] using hround
  · next h => exact roundMagnitude_shortestFrom (not_le.mp h) rfl

/-! ## It has at most 17 digits -/

theorem div_lastPlace_lt (q : ℚ) (digits : ℕ) : q / 10 ^ lastPlace q digits < 10 ^ digits := by
  have hlog := Int.lt_zpow_succ_log_self (R := ℚ) (b := 10) (by norm_num) q
  have hexp : Int.log 10 q + 1 = lastPlace q digits + digits := by
    simp only [lastPlace]
    ring
  rw [hexp, Nat.cast_ofNat, zpow_add₀ (by norm_num), zpow_natCast, mul_comm] at hlog
  rw [div_lt_iff₀ (by positivity)]
  exact hlog

theorem roundHalfEven_lastPlace_le (q : ℚ) (digits : ℕ) :
    (roundHalfEven (q / 10 ^ lastPlace q digits)).toNat ≤ 10 ^ digits := by
  have h := roundHalfEven_le (n := 10 ^ digits) (by exact_mod_cast (div_lastPlace_lt q digits).le)
  rw [Int.toNat_le]
  exact_mod_cast h

theorem coefficient_le {q : ℚ} {digits n : ℕ} (hq : 0 ≤ q) (h : coefficient? q digits = some n) :
    n ≤ 10 ^ digits := by
  have hbelow : ⌊q / 10 ^ lastPlace q digits⌋₊ < 10 ^ digits := by
    rw [Nat.floor_lt (by positivity)]
    exact_mod_cast div_lastPlace_lt q digits
  simp only [coefficient?] at h
  split_ifs at h with hround habove habove
  · cases h
    exact roundHalfEven_lastPlace_le q digits
  · cases h
    exact hbelow.le
  · cases h
    exact hbelow

theorem shortestFrom_le {q : ℚ} (hq : 0 ≤ q) {fuel digits : ℕ} (h : fuel + digits = 17) :
    (shortestFrom q fuel digits).1 ≤ 10 ^ 17 := by
  induction fuel generalizing digits with
  | zero =>
      obtain rfl : digits = 17 := by omega
      exact roundHalfEven_lastPlace_le q 17
  | succ fuel ih =>
      rw [shortestFrom]
      split
      · next n hn =>
          calc n ≤ 10 ^ digits := coefficient_le hq hn
            _ ≤ 10 ^ 17 := Nat.pow_le_pow_right (by norm_num) (by omega)
      · exact ih (by omega)

theorem Finite64.toDecimal_coeff_le (x : Finite64) : x.toDecimal.coeff ≤ 10 ^ 17 := by
  show (shortestDecimal x.abs).1 ≤ 10 ^ 17
  unfold shortestDecimal
  split
  · norm_num
  · exact shortestFrom_le x.abs_nonneg rfl

/-- A binary64 bound on a float's magnitude bounds its decimal. -/
theorem Finite64.toDecimal_magnitude_le {x : Finite64} {bound : ℕ} (hbound : bound < 2 ^ 53)
    (h : x.abs < bound) : x.toDecimal.magnitude ≤ bound := by
  by_contra hlt
  have hmono := roundMagnitude_mono (p := bound) (by positivity) (not_le.mp hlt).le
  rw [x.roundMagnitude_toDecimal, roundMagnitude_natCast hbound] at hmono
  exact absurd h (not_lt.mpr hmono)

/-! ## It is in the order of the floats -/

theorem Finite64.roundRat_toDecimal (x : Finite64) : roundRat x.toDecimal.value = x.value := by
  have hround := x.roundMagnitude_toDecimal
  have hnonneg := x.toDecimal.magnitude_nonneg
  show roundRat (if x.neg then -x.toDecimal.magnitude else x.toDecimal.magnitude) =
    if x.neg then -x.abs else x.abs
  unfold roundRat
  by_cases hneg : x.neg = true
  · rw [if_pos hneg, if_pos hneg, abs_neg, abs_of_nonneg hnonneg, hround]
    split
    · rfl
    · next hzero =>
        -- the negative zero
        have hmagnitude : x.toDecimal.magnitude = 0 := by linarith
        rw [hmagnitude] at hround
        have hzero := roundMagnitude_natCast (n := 0) (by norm_num)
        rw [Nat.cast_zero, hround] at hzero
        rw [hzero, neg_zero]
  · rw [if_neg hneg, if_neg hneg, if_neg (not_lt.mpr hnonneg), abs_of_nonneg hnonneg, hround]

theorem Finite64.toDecimal_value_congr {x y : Finite64} (h : x.value = y.value) :
    x.toDecimal.value = y.toDecimal.value := by
  have habs : x.abs = y.abs := by rw [← x.abs_value, ← y.abs_value, h]
  have hmagnitude : x.toDecimal.magnitude = y.toDecimal.magnitude := by
    unfold PyDecimal.magnitude Finite64.toDecimal
    rw [habs]
  by_cases hneg : x.neg = y.neg
  · unfold PyDecimal.value
    rw [hmagnitude]
    show (if x.neg then _ else _) = if y.neg then _ else _
    rw [hneg]
  · -- the two zeros
    have hzero : y.abs = 0 := by
      rcases hx : x.neg with _ | _ <;> rcases hy : y.neg with _ | _
      · exact absurd (hx.trans hy.symm) hneg
      · rw [value_of_pos hx, value_of_neg hy, habs] at h
        linarith
      · rw [value_of_neg hx, value_of_pos hy, habs] at h
        linarith
      · exact absurd (hx.trans hy.symm) hneg
    have hcoeff : y.toDecimal.magnitude = 0 := by
      show (((shortestDecimal y.abs).1 : ℕ) : ℚ) * 10 ^ (shortestDecimal y.abs).2 = 0
      rw [hzero, shortestDecimal, if_pos le_rfl]
      norm_num
    unfold PyDecimal.value
    rw [hmagnitude, hcoeff, neg_zero, ite_self, ite_self]

theorem Finite64.toDecimal_value_mono {x y : Finite64} (h : x.value ≤ y.value) :
    x.toDecimal.value ≤ y.toDecimal.value := by
  rcases h.lt_or_eq with hlt | heq
  · by_contra hnot
    have hmono := roundRat_mono (not_le.mp hnot).le
    rw [x.roundRat_toDecimal, y.roundRat_toDecimal] at hmono
    exact absurd hlt (not_lt.mpr hmono)
  · exact (toDecimal_value_congr heq).le

end AstroPassport
