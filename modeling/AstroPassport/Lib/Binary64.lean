import AstroPassport.Lib.HalfEven
import Mathlib.Algebra.Order.Field.Power
import Mathlib.Data.Int.Log
import Mathlib.Data.Rat.Floor
import Mathlib.Tactic.FieldSimp
import Mathlib.Tactic.Linarith
import Mathlib.Tactic.Ring

set_option autoImplicit false

/-! # The binary64 number format

A finite binary64 is a sign, a significand `man < 2 ^ 53` and a unit exponent `exp`, of exact value
`± man * 2 ^ exp`; the structure carries the IEEE canonical form, so a zero, a subnormal and a
normal number each have one spelling and `-0.0` is not `0.0`. Rounding a rational is to nearest,
ties to even, with overflow to an infinity. Payloads of NaNs are not told apart.

A magnitude is rounded in the unit of its own binade (`unitExp`), which is found by comparison with
powers of two, so that the definitions compute on rationals. `roundMagnitude` is the value of what
`Binary64.ofMagnitude` builds, and most lemmas are about it: it is monotone, fixes what is
representable, moves its argument by half a unit at most (`abs_roundMagnitude_sub_le`), and keeps
what is nearer to a float than to its neighbours (`Finite64.roundMagnitude_of_near`). `roundRat` is
the same with a sign, and `truncateRat` drops the fraction of a float. -/

namespace AstroPassport

/-- A finite binary64: the exact value is `± man * 2 ^ exp`. -/
structure Finite64 where
  neg : Bool
  man : ℕ
  exp : ℤ
  man_lt : man < 2 ^ 53
  exp_ge : -1074 ≤ exp
  exp_le : exp ≤ 971
  normal : 2 ^ 52 ≤ man ∨ exp = -1074
  deriving DecidableEq

/-- The zero of a sign. -/
def Finite64.zero (neg : Bool) : Finite64 :=
  ⟨neg, 0, -1074, by decide, by decide, by decide, .inr rfl⟩

/-- A binary64. -/
inductive Binary64 where
  | finite (x : Finite64)
  | inf (neg : Bool)
  | nan
  deriving DecidableEq

namespace Finite64

/-- The magnitude of a finite binary64. -/
def abs (x : Finite64) : ℚ := x.man * 2 ^ x.exp

/-- The exact value of a finite binary64; both zeros have value `0`. -/
def value (x : Finite64) : ℚ := if x.neg then -x.abs else x.abs

theorem abs_nonneg (x : Finite64) : 0 ≤ x.abs := by
  unfold abs; positivity

@[simp]
theorem value_of_neg {x : Finite64} (h : x.neg = true) : x.value = -x.abs := by simp [value, h]

@[simp]
theorem value_of_pos {x : Finite64} (h : x.neg = false) : x.value = x.abs := by simp [value, h]

@[simp]
theorem value_zero (neg : Bool) : (Finite64.zero neg).value = 0 := by
  cases neg <;> simp [value, abs, zero]

theorem abs_value (x : Finite64) : |x.value| = x.abs := by
  cases h : x.neg
  · rw [value_of_pos h, abs_of_nonneg x.abs_nonneg]
  · rw [value_of_neg h, abs_neg, abs_of_nonneg x.abs_nonneg]

theorem abs_lt_two_zpow (x : Finite64) : x.abs < 2 ^ (x.exp + 53) := by
  have hman : (x.man : ℚ) < 2 ^ (53 : ℕ) := by exact_mod_cast x.man_lt
  calc x.abs = x.man * 2 ^ x.exp := rfl
    _ < 2 ^ (53 : ℕ) * 2 ^ x.exp := by
        apply mul_lt_mul_of_pos_right hman
        positivity
    _ = 2 ^ (x.exp + 53) := by
        rw [zpow_add₀ (by norm_num), mul_comm]; norm_num

end Finite64

/-! ## Rounding a magnitude -/

/-- The unit exponent of the binade of `q`: the last place of a 53-bit significand, but never below
    the subnormal unit. -/
def unitExp (q : ℚ) : ℤ := if q ≤ 0 then -1074 else max (-1074) (Int.log 2 q - 52)

/-- The significand of `q` in its binade, ties to even; `2 ^ 53` when it rounds out of it. -/
def unitMan (q : ℚ) : ℤ := roundHalfEven (q / 2 ^ unitExp q)

theorem unitExp_ge (q : ℚ) : -1074 ≤ unitExp q := by
  unfold unitExp
  split <;> simp

/-- In its binade a magnitude has at most 53 bits before the point. -/
theorem lt_two_zpow_unitExp {q : ℚ} (hq : 0 ≤ q) : q < 2 ^ (unitExp q + 53) := by
  by_cases h0 : q ≤ 0
  · have : q = 0 := le_antisymm h0 hq
    subst this
    positivity
  · have hpos : 0 < q := lt_of_not_ge h0
    have hlog : q < (2 : ℚ) ^ (Int.log 2 q + 1) := by
      exact_mod_cast Int.lt_zpow_succ_log_self (R := ℚ) (b := 2) (by norm_num) q
    refine hlog.trans_le (zpow_le_zpow_right₀ (by norm_num) ?_)
    simp only [unitExp, h0, if_false]
    omega

/-- Above the subnormal range a magnitude has exactly 53 bits before the point. -/
theorem two_zpow_unitExp_le {q : ℚ} (h : unitExp q ≠ -1074) : 2 ^ (unitExp q + 52) ≤ q := by
  unfold unitExp at h ⊢
  split_ifs at h ⊢ with h0
  · exact absurd rfl h
  · have hpos : 0 < q := lt_of_not_ge h0
    have hlog : (2 : ℚ) ^ Int.log 2 q ≤ q := by
      exact_mod_cast Int.zpow_log_le_self (R := ℚ) (b := 2) (by norm_num) hpos
    have hmax : max (-1074) (Int.log 2 q - 52) = Int.log 2 q - 52 := by omega
    rw [hmax]
    simpa using hlog

theorem unitMan_nonneg {q : ℚ} (hq : 0 ≤ q) : 0 ≤ unitMan q := by
  apply le_roundHalfEven
  push_cast
  positivity

theorem unitMan_le {q : ℚ} (hq : 0 ≤ q) : unitMan q ≤ 2 ^ 53 := by
  apply roundHalfEven_le
  push_cast
  rw [div_le_iff₀ (by positivity)]
  have h := (lt_two_zpow_unitExp hq).le
  rw [zpow_add₀ (by norm_num), mul_comm] at h
  exact_mod_cast h

theorem le_unitMan {q : ℚ} (h : unitExp q ≠ -1074) : 2 ^ 52 ≤ unitMan q := by
  apply le_roundHalfEven
  push_cast
  rw [le_div_iff₀ (by positivity)]
  have h' := two_zpow_unitExp_le h
  rw [zpow_add₀ (by norm_num), mul_comm] at h'
  exact_mod_cast h'

/-- The significand and exponent `q` rounds to, the carry out of the binade taken: not yet checked
    against the largest exponent. -/
def roundedParts (q : ℚ) : ℕ × ℤ :=
  if unitMan q = 2 ^ 53 then (2 ^ 52, unitExp q + 1) else ((unitMan q).toNat, unitExp q)

theorem roundedParts_man_lt {q : ℚ} (hq : 0 ≤ q) : (roundedParts q).1 < 2 ^ 53 := by
  have hle := unitMan_le hq
  unfold roundedParts
  split
  · norm_num
  · simp only
    omega

theorem roundedParts_exp_ge (q : ℚ) : -1074 ≤ (roundedParts q).2 := by
  have := unitExp_ge q
  unfold roundedParts
  split <;> simp only <;> omega

theorem roundedParts_normal (q : ℚ) :
    2 ^ 52 ≤ (roundedParts q).1 ∨ (roundedParts q).2 = -1074 := by
  unfold roundedParts
  split
  · exact Or.inl le_rfl
  · by_cases h : unitExp q = -1074
    · exact Or.inr h
    · have := le_unitMan h
      exact Or.inl (by simp only; omega)

/-- The parts have the value of the rounded significand, carry or not. -/
theorem roundedParts_value {q : ℚ} (hq : 0 ≤ q) :
    ((roundedParts q).1 : ℚ) * 2 ^ (roundedParts q).2 = unitMan q * 2 ^ unitExp q := by
  unfold roundedParts
  split
  · next h =>
      simp only [h]
      rw [zpow_add₀ (by norm_num)]
      push_cast
      ring
  · have hcast : ((unitMan q).toNat : ℤ) = unitMan q := Int.toNat_of_nonneg (unitMan_nonneg hq)
    simp only
    rw [← Int.cast_natCast, hcast]

/-- The binary64 nearest `± q`, for a magnitude `q`; an infinity past the largest finite value. -/
def Binary64.ofMagnitude (neg : Bool) (q : ℚ) (hq : 0 ≤ q) : Binary64 :=
  if h : (roundedParts q).2 ≤ 971 then
    .finite ⟨neg, (roundedParts q).1, (roundedParts q).2, roundedParts_man_lt hq,
      roundedParts_exp_ge q, h, roundedParts_normal q⟩
  else .inf neg

/-- The binary64 nearest the rational `q`; `0` gives the positive zero. -/
def Binary64.ofRat (q : ℚ) : Binary64 := Binary64.ofMagnitude (decide (q < 0)) |q| (abs_nonneg q)

/-! ## What the rounding preserves -/

/-- The magnitude `q` rounds to when no exponent is too large. -/
def roundMagnitude (q : ℚ) : ℚ := unitMan q * 2 ^ unitExp q

theorem unitExp_mono {p q : ℚ} (h : p ≤ q) : unitExp p ≤ unitExp q := by
  by_cases hp : p ≤ 0
  · have := unitExp_ge q
    simpa [unitExp, hp] using this
  · have hp' : 0 < p := lt_of_not_ge hp
    have hq : ¬ q ≤ 0 := not_le.mpr (hp'.trans_le h)
    have hlog := Int.log_mono_right (b := 2) hp' h
    simp only [unitExp, hp, hq, if_false]
    omega

/-- Rounding a magnitude is monotone: within a binade because the rounding to an integer is, and
    across binades because the lower one ends where the higher one starts. -/
theorem roundMagnitude_mono {p q : ℚ} (hp : 0 ≤ p) (h : p ≤ q) :
    roundMagnitude p ≤ roundMagnitude q := by
  rcases (unitExp_mono h).lt_or_eq with hlt | heq
  · have hne : unitExp q ≠ -1074 := by
      have := unitExp_ge p
      omega
    have h1 : (unitMan p : ℚ) ≤ 2 ^ (53 : ℤ) := by exact_mod_cast unitMan_le hp
    have h2 : (2 : ℚ) ^ (52 : ℤ) ≤ unitMan q := by exact_mod_cast le_unitMan hne
    calc roundMagnitude p ≤ 2 ^ (53 : ℤ) * 2 ^ unitExp p := by
          apply mul_le_mul_of_nonneg_right h1; positivity
      _ = 2 ^ (unitExp p + 53) := by rw [zpow_add₀ (by norm_num), mul_comm]
      _ ≤ 2 ^ (unitExp q + 52) := zpow_le_zpow_right₀ (by norm_num) (by omega)
      _ = 2 ^ (52 : ℤ) * 2 ^ unitExp q := by rw [zpow_add₀ (by norm_num), mul_comm]
      _ ≤ roundMagnitude q := by
          apply mul_le_mul_of_nonneg_right h2; positivity
  · unfold roundMagnitude unitMan
    rw [heq]
    have hdiv : p / 2 ^ unitExp q ≤ q / 2 ^ unitExp q :=
      div_le_div_of_nonneg_right h (by positivity)
    have hround : (roundHalfEven (p / 2 ^ unitExp q) : ℚ) ≤ roundHalfEven (q / 2 ^ unitExp q) := by
      exact_mod_cast roundHalfEven_mono hdiv
    exact mul_le_mul_of_nonneg_right hround (by positivity)

/-- A magnitude with a 53-bit significand over a unit not below the subnormal one is exact. -/
theorem roundMagnitude_exact {m : ℕ} {e : ℤ} (hm : m < 2 ^ 53) (he : -1074 ≤ e) :
    roundMagnitude (m * 2 ^ e) = m * 2 ^ e := by
  have hunit : unitExp (m * 2 ^ e) ≤ e := by
    unfold unitExp
    split_ifs with h0
    · exact he
    · have hpos : (0 : ℚ) < m * 2 ^ e := lt_of_not_ge h0
      have hlt : (m : ℚ) * 2 ^ e < (2 : ℕ) ^ (e + 53) := by
        have hman : (m : ℚ) < 2 ^ (53 : ℤ) := by exact_mod_cast hm
        push_cast
        rw [zpow_add₀ (by norm_num), mul_comm ((2 : ℚ) ^ e)]
        exact mul_lt_mul_of_pos_right hman (by positivity)
      have := (Int.lt_zpow_iff_log_lt (by norm_num) hpos).mp hlt
      omega
  -- over the unit of its binade the value is an integer, which the rounding fixes
  have hscale : (m : ℚ) * 2 ^ e / 2 ^ unitExp (m * 2 ^ e)
      = ((m * 2 ^ (e - unitExp (m * 2 ^ e)).toNat : ℕ) : ℤ) := by
    have hsub : ((e - unitExp (m * 2 ^ e)).toNat : ℤ) = e - unitExp (m * 2 ^ e) := by omega
    rw [mul_div_assoc, ← zpow_sub₀ (by norm_num), ← hsub, zpow_natCast]
    push_cast
    rfl
  unfold roundMagnitude unitMan
  rw [hscale, roundHalfEven_intCast, ← hscale, div_mul_cancel₀]
  positivity

/-- A natural number below `2 ^ 53` is exact. -/
theorem roundMagnitude_natCast {n : ℕ} (h : n < 2 ^ 53) : roundMagnitude n = n := by
  simpa using roundMagnitude_exact (e := 0) h (by norm_num)

/-- So is a power of two of a small exponent. -/
theorem roundMagnitude_two_pow (k : ℕ) : roundMagnitude (2 ^ k) = 2 ^ k := by
  simpa using roundMagnitude_exact (m := 1) (e := k) (by norm_num) (by omega)

@[simp]
theorem Finite64.roundMagnitude_abs (x : Finite64) : roundMagnitude x.abs = x.abs :=
  roundMagnitude_exact x.man_lt x.exp_ge

/-- A magnitude below the top of a binade has a unit no larger than the binade's. -/
theorem unitExp_le {q : ℚ} {e : ℤ} (he : -1074 ≤ e) (h : q < 2 ^ 53 * 2 ^ e) : unitExp q ≤ e := by
  unfold unitExp
  split_ifs with h0
  · exact he
  · have hlog : Int.log 2 q < e + 53 := by
      apply (Int.lt_zpow_iff_log_lt (by norm_num) (lt_of_not_ge h0)).mp
      push_cast
      rwa [add_comm, zpow_add₀ (by norm_num)]
    omega

theorem le_unitExp {q : ℚ} {e : ℤ} (h : 2 ^ 52 * 2 ^ e ≤ q) : e ≤ unitExp q := by
  have hpos : 0 < q := lt_of_lt_of_le (by positivity) h
  have hlog : e + 52 ≤ Int.log 2 q := by
    apply (Int.zpow_le_iff_le_log (by norm_num) hpos).mp
    push_cast
    rwa [add_comm, zpow_add₀ (by norm_num)]
  simp only [unitExp, not_le.mpr hpos, if_false]
  omega

/-- A magnitude is moved by half of its unit at most. -/
theorem abs_roundMagnitude_sub_le (q : ℚ) : |roundMagnitude q - q| ≤ 2 ^ unitExp q / 2 := by
  have hunit : (0 : ℚ) < 2 ^ unitExp q := by positivity
  have hman := abs_roundHalfEven_sub_le (q / 2 ^ unitExp q)
  have hscale : roundMagnitude q - q =
      ((roundHalfEven (q / 2 ^ unitExp q) : ℚ) - q / 2 ^ unitExp q) * 2 ^ unitExp q := by
    rw [sub_mul, div_mul_cancel₀ _ hunit.ne']
    rfl
  rw [hscale, abs_mul, abs_of_pos hunit]
  linarith [mul_le_mul_of_nonneg_right hman hunit.le]

/-- A multiple of the unit strictly nearer than half of it is the rounding. -/
theorem roundMagnitude_eq_of_abs_lt {q : ℚ} {n : ℤ}
    (h : 2 * |n * 2 ^ unitExp q - q| < 2 ^ unitExp q) : roundMagnitude q = n * 2 ^ unitExp q := by
  have hunit : (0 : ℚ) < 2 ^ unitExp q := by positivity
  have hnear : |(n : ℚ) - q / 2 ^ unitExp q| < 1 / 2 := by
    rw [← mul_lt_mul_iff_of_pos_right hunit, ← abs_of_pos hunit, ← abs_mul, abs_of_pos hunit,
      sub_mul, div_mul_cancel₀ _ hunit.ne']
    linarith
  rw [roundMagnitude, unitMan, roundHalfEven_eq_of_abs_lt hnear]

/-- What is within a relative error of `2 ^ -54` of a finite binary64 rounds to it. -/
theorem Finite64.roundMagnitude_of_near {x : Finite64} {d : ℚ} (h : |d - x.abs| * 2 ^ 54 < x.abs) :
    roundMagnitude d = x.abs := by
  have hnear : |d - x.abs| < x.abs / 2 ^ 54 := by
    rw [lt_div_iff₀ (by positivity)]
    exact h
  obtain ⟨hlo, hhi⟩ := abs_lt.mp hnear
  have hunit : (0 : ℚ) < 2 ^ x.exp := by positivity
  have hman : (x.man : ℚ) + 1 ≤ 2 ^ 53 := by exact_mod_cast x.man_lt
  have habs : x.abs = x.man * 2 ^ x.exp := rfl
  have htop : x.abs ≤ (2 ^ 53 - 1) * 2 ^ x.exp := by
    rw [habs]
    exact mul_le_mul_of_nonneg_right (by linarith) hunit.le
  have hle : unitExp d ≤ x.exp := unitExp_le x.exp_ge (by linarith)
  rcases hle.lt_or_eq with hlt | heq
  · -- just below the least significand of a binade the unit is half of the binade's
    have hnormal : 2 ^ 52 ≤ x.man := by
      have := unitExp_ge d
      rcases x.normal with hbig | hsub
      · exact hbig
      · omega
    have hnormal' : (2 : ℚ) ^ 52 ≤ x.man := by exact_mod_cast hnormal
    have hhalf : (2 : ℚ) ^ x.exp = 2 * 2 ^ (x.exp - 1) := by
      rw [zpow_sub_one₀ (by norm_num)]
      ring
    have hbottom : 2 ^ 52 * 2 ^ x.exp ≤ x.abs := by
      rw [habs]
      exact mul_le_mul_of_nonneg_right hnormal' hunit.le
    have hge : x.exp - 1 ≤ unitExp d := le_unitExp (by linarith)
    have hexp : unitExp d = x.exp - 1 := by omega
    have hbelow : d < 2 ^ 53 * 2 ^ (x.exp - 1) := by
      have hd : 0 ≤ d := by linarith
      have hlt := lt_two_zpow_unitExp hd
      rw [hexp, zpow_add₀ (by norm_num), mul_comm] at hlt
      exact hlt
    have hleast : x.man = 2 ^ 52 := by
      by_contra hne
      have hnext : (2 : ℚ) ^ 52 + 1 ≤ x.man := by exact_mod_cast lt_of_le_of_ne hnormal (Ne.symm hne)
      have hmore : (2 ^ 52 + 1) * 2 ^ x.exp ≤ x.abs := by
        rw [habs]
        exact mul_le_mul_of_nonneg_right hnext hunit.le
      linarith
    have hvalue : x.abs = ((2 ^ 53 : ℤ) : ℚ) * 2 ^ unitExp d := by
      rw [habs, hleast, hexp, hhalf]
      push_cast
      ring
    rw [hvalue] at hnear ⊢
    apply roundMagnitude_eq_of_abs_lt
    rw [abs_sub_comm]
    push_cast at hnear ⊢
    linarith
  · have hvalue : x.abs = ((x.man : ℤ) : ℚ) * 2 ^ unitExp d := by
      rw [habs, heq]
      rfl
    have hsmall : x.abs / 2 ^ 54 < 2 ^ unitExp d / 2 := by
      rw [heq]
      linarith
    rw [hvalue] at hnear hsmall ⊢
    apply roundMagnitude_eq_of_abs_lt
    rw [abs_sub_comm]
    linarith

/-- A rounded magnitude is a finite binary64 of that sign and that value, or it overflowed. -/
theorem Binary64.ofMagnitude_cases (neg : Bool) (q : ℚ) (hq : 0 ≤ q) :
    (∃ x, Binary64.ofMagnitude neg q hq = .finite x ∧ x.neg = neg ∧ x.abs = roundMagnitude q) ∨
    (Binary64.ofMagnitude neg q hq = .inf neg ∧ 2 ^ 1024 ≤ roundMagnitude q) := by
  unfold Binary64.ofMagnitude
  split_ifs with h
  · exact Or.inl ⟨_, rfl, rfl, roundedParts_value hq⟩
  · refine Or.inr ⟨rfl, ?_⟩
    have hne : (roundedParts q).2 ≠ -1074 := by omega
    have hman : (2 : ℚ) ^ (52 : ℤ) ≤ (roundedParts q).1 := by
      exact_mod_cast (roundedParts_normal q).resolve_right hne
    calc (2 : ℚ) ^ 1024 = 2 ^ (52 : ℤ) * 2 ^ (972 : ℤ) := by
          rw [← zpow_add₀ (by norm_num)]
          exact (zpow_natCast 2 1024).symm
      _ ≤ 2 ^ (52 : ℤ) * 2 ^ (roundedParts q).2 := by
          apply mul_le_mul_of_nonneg_left
          · exact zpow_le_zpow_right₀ (by norm_num) (by omega)
          · positivity
      _ ≤ (roundedParts q).1 * 2 ^ (roundedParts q).2 := by
          apply mul_le_mul_of_nonneg_right hman; positivity
      _ = roundMagnitude q := roundedParts_value hq

/-! ## Rounding a signed rational -/

/-- The value a rational rounds to when it does not overflow. -/
def roundRat (q : ℚ) : ℚ := if q < 0 then -roundMagnitude |q| else roundMagnitude |q|

theorem roundMagnitude_nonneg {q : ℚ} (hq : 0 ≤ q) : 0 ≤ roundMagnitude q := by
  have h : (0 : ℚ) ≤ unitMan q := by exact_mod_cast unitMan_nonneg hq
  exact mul_nonneg h (by positivity)

theorem roundRat_mono {p q : ℚ} (h : p ≤ q) : roundRat p ≤ roundRat q := by
  unfold roundRat
  by_cases hp : p < 0
  · by_cases hq : q < 0
    · have habs : |q| ≤ |p| := by
        rw [abs_of_neg hp, abs_of_neg hq]
        linarith
      simpa [hp, hq] using roundMagnitude_mono (abs_nonneg q) habs
    · have h1 := roundMagnitude_nonneg (abs_nonneg p)
      have h2 := roundMagnitude_nonneg (abs_nonneg q)
      simp only [hp, hq, if_true, if_false]
      linarith
  · have hq : ¬ q < 0 := fun hq => hp (h.trans_lt hq)
    rw [not_lt] at hp hq
    simpa [not_lt.mpr hp, not_lt.mpr hq, abs_of_nonneg hp, abs_of_nonneg hq]
      using roundMagnitude_mono hp h

/-- A rounded rational is a finite binary64 of that value, or it overflowed. -/
theorem Binary64.ofRat_cases (q : ℚ) :
    (∃ x, Binary64.ofRat q = .finite x ∧ x.value = roundRat q) ∨
    (∃ neg, Binary64.ofRat q = .inf neg ∧ 2 ^ 1024 ≤ |roundRat q|) := by
  have hnonneg := roundMagnitude_nonneg (abs_nonneg q)
  rcases Binary64.ofMagnitude_cases (decide (q < 0)) |q| (abs_nonneg q) with
    ⟨x, hx, hneg, habs⟩ | ⟨hinf, hbig⟩
  · refine Or.inl ⟨x, hx, ?_⟩
    simp only [Finite64.value, hneg, habs, roundRat, decide_eq_true_eq]
  · refine Or.inr ⟨_, hinf, ?_⟩
    unfold roundRat
    split
    · rwa [abs_neg, abs_of_nonneg hnonneg]
    · rwa [abs_of_nonneg hnonneg]

/-- An integer of 53 bits is a binary64. -/
theorem roundRat_intCast {n : ℤ} (h : |n| < 2 ^ 53) : roundRat n = n := by
  have hmagnitude : roundMagnitude |(n : ℚ)| = |(n : ℚ)| := by
    have hcast : |(n : ℚ)| = (n.natAbs : ℚ) := by rw [Nat.cast_natAbs, Int.cast_abs]
    rw [hcast]
    apply roundMagnitude_natCast
    rw [Int.abs_eq_natAbs] at h
    exact_mod_cast h
  unfold roundRat
  rw [hmagnitude]
  split
  · next hneg => rw [abs_of_neg hneg, neg_neg]
  · next hnonneg => rw [abs_of_nonneg (not_lt.mp hnonneg)]

theorem Binary64.ofRat_intCast {n : ℤ} (h : |n| < 2 ^ 53) :
    ∃ x, Binary64.ofRat n = .finite x ∧ x.value = n := by
  rcases Binary64.ofRat_cases n with ⟨x, hx, hvalue⟩ | ⟨_, _, hbig⟩
  · exact ⟨x, hx, hvalue.trans (roundRat_intCast h)⟩
  · rw [roundRat_intCast h] at hbig
    have hlt : |(n : ℚ)| < 2 ^ 53 := by exact_mod_cast h
    have hpow : (2 : ℚ) ^ 53 ≤ 2 ^ 1024 := pow_le_pow_right₀ (by norm_num) (by norm_num)
    exact absurd (hbig.trans_lt hlt) (not_lt.mpr hpow)

/-! ## Truncation -/

/-- The integer part of a rational, towards zero. -/
def truncateRat (q : ℚ) : ℤ := if q < 0 then ⌈q⌉ else ⌊q⌋

theorem truncateRat_mono {p q : ℚ} (h : p ≤ q) : truncateRat p ≤ truncateRat q := by
  unfold truncateRat
  by_cases hp : p < 0
  · by_cases hq : q < 0
    · simpa [hp, hq] using Int.ceil_mono h
    · have h1 : ⌈p⌉ ≤ 0 := Int.ceil_le.mpr (by exact_mod_cast hp.le)
      have h2 : 0 ≤ ⌊q⌋ := Int.floor_nonneg.mpr (not_lt.mp hq)
      simp only [hp, hq, if_true, if_false]
      omega
  · have hq : ¬ q < 0 := fun hq => hp (h.trans_lt hq)
    simpa [hp, hq] using Int.floor_mono h

@[simp]
theorem truncateRat_intCast (n : ℤ) : truncateRat n = n := by simp [truncateRat]

/-- `int(x)` of a float; there is no integer for an infinity or a NaN. -/
def Binary64.truncate? : Binary64 → Option ℤ
  | .finite x => some (truncateRat x.value)
  | .inf _ => none
  | .nan => none

end AstroPassport
