import Mathlib.Algebra.Order.Floor.Ring
import Mathlib.Data.Rat.Floor
import Mathlib.Tactic.Linarith
import Mathlib.Tactic.NormNum
import Mathlib.Tactic.Positivity

set_option autoImplicit false

/-! # Rounding a rational half to even

`roundHalfEven q` is the integer nearest `q`, a tie going to the even neighbour. It is the one
rounding rule under everything numeric here: a significand of a binary format, a decimal brought to
a fixed number of places. What the users need of it is that it fixes the integers, is monotone and
moves its argument by at most one half.

It is defined by the floor and a comparison, so it computes on rationals, and `roundHalfEven_cases`
is the only lemma that looks at the definition: the result is the floor or one more, with what is
known in each case. Monotonicity and the bounds against integers follow from it. A quotient of
integers can be rounded without a rational (`roundHalfEven_div`), which is how a program does it
that has only integers, and the rule is symmetric, so a sign can be taken off before and put back
afterwards (`roundHalfEven_neg`). -/

namespace AstroPassport

/-- The integer nearest `q`, ties to even. -/
def roundHalfEven (q : ℚ) : ℤ :=
  if q - ⌊q⌋ < 1 / 2 then ⌊q⌋
  else if 1 / 2 < q - ⌊q⌋ then ⌊q⌋ + 1
  else if ⌊q⌋ % 2 = 0 then ⌊q⌋ else ⌊q⌋ + 1

/-- The result is one of the two integers around `q`. -/
theorem roundHalfEven_cases (q : ℚ) :
    roundHalfEven q = ⌊q⌋ ∨ roundHalfEven q = ⌊q⌋ + 1 := by
  unfold roundHalfEven
  split_ifs <;> simp

theorem floor_le_roundHalfEven (q : ℚ) : ⌊q⌋ ≤ roundHalfEven q := by
  rcases roundHalfEven_cases q with h | h <;> omega

theorem roundHalfEven_le_floor_add_one (q : ℚ) : roundHalfEven q ≤ ⌊q⌋ + 1 := by
  rcases roundHalfEven_cases q with h | h <;> omega

@[simp]
theorem roundHalfEven_intCast (n : ℤ) : roundHalfEven (n : ℚ) = n := by
  simp [roundHalfEven]

theorem roundHalfEven_mono {p q : ℚ} (h : p ≤ q) : roundHalfEven p ≤ roundHalfEven q := by
  rcases (Int.floor_mono h).lt_or_eq with hlt | heq
  · calc roundHalfEven p ≤ ⌊p⌋ + 1 := roundHalfEven_le_floor_add_one p
      _ ≤ ⌊q⌋ := hlt
      _ ≤ roundHalfEven q := floor_le_roundHalfEven q
  · -- both lie over one integer, so only the fractional parts are compared
    have hfrac : p - ⌊p⌋ ≤ q - ⌊q⌋ := by rw [heq]; linarith
    unfold roundHalfEven
    rw [heq] at hfrac ⊢
    split_ifs <;> first | omega | (exfalso; linarith)

/-- An integer lower bound survives the rounding. -/
theorem le_roundHalfEven {n : ℤ} {q : ℚ} (h : (n : ℚ) ≤ q) : n ≤ roundHalfEven q := by
  have := roundHalfEven_mono h
  rwa [roundHalfEven_intCast] at this

/-- An integer upper bound survives the rounding. -/
theorem roundHalfEven_le {n : ℤ} {q : ℚ} (h : q ≤ (n : ℚ)) : roundHalfEven q ≤ n := by
  have := roundHalfEven_mono h
  rwa [roundHalfEven_intCast] at this

/-- The rounding moves its argument by at most one half. -/
theorem abs_roundHalfEven_sub_le (q : ℚ) : |(roundHalfEven q : ℚ) - q| ≤ 1 / 2 := by
  have hlo := Int.floor_le q
  have hhi := Int.lt_floor_add_one q
  rw [abs_le]
  unfold roundHalfEven
  split_ifs with h1 h2 h3 <;> push_cast <;> constructor <;> linarith

/-- An integer strictly nearer than one half is the rounding. -/
theorem roundHalfEven_eq_of_abs_lt {n : ℤ} {q : ℚ} (h : |(n : ℚ) - q| < 1 / 2) :
    roundHalfEven q = n := by
  have hr := abs_roundHalfEven_sub_le q
  rw [abs_lt] at h
  rw [abs_le] at hr
  have h1 : (roundHalfEven q : ℚ) - n < 1 := by linarith
  have h2 : (-1 : ℚ) < (roundHalfEven q : ℚ) - n := by linarith
  have h1' : roundHalfEven q - n < 1 := by exact_mod_cast h1
  have h2' : -1 < roundHalfEven q - n := by exact_mod_cast h2
  omega

/-- A quotient is rounded by its remainder. -/
theorem roundHalfEven_div {n d : ℕ} (hd : 0 < d) :
    roundHalfEven ((n : ℚ) / d) =
      if d < n % d * 2 ∨ n % d * 2 = d ∧ n / d % 2 = 1 then ((n / d : ℕ) : ℤ) + 1
      else ((n / d : ℕ) : ℤ) := by
  have hd' : (0 : ℚ) < d := by exact_mod_cast hd
  have hsplit : (n : ℚ) / d = (n / d : ℕ) + ((n % d : ℕ) : ℚ) / d := by
    have : (n : ℚ) = d * (n / d : ℕ) + (n % d : ℕ) := by exact_mod_cast (Nat.div_add_mod n d).symm
    field_simp
    linarith
  have hfloor : ⌊(n : ℚ) / d⌋ = (n / d : ℕ) := Rat.floor_natCast_div_natCast n d
  have hfrac : (n : ℚ) / d - ((n / d : ℕ) : ℤ) = ((n % d : ℕ) : ℚ) / d := by
    rw [hsplit, Int.cast_natCast, add_sub_cancel_left]
  have hlow : ((n % d : ℕ) : ℚ) / d < 1 / 2 ↔ n % d * 2 < d := by
    rw [div_lt_div_iff₀ hd' (by norm_num), one_mul]
    exact_mod_cast Iff.rfl
  have hhigh : 1 / 2 < ((n % d : ℕ) : ℚ) / d ↔ d < n % d * 2 := by
    rw [div_lt_div_iff₀ (by norm_num) hd', one_mul]
    exact_mod_cast Iff.rfl
  unfold roundHalfEven
  rw [hfloor, hfrac]
  simp only [hlow, hhigh]
  split_ifs <;> omega

/-- A number and its negative round alike. -/
theorem roundHalfEven_neg (q : ℚ) : roundHalfEven (-q) = -roundHalfEven q := by
  by_cases htie : q - ⌊q⌋ = 1 / 2
  · -- at a tie both floors are one below the upper neighbour
    have hfloor : ⌊-q⌋ = -⌊q⌋ - 1 := by
      rw [Int.floor_eq_iff]
      push_cast
      constructor <;> linarith
    have htie' : -q - ((-⌊q⌋ - 1 : ℤ) : ℚ) = 1 / 2 := by
      push_cast
      linarith
    unfold roundHalfEven
    rw [hfloor, htie, htie']
    norm_num
    split_ifs <;> omega
  · apply roundHalfEven_eq_of_abs_lt
    push_cast
    rw [neg_sub_neg, abs_sub_comm]
    have hlo := Int.floor_le q
    have hhi := Int.lt_floor_add_one q
    rw [abs_lt]
    unfold roundHalfEven
    split_ifs with h1 h2 h3 <;> push_cast <;> constructor <;> first | linarith | skip
    all_goals exact absurd (le_antisymm (not_lt.mp h2) (not_lt.mp h1)) htie

end AstroPassport
