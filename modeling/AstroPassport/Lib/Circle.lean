import Mathlib.Algebra.Order.ToIntervalMod
import Mathlib.Tactic.Abel

set_option autoImplicit false

/-! # Distance on a circle

Points of a circle of circumference `p` are the elements of an archimedean group, taken modulo `p`.
Two of them cut the circle into two arcs, and `arcDistance` is the shorter one. It is the least
absolute difference between representatives, so it does not change when the circle is turned.

The distance is written with `toIcoMod`, the representative between zero and the circumference, of
the difference both ways round. Two differences that are equal modulo `p` have the same distance
(`arcDistance_congr`), no representative is nearer (`arcDistance_le`), and one is as near
(`arcDistance_isLeast`). Code that measures such a distance often moves the difference by half a
turn first and takes an absolute value afterwards; `abs_toIcoMod_half` says that this is the same
distance. -/

namespace AstroPassport

section

variable {α : Type*} [AddCommGroup α] [LinearOrder α] [IsOrderedAddMonoid α] [Archimedean α]
  {p : α} (hp : 0 < p)

/-- The shorter of the arc from `y` to `x` and the arc from `x` to `y`. -/
noncomputable def arcDistance (x y : α) : α :=
  min (toIcoMod hp 0 (x - y)) (toIcoMod hp 0 (y - x))

/-- Two points that are not the same cut the whole circle. -/
theorem toIcoMod_sub_comm {x y : α} (h : toIcoMod hp 0 (x - y) ≠ 0) :
    toIcoMod hp 0 (y - x) = p - toIcoMod hp 0 (x - y) := by
  obtain ⟨hnonneg, hlt⟩ := toIcoMod_mem_Ico' hp (x - y)
  have hpos : 0 < toIcoMod hp 0 (x - y) := lt_of_le_of_ne hnonneg h.symm
  refine (toIcoMod_eq_iff hp).mpr ⟨⟨sub_nonneg.mpr hlt.le, ?_⟩, -(toIcoDiv hp 0 (x - y)) - 1, ?_⟩
  · simpa using hpos
  · have hdiv := toIcoMod_add_toIcoDiv_zsmul hp 0 (x - y)
    rw [sub_smul, neg_smul, one_smul, ← neg_sub x y]
    nth_rewrite 1 [← hdiv]
    abel

/-- Only the difference matters, and only up to whole turns. -/
theorem arcDistance_congr {x y x' y' : α} {k : ℤ} (h : x - y = x' - y' + k • p) :
    arcDistance hp x y = arcDistance hp x' y' := by
  have hneg : y - x = y' - x' - k • p := by
    rw [← neg_sub x y, h]
    abel
  rw [arcDistance, arcDistance, h, hneg, toIcoMod_add_zsmul, toIcoMod_sub_zsmul]

/-- Reducing what is not negative does not make it larger. -/
theorem toIcoMod_le_self {z : α} (h : 0 ≤ z) : toIcoMod hp 0 z ≤ z := by
  have hdiv := toIcoMod_add_toIcoDiv_zsmul hp 0 z
  have hfloor : 0 ≤ toIcoDiv hp 0 z := by
    by_contra hneg
    have hturn : toIcoDiv hp 0 z • p ≤ (-1 : ℤ) • p := zsmul_left_mono hp.le (by omega)
    have hlt : z < p + (-1 : ℤ) • p := by
      calc z = toIcoMod hp 0 z + toIcoDiv hp 0 z • p := hdiv.symm
        _ < p + (-1 : ℤ) • p := add_lt_add_of_lt_of_le (toIcoMod_mem_Ico' hp z).2 hturn
    rw [neg_smul, one_smul, add_neg_cancel] at hlt
    exact absurd h (not_le.mpr hlt)
  calc toIcoMod hp 0 z ≤ toIcoMod hp 0 z + toIcoDiv hp 0 z • p :=
        le_add_of_nonneg_right (zsmul_nonneg hp.le hfloor)
    _ = z := hdiv

/-- No difference of representatives is less than the distance. -/
theorem arcDistance_le (x y : α) (k : ℤ) : arcDistance hp x y ≤ |x - y + k • p| := by
  rcases le_total 0 (x - y + k • p) with h | h
  · rw [abs_of_nonneg h]
    calc arcDistance hp x y ≤ toIcoMod hp 0 (x - y) := min_le_left _ _
      _ = toIcoMod hp 0 (x - y + k • p) := (toIcoMod_add_zsmul hp 0 _ k).symm
      _ ≤ x - y + k • p := toIcoMod_le_self hp h
  · rw [abs_of_nonpos h]
    have hneg : -(x - y + k • p) = y - x - k • p := by abel
    calc arcDistance hp x y ≤ toIcoMod hp 0 (y - x) := min_le_right _ _
      _ = toIcoMod hp 0 (y - x - k • p) := (toIcoMod_sub_zsmul hp 0 _ k).symm
      _ ≤ y - x - k • p := toIcoMod_le_self hp (hneg ▸ neg_nonneg.mpr h)
      _ = -(x - y + k • p) := hneg.symm

/-- The distance is the least difference of representatives. -/
theorem arcDistance_isLeast (x y : α) :
    IsLeast (Set.range fun k : ℤ => |x - y + k • p|) (arcDistance hp x y) := by
  refine ⟨?_, by rintro _ ⟨k, rfl⟩; exact arcDistance_le hp x y k⟩
  have harc (x y : α) : toIcoMod hp 0 (x - y) = |x - y + -(toIcoDiv hp 0 (x - y)) • p| := by
    rw [neg_smul, ← sub_eq_add_neg, self_sub_toIcoDiv_zsmul,
      abs_of_nonneg (toIcoMod_mem_Ico' hp _).1]
  rcases min_choice (toIcoMod hp 0 (x - y)) (toIcoMod hp 0 (y - x)) with h | h
  · exact ⟨_, (harc x y).symm.trans h.symm⟩
  · refine ⟨toIcoDiv hp 0 (y - x), Eq.trans ?_ h.symm⟩
    rw [harc y x, neg_smul, ← abs_neg]
    abel_nf

/-- Reduced after a shift by half a turn and shifted back, a difference is signed, and its absolute
    value is the distance. -/
theorem abs_toIcoMod_half {half : α} (hhalf : half + half = p) (z y : α) :
    |toIcoMod hp 0 (toIcoMod hp 0 z - y + half) - half| = arcDistance hp z y := by
  set d := toIcoMod hp 0 (z - y) with hd
  obtain ⟨hnonneg, hlt⟩ := toIcoMod_mem_Ico' hp (z - y)
  rw [← hd] at hnonneg hlt
  -- what is reduced is `d + half`, up to whole turns
  have hshift : toIcoMod hp 0 (toIcoMod hp 0 z - y + half) = toIcoMod hp 0 (d + half) := by
    refine (toIcoMod_eq_toIcoMod hp).mpr ⟨toIcoDiv hp 0 z - toIcoDiv hp 0 (z - y), ?_⟩
    rw [hd, ← self_sub_toIcoDiv_zsmul, ← self_sub_toIcoDiv_zsmul, sub_smul]
    abel
  have hpos : 0 < half := by
    by_contra hneg
    have := add_nonpos (not_lt.mp hneg) (not_lt.mp hneg)
    exact absurd hp (not_lt.mpr (hhalf ▸ this))
  rw [hshift]
  rcases lt_or_ge d half with hside | hside
  · have hin : toIcoMod hp 0 (d + half) = d + half := by
      refine (toIcoMod_eq_self hp).mpr ⟨add_nonneg hnonneg hpos.le, ?_⟩
      calc d + half < half + half := add_lt_add_left hside half
        _ = 0 + p := by rw [hhalf, zero_add]
    have hfar : d ≤ toIcoMod hp 0 (y - z) := by
      by_cases hzero : d = 0
      · exact hzero ▸ (toIcoMod_mem_Ico' hp (y - z)).1
      · rw [toIcoMod_sub_comm hp hzero, ← hd, ← hhalf, le_sub_iff_add_le]
        exact add_le_add hside.le hside.le
    rw [hin, add_sub_cancel_right, abs_of_nonneg hnonneg, arcDistance, ← hd, min_eq_left hfar]
  · have hin : toIcoMod hp 0 (d + half) = d - half := by
      refine (toIcoMod_eq_iff hp).mpr ⟨⟨sub_nonneg.mpr hside, ?_⟩, 1, ?_⟩
      · rw [zero_add]
        exact (sub_lt_self d hpos).trans hlt
      · rw [one_smul, ← hhalf]
        abel
    have hne : d ≠ 0 := (hpos.trans_le hside).ne'
    have hnear : p - d ≤ d := by
      rw [sub_le_iff_le_add, ← hhalf]
      exact add_le_add hside hside
    have hback : d - half - half = -(p - d) := by
      rw [← hhalf]
      abel
    rw [hin, hback, abs_neg, abs_of_nonneg (sub_nonneg.mpr hlt.le), arcDistance,
      toIcoMod_sub_comm hp hne, ← hd, min_eq_right hnear]

end

end AstroPassport
