import AstroPassport.Contracts.Lahiri
import AstroPassport.Lib.Circle
import AstroPassport.Science.Pipeline

set_option autoImplicit false

/-! # The Lahiri consistency gate

A sidereal Moon is the tropical Moon less the ayanamsha. Two processes check it: the worker, in the
Lahiri branch of `run`, before it prints a result, and `LahiriResponse.coherent`, before a response
is built. Both fold the difference of the two longitudes around half a turn.

The rounding of the arithmetic is a parameter here: `roundRat` is that of floats, `id` is none at
all. Without rounding each gate is the distance on the circle of 360 degrees, and the worker refuses
exactly what the response would refuse. With rounding the two definitions are those of the other
modules (`consistentBy_roundRat`, `coherentBy_roundRat`, `moduloBy_roundRat`), so that what is said
of the gates is said of the code up to the roundings it makes. Turning both Moons by one angle
changes neither answer, also across the place where the circle is cut (`lahiri_gate_circular`). -/

namespace AstroPassport

/-! ## Arithmetic with its rounding left open -/

/-- `x % m`: only the sum that moves a negative remainder up is rounded. -/
def moduloBy (round : ℚ → ℚ) (x : ℚ) (m : ℕ) : ℚ :=
  let r := x - m * truncateRat (x / m)
  if r < 0 then round (r + m) else r

theorem moduloBy_roundRat : moduloBy roundRat = floatMod := rfl

/-- Without rounding it is the representative in `[0, m)`. -/
theorem moduloBy_id {m : ℕ} (hm : (0 : ℚ) < m) (x : ℚ) : moduloBy id x m = toIcoMod hm 0 x := by
  symm
  unfold moduloBy truncateRat
  have hdiv : x / m * m = x := div_mul_cancel₀ x hm.ne'
  -- the quotient is truncated toward zero: its ceiling below zero, its floor from zero on
  rcases lt_or_ge (x / m) 0 with hneg | hnonneg
  · simp only [if_pos hneg]
    have hle := Int.le_ceil (x / m)
    have hlt := Int.ceil_lt_add_one (x / m)
    split_ifs with hr
    · refine (toIcoMod_eq_iff hm).mpr ⟨⟨?_, ?_⟩, ⌈x / m⌉ - 1, ?_⟩
      · simp only [id]; nlinarith
      · simp only [id]; linarith
      · simp only [id, zsmul_eq_mul]; push_cast; ring
    · refine (toIcoMod_eq_iff hm).mpr ⟨⟨not_lt.mp hr, ?_⟩, ⌈x / m⌉, ?_⟩
      · nlinarith
      · rw [zsmul_eq_mul]; ring
  · simp only [if_neg (not_lt.mpr hnonneg)]
    have hle := Int.floor_le (x / m)
    have hlt := Int.lt_floor_add_one (x / m)
    have hr : ¬ x - m * (⌊x / m⌋ : ℚ) < 0 := by
      rw [not_lt]; nlinarith
    rw [if_neg hr]
    refine (toIcoMod_eq_iff hm).mpr ⟨⟨not_lt.mp hr, ?_⟩, ⌊x / m⌋, ?_⟩
    · nlinarith
    · rw [zsmul_eq_mul]; ring

/-! ## The gate of the response -/

namespace LahiriResponse

/-- `consistent`, at any rounding. -/
def consistentBy (round : ℚ → ℚ) (tropical ayanamsha actual : ℚ) : Bool :=
  let expected := moduloBy round (round (tropical - ayanamsha)) 360
  decide (|round (moduloBy round (round (round (expected - actual) + 180)) 360 - 180)| ≤
    round (1 / 10 ^ 10))

theorem consistentBy_roundRat : consistentBy roundRat = consistent := rfl

/-- `coherent`, at any rounding. -/
def coherentBy (round : ℚ → ℚ) (v : LahiriResponse) : Checked Unit := do
  let tropical ← Binary64.fromHex v.tropical.bodies.2.binary64Hex.toList
  let ayanamsha ← Binary64.fromHex v.sidereal.ayanamsha.binary64Hex.toList
  let actual ← Binary64.fromHex v.sidereal.moon.binary64Hex.toList
  match tropical, ayanamsha, actual with
  | .finite x, .finite y, .finite z =>
    Checked.require (consistentBy round x.value y.value z.value)
  | _, _, _ => pure ()

theorem coherentBy_roundRat : coherentBy roundRat = coherent := rfl

/-- The three texts of the response that `coherent` reads stand for these angles. -/
structure Reads (v : LahiriResponse) (tropical ayanamsha actual : ℚ) : Prop where
  tropical : ∃ x, Binary64.fromHex v.tropical.bodies.2.binary64Hex.toList = .ok (.finite x) ∧
    x.value = tropical
  ayanamsha : ∃ y, Binary64.fromHex v.sidereal.ayanamsha.binary64Hex.toList = .ok (.finite y) ∧
    y.value = ayanamsha
  actual : ∃ z, Binary64.fromHex v.sidereal.moon.binary64Hex.toList = .ok (.finite z) ∧
    z.value = actual

theorem Reads.coherentBy_eq_ok (round : ℚ → ℚ) {v : LahiriResponse}
    {tropical ayanamsha actual : ℚ} (h : Reads v tropical ayanamsha actual) :
    v.coherentBy round = .ok () ↔ consistentBy round tropical ayanamsha actual = true := by
  obtain ⟨x, hx, rfl⟩ := h.tropical
  obtain ⟨y, hy, rfl⟩ := h.ayanamsha
  obtain ⟨z, hz, rfl⟩ := h.actual
  unfold coherentBy
  rw [hx, hy, hz]
  exact Checked.require_eq_ok

end LahiriResponse

/-! ## The gate of the worker -/

namespace Worker

/-- What `swe.calc` returns; a number that is not finite is `none`. -/
structure NativeResult where
  values : List (Option ℚ)
  flags : ℤ
  warning : String

/-- What `swe.get_ayanamsa_ex` returns. -/
structure NativeAyanamsha where
  flags : ℤ
  value : Option ℚ

/-- The sidereal part of the result. -/
structure Sidereal where
  moon : ℚ
  ayanamsha : ℚ
  requestedFlags : ℤ
  returnedFlags : ℤ
  ayanamshaFlags : ℤ
  deriving DecidableEq

/-- `FLG_SWIEPH`, `FLG_SIDEREAL` and `FLG_NONUT` of the native library. -/
def flgSwieph : ℕ := 2
/-- `FLG_SIDEREAL`. -/
def flgSidereal : ℕ := 65536
/-- `FLG_NONUT`. -/
def flgNonut : ℕ := 64

/-- `difference`. -/
def difference (round : ℚ → ℚ) (tropical ayanamsha moon : ℚ) : ℚ :=
  round (moduloBy round
    (round (round (moduloBy round (round (tropical - ayanamsha)) 360 - moon) + 180)) 360 - 180)

/-- The Lahiri branch of `run`, from the tropical Moon and what the native library returns. -/
def lahiri (round : ℚ → ℚ) (tropical : ℚ) (native : NativeResult) (aya : NativeAyanamsha) :
    Except EphemerisFailure Sidereal :=
  let requested := flgSwieph ||| flgSidereal
  if native.flags ≠ (requested ||| flgNonut : ℕ) ∨ aya.flags ≠ flgSwieph then
    .error .fallbackRejected
  else if native.warning ≠ "" ∨ native.values.length ≠ 6 ∨ none ∈ native.values then
    .error .nativeFailure
  else
    match native.values.head?.join, aya.value with
    | some moon, some ayanamsha =>
      if ¬(0 ≤ ayanamsha ∧ ayanamsha < 360) ∨ ¬(0 ≤ moon ∧ moon < 360) then .error .nativeFailure
      else if round (1 / 10 ^ 10) < |difference round tropical ayanamsha moon| then
        .error .invalidResult
      else .ok ⟨moon, ayanamsha, requested, native.flags, aya.flags⟩
    | _, _ => .error .nativeFailure

/-- Six finite numbers under the expected flags, the Moon first. -/
def reported (moon : ℚ) (rest : List ℚ) : NativeResult :=
  ⟨(moon :: rest).map some, 65602, ""⟩

/-- The branch prints a result for these angles. -/
def Accepts (round : ℚ → ℚ) (tropical ayanamsha moon : ℚ) (rest : List ℚ) : Prop :=
  ∃ sidereal, lahiri round tropical (reported moon rest) ⟨2, some ayanamsha⟩ = .ok sidereal

theorem lahiri_reported (round : ℚ → ℚ) (tropical : ℚ) {ayanamsha moon : ℚ} {rest : List ℚ}
    (haya : 0 ≤ ayanamsha ∧ ayanamsha < 360) (hmoon : 0 ≤ moon ∧ moon < 360)
    (hrest : rest.length = 5) :
    lahiri round tropical (reported moon rest) ⟨2, some ayanamsha⟩ =
      if round (1 / 10 ^ 10) < |difference round tropical ayanamsha moon| then
        .error .invalidResult
      else .ok ⟨moon, ayanamsha, 65538, 65602, 2⟩ := by
  have hflags : ¬((65602 : ℤ) ≠ ((flgSwieph ||| flgSidereal) ||| flgNonut : ℕ) ∨
      (2 : ℤ) ≠ flgSwieph) := by decide
  have hvalues : ¬(("" : String) ≠ "" ∨ ((moon :: rest).map some).length ≠ 6 ∨
      none ∈ (moon :: rest).map some) := by simp [hrest]
  have hrange : ¬(¬(0 ≤ ayanamsha ∧ ayanamsha < 360) ∨ ¬(0 ≤ moon ∧ moon < 360)) := by
    simp [haya, hmoon]
  unfold lahiri reported
  rw [if_neg hflags, if_neg hvalues]
  simp only [List.map_cons, List.head?_cons, Option.join_some, if_neg hrange]
  rfl

/-- Angles in range are refused only for their difference. -/
theorem accepts_iff (round : ℚ → ℚ) (tropical : ℚ) {ayanamsha moon : ℚ} {rest : List ℚ}
    (haya : 0 ≤ ayanamsha ∧ ayanamsha < 360) (hmoon : 0 ≤ moon ∧ moon < 360)
    (hrest : rest.length = 5) :
    Accepts round tropical ayanamsha moon rest ↔
      |difference round tropical ayanamsha moon| ≤ round (1 / 10 ^ 10) := by
  unfold Accepts
  rw [lahiri_reported round tropical haya hmoon hrest]
  split_ifs with hfar
  · exact ⟨nofun, fun hnear => absurd hnear (not_le.mpr hfar)⟩
  · exact ⟨fun _ => not_lt.mp hfar, fun _ => ⟨_, rfl⟩⟩

end Worker

/-! ## Both gates on the circle -/

theorem turn_pos : (0 : ℚ) < (360 : ℕ) := by norm_num

/-- Without rounding, the folded difference measures the circle. -/
theorem Worker.abs_difference (tropical ayanamsha moon : ℚ) :
    |Worker.difference id tropical ayanamsha moon| =
      arcDistance turn_pos (tropical - ayanamsha) moon := by
  have hhalf : (180 : ℚ) + 180 = (360 : ℕ) := by norm_num
  rw [← abs_toIcoMod_half turn_pos hhalf, ← moduloBy_id, ← moduloBy_id]
  rfl

/-- Without rounding, the gate of the response measures the circle. -/
theorem LahiriResponse.consistentBy_id (tropical ayanamsha moon : ℚ) :
    LahiriResponse.consistentBy id tropical ayanamsha moon = true ↔
      arcDistance turn_pos (tropical - ayanamsha) moon ≤ 1 / 10 ^ 10 := by
  rw [← Worker.abs_difference]
  exact decide_eq_true_iff

/-- A longitude turned by `r`, modulo 360. -/
def rotate (r x : ℚ) : ℚ := moduloBy id (x + r) 360

theorem rotate_mem (r x : ℚ) : 0 ≤ rotate r x ∧ rotate r x < 360 := by
  have h := toIcoMod_mem_Ico' turn_pos (x + r)
  rw [rotate, moduloBy_id turn_pos]
  exact h

/-- Turning the tropical and the sidereal Moon together does not change their distance. -/
theorem arcDistance_rotate (r tropical ayanamsha moon : ℚ) :
    arcDistance turn_pos (rotate r tropical - ayanamsha) (rotate r moon) =
      arcDistance turn_pos (tropical - ayanamsha) moon := by
  apply arcDistance_congr turn_pos
    (k := toIcoDiv turn_pos 0 (moon + r) - toIcoDiv turn_pos 0 (tropical + r))
  rw [rotate, rotate, moduloBy_id turn_pos, moduloBy_id turn_pos, ← self_sub_toIcoDiv_zsmul,
    ← self_sub_toIcoDiv_zsmul, sub_smul]
  abel

/-- The gate of the response is the distance on the circle, the worker accepts the same triples, and
    a common rotation of the two Moons changes neither. -/
theorem lahiri_gate_circular (tropical : ℚ) {ayanamsha moon : ℚ} {rest : List ℚ}
    (haya : 0 ≤ ayanamsha ∧ ayanamsha < 360) (hmoon : 0 ≤ moon ∧ moon < 360)
    (hrest : rest.length = 5) :
    (LahiriResponse.consistentBy id tropical ayanamsha moon = true ↔
      arcDistance turn_pos (tropical - ayanamsha) moon ≤ 1 / 10 ^ 10) ∧
    (∀ v : LahiriResponse, v.Reads tropical ayanamsha moon →
      (v.coherentBy id = .ok () ↔
        LahiriResponse.consistentBy id tropical ayanamsha moon = true)) ∧
    (Worker.Accepts id tropical ayanamsha moon rest ↔
      LahiriResponse.consistentBy id tropical ayanamsha moon = true) ∧
    ∀ r : ℚ,
      (LahiriResponse.consistentBy id (rotate r tropical) ayanamsha (rotate r moon) = true ↔
        LahiriResponse.consistentBy id tropical ayanamsha moon = true) ∧
      (Worker.Accepts id (rotate r tropical) ayanamsha (rotate r moon) rest ↔
        Worker.Accepts id tropical ayanamsha moon rest) := by
  have hworker := Worker.accepts_iff id tropical haya hmoon hrest
  rw [Worker.abs_difference] at hworker
  refine ⟨LahiriResponse.consistentBy_id _ _ _, fun v h => h.coherentBy_eq_ok id, ?_,
    fun r => ⟨?_, ?_⟩⟩
  · rw [LahiriResponse.consistentBy_id]
    exact hworker
  · rw [LahiriResponse.consistentBy_id, LahiriResponse.consistentBy_id, arcDistance_rotate]
  · rw [Worker.accepts_iff id _ haya (rotate_mem r moon) hrest, Worker.abs_difference,
      arcDistance_rotate, hworker]

/-- A sidereal Moon just below 360, with the tropical Moon and the ayanamsha both at 10. -/
theorem lahiri_gate_circular_wrap :
    (0 : ℚ) ≤ 10 ∧ (0 : ℚ) ≤ 360 - 1 / 10 ^ 11 ∧
      (Worker.Accepts id 10 10 (360 - 1 / 10 ^ 11) [0, 0, 0, 0, 0] ↔
        LahiriResponse.consistentBy id 10 10 (360 - 1 / 10 ^ 11) = true) ∧
      LahiriResponse.consistentBy id 10 10 (360 - 1 / 10 ^ 11) = true ∧
      LahiriResponse.consistentBy id 10 10 180 = false :=
  ⟨by norm_num, by norm_num,
    (lahiri_gate_circular 10 (by norm_num) (by norm_num) rfl).2.2.1,
    by decide +kernel, by decide +kernel⟩

end AstroPassport
