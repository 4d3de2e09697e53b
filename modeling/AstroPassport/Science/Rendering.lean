import AstroPassport.Canonical.Scaled
import AstroPassport.Contracts.Lahiri
import AstroPassport.Science.Assembly

set_option autoImplicit false

/-! # The nine-place text of a longitude

`_calculate` renders the decimal of a body, `_lahiri` those of the ayanamsha and of the sidereal
Moon. Each text is read again, by the wire models and by `scaled`. From a float to the integer of
the content there is one rounding (`bodyText_exact`); the two renderers part at the negative zero
(`renderersAgree_iff`).

A float of the circle has a number of billionths (`Finite64.e9`), that of its shortest decimal
rounded half-even, and both texts spell this number with nine places after the point. The one
renderer replaces a zero by `0` first; the other formats it as it is, with the sign, which shows
exactly when a negative float rounds to zero, and on the circle that is the negative zero alone
(`abs_eq_zero_of_neg`). The texts without a sign pass the wire models with the float they came from
(`longitude_valid`, `ayanamsha_valid`), and `scaled` reads the billionths back. -/

namespace AstroPassport

/-- The decimal text of a body in `_calculate`, whose decimal `_result` made from a hexadecimal. -/
def bodyText (hex : List Char) : Checked (List Char) := do
  let raw ← Binary64.fromHex hex
  let longitude ← longitudeDecimal raw
  pure (degreesText longitude)

/-- The decimal text of `angle` in `_lahiri`; a zero is not looked at. -/
def angleText (hex : List Char) : Checked (List Char) := do
  let raw ← Binary64.fromHex hex
  let longitude ← longitudeDecimal raw
  pure (longitude.fixedText 9)

/-! ## What the texts are -/

section Text

variable {x : Finite64}

/-- The billionths of the nine-place decimal of a longitude. -/
def Finite64.e9 (x : Finite64) : ℕ := x.toDecimal.scaledMagnitude 9 % (360 * 10 ^ 9)

theorem Finite64.e9_lt (x : Finite64) : x.e9 < 360 * 10 ^ 9 := Nat.mod_lt _ (by norm_num)

/-- The negative zero is the one negative float of the circle. -/
theorem abs_eq_zero_of_neg (hx : 0 ≤ x.value ∧ x.value < 360) (hneg : x.neg = true) :
    x.abs = 0 := by
  rw [Finite64.value_of_neg hneg] at hx
  linarith [x.abs_nonneg]

theorem toDecimal_magnitude_of_zero (h : x.abs = 0) : x.toDecimal.magnitude = 0 := by
  show (((shortestDecimal x.abs).1 : ℕ) : ℚ) * 10 ^ (shortestDecimal x.abs).2 = 0
  rw [h, shortestDecimal, if_pos le_rfl]
  norm_num

theorem toDecimal_value_of_circle (hx : 0 ≤ x.value ∧ x.value < 360) :
    x.toDecimal.value = x.toDecimal.magnitude := by
  unfold PyDecimal.value
  split
  · next hneg =>
      rw [toDecimal_magnitude_of_zero (abs_eq_zero_of_neg hx hneg), neg_zero]
  · rfl

/-- The billionths are the shortest decimal, rounded and brought below 360. -/
theorem e9_cast (hx : 0 ≤ x.value ∧ x.value < 360) :
    (x.e9 : ℤ) = roundHalfEven (x.toDecimal.value * 10 ^ 9) % 360000000000 := by
  rw [toDecimal_value_of_circle hx, ← x.toDecimal.scaledMagnitude_cast, Finite64.e9]
  push_cast
  rfl

theorem e9_of_zero (h : x.abs = 0) : x.e9 = 0 := by
  have hscaled : x.toDecimal.scaledMagnitude 9 = 0 :=
    PyDecimal.scaledMagnitude_of_eq (by rw [toDecimal_magnitude_of_zero h]; norm_num)
  rw [Finite64.e9, hscaled, Nat.zero_mod]

/-- The text of so many billionths. -/
def billionthsText (n : ℕ) : List Char := numeral (n / 10 ^ 9) ++ '.' :: padded 9 (n % 10 ^ 9)

theorem fixedText_billionths (neg : Bool) (n : ℕ) :
    PyDecimal.fixedText 9 ⟨neg, n, -9⟩ = (if neg then ['-'] else []) ++ billionthsText n := by
  have hscaled : PyDecimal.scaledMagnitude 9 ⟨neg, n, -9⟩ = n :=
    PyDecimal.scaledMagnitude_of_eq rfl
  rw [PyDecimal.fixedText, hscaled, List.append_assoc]
  rfl

theorem angleText_hex (hx : 0 ≤ x.value ∧ x.value < 360) :
    angleText x.hex = .ok ((if x.neg then ['-'] else []) ++ billionthsText x.e9) := by
  rw [angleText, fromHex_hex x, Checked.ok_bind, longitudeDecimal_finite hx, Checked.ok_bind]
  exact congrArg Checked.ok (fixedText_billionths x.neg x.e9)

/-- The sign does not show: only a zero has one. -/
theorem bodyText_hex (hx : 0 ≤ x.value ∧ x.value < 360) :
    bodyText x.hex = .ok (billionthsText x.e9) := by
  rw [bodyText, fromHex_hex x, Checked.ok_bind, longitudeDecimal_finite hx, Checked.ok_bind]
  refine congrArg Checked.ok ?_
  show degreesText ⟨x.neg, x.e9, -9⟩ = _
  unfold degreesText
  by_cases hzero : x.e9 = 0
  · rw [if_pos hzero, hzero]
    decide +kernel
  · have hneg : x.neg = false := by
      rw [← Bool.not_eq_true]
      exact fun hneg => hzero (e9_of_zero (abs_eq_zero_of_neg hx hneg))
    rw [if_neg hzero, fixedText_billionths, hneg]
    rfl

/-! ## The wire models take the text -/

/-- The text has the wire pattern and denotes its billionths. -/
theorem billionthsText_wire {n : ℕ} (hn : n < 360 * 10 ^ 9) :
    isDegreesText (billionthsText n) = true ∧
      ∃ parts, readDecimal (billionthsText n) = some parts ∧
        (PyDecimal.ofParts parts).value = n * 10 ^ (-((9 : ℕ) : ℤ)) := by
  have hwire := @fixedText_wire ⟨false, n, -9⟩ n hn rfl rfl
  rwa [fixedText_billionths] at hwire

theorem representation_billionthsText (hx : 0 ≤ x.value ∧ x.value < 360) :
    Longitude.representation ⟨String.ofList x.hex, String.ofList (billionthsText x.e9)⟩ =
      .ok () := by
  obtain ⟨-, parts, hparts, hvalue⟩ := billionthsText_wire x.e9_lt
  have hcircle : (Binary64.finite x).onCircle = true := decide_eq_true hx
  have hsigned : PyDecimal.value ⟨x.neg, x.e9, -9⟩ = x.e9 * 10 ^ (-((9 : ℕ) : ℤ)) := by
    by_cases hneg : x.neg = true
    · rw [e9_of_zero (abs_eq_zero_of_neg hx hneg)]
      simp [PyDecimal.value, PyDecimal.magnitude]
    · rw [PyDecimal.value, if_neg hneg]
      rfl
  simp only [Longitude.representation, String.toList_ofList, fromHex_hex, Checked.ok_bind, hcircle,
    Binary64.hex, decide_true, Bool.and_self, plainDecimal, hparts, Option.map_some,
    Checked.require, if_true, Checked.ofOption, longitudeDecimal_finite hx]
  show (if decide ((PyDecimal.ofParts parts).value = PyDecimal.value ⟨x.neg, x.e9, -9⟩) then
    Checked.ok () else .valueError) = .ok ()
  rw [if_pos (decide_eq_true (hvalue.trans hsigned.symm))]

theorem hexText_sized (x : Finite64) : (sized 8 32).valid (String.ofList x.hex) = true := by
  refine decide_eq_true ?_
  rw [String.length_ofList]
  exact ⟨x.length_hex_ge, x.length_hex_le⟩

theorem longitude_valid (hx : 0 ≤ x.value ∧ x.value < 360) (body : String) :
    (Longitude.model body).valid
      ⟨String.ofList x.hex, String.ofList (billionthsText x.e9)⟩ = true := by
  have htext := (billionthsText_wire x.e9_lt).1
  have hsized := hexText_sized x
  simp only [Longitude.model, Longitude.fields, Codec.after_valid, Codec.object_valid,
    Fields.literal_valid, Fields.field_valid, Fields.done_valid, hsized, Codec.text_valid,
    String.toList_ofList, htext, Bool.and_self, true_and]
  exact representation_billionthsText hx

theorem ayanamsha_valid (hx : 0 ≤ x.value ∧ x.value < 360) :
    Ayanamsha.model.valid ⟨String.ofList x.hex, String.ofList (billionthsText x.e9)⟩ = true := by
  have htext := (billionthsText_wire x.e9_lt).1
  have hsized := hexText_sized x
  simp only [Ayanamsha.model, Ayanamsha.fields, Codec.after_valid, Codec.object_valid,
    Fields.field_valid, Fields.done_valid, hsized, Codec.text_valid, String.toList_ofList, htext,
    Bool.and_self, true_and]
  -- the two validators have one body
  exact representation_billionthsText hx

/-! ## One rounding from the float to the content -/

theorem billionthsText_injective : Function.Injective billionthsText := by
  intro m n h
  obtain ⟨_, hreadm, -, hm⟩ := @readDecimal_fixed 9 m (by norm_num)
  obtain ⟨_, hreadn, -, hn⟩ := @readDecimal_fixed 9 n (by norm_num)
  have hread := hreadm.symm.trans ((congrArg readDecimal h).trans hreadn)
  simp only [Option.some.injEq, Prod.mk.injEq, true_and] at hread
  rw [← hm, ← hn, hread.1, hread.2]

/-- `scaled` finds the billionths again. -/
theorem scaled_billionthsText {n : ℕ} (hn : n < 360 * 10 ^ 9) :
    scaled (billionthsText n) .angle = .ok n := by
  obtain ⟨m, hm, -, htext⟩ := scaled_degrees (billionthsText_wire hn).1
  rw [hm, billionthsText_injective htext]

/-- The decimal of a float of the circle is an angle. -/
theorem admits_toDecimal_angle (hx : 0 ≤ x.value ∧ x.value < 360) :
    ScaleKind.angle.Admits x.toDecimal.value := by
  have habs : x.abs < (360 : ℕ) := by
    rw [← x.abs_value, abs_of_nonneg hx.1]
    exact_mod_cast hx.2
  have hle := x.toDecimal_magnitude_le (by norm_num) habs
  rw [toDecimal_value_of_circle hx]
  refine ⟨⟨x.toDecimal.magnitude_nonneg, by exact_mod_cast hle⟩, fun _ heq => ?_⟩
  -- 360 rounds to itself
  have hround := x.roundMagnitude_toDecimal
  have hself := roundMagnitude_natCast (n := 360) (by norm_num)
  rw [heq] at hround
  have heq' : x.abs = (360 : ℕ) := by rw [← hround, ← hself]; norm_num
  exact absurd heq' habs.ne

/-- **The content integer is one rounding of the float.** For every float of the circle the text of
    `_calculate` has the wire pattern and passes the check against the float, and `scaled` reads it
    as the shortest decimal rounded half to even at nine places, a whole turn taken away. Every text
    that spells the shortest decimal is scaled to the same integer, and another text to another. -/
theorem bodyText_exact (hx : 0 ≤ x.value ∧ x.value < 360) :
    ∃ text n, bodyText x.hex = .ok text ∧ isDegreesText text = true ∧
      (∀ body, (Longitude.model body).valid ⟨String.ofList x.hex, String.ofList text⟩ = true) ∧
      scaled text .angle = .ok n ∧
      n = roundHalfEven (x.toDecimal.value * 10 ^ 9) % 360000000000 ∧
      (∀ spelling, Spells spelling x.toDecimal.value → pyScaled spelling .angle = .ok n) ∧
      ∀ (y : Finite64) (other : List Char), 0 ≤ y.value → y.value < 360 →
        bodyText y.hex = .ok other → other ≠ text → scaled other .angle ≠ .ok n := by
  refine ⟨_, _, bodyText_hex hx, (billionthsText_wire x.e9_lt).1, longitude_valid hx,
    scaled_billionthsText x.e9_lt, e9_cast hx, ?_, ?_⟩
  · intro spelling hspelling
    rw [pyScaled_of_spells hspelling, if_pos (admits_toDecimal_angle hx), e9_cast hx]
    rfl
  · intro y other hlow hhigh hother hne hsame
    rw [bodyText_hex ⟨hlow, hhigh⟩, Checked.ok.injEq] at hother
    subst hother
    rw [scaled_billionthsText y.e9_lt, Checked.ok.injEq] at hsame
    exact hne (congrArg billionthsText (by exact_mod_cast hsame))

/-! ## The two renderers -/

/-- Both renderers give one text for a float, and the two wire models take it with the float. -/
def RenderersAgree (x : Finite64) : Prop :=
  ∃ text, angleText x.hex = .ok text ∧ bodyText x.hex = .ok text ∧
    (∀ body, (Longitude.model body).valid ⟨String.ofList x.hex, String.ofList text⟩ = true) ∧
    Ayanamsha.model.valid ⟨String.ofList x.hex, String.ofList text⟩ = true

/-- **The renderers agree but for the negative zero**, whose sign `angle` writes out. -/
theorem renderersAgree_iff (hx : 0 ≤ x.value ∧ x.value < 360) :
    RenderersAgree x ↔ x.neg = false := by
  constructor
  · rintro ⟨text, hangle, hbody, -⟩
    rw [bodyText_hex hx] at hbody
    rw [angleText_hex hx, ← hbody, Checked.ok.injEq] at hangle
    by_contra hneg
    rw [Bool.not_eq_false] at hneg
    -- one text is a character longer
    have hlength := congrArg List.length hangle
    rw [hneg, if_pos rfl, List.length_append, List.length_singleton] at hlength
    omega
  · intro hneg
    have hangle := angleText_hex hx
    rw [hneg] at hangle
    exact ⟨_, hangle, bodyText_hex hx, longitude_valid hx, ayanamsha_valid hx⟩

end Text

/-- `0.0`. -/
def positiveZero : Finite64 := .zero false

/-- `-0.0`. -/
def negativeZero : Finite64 := .zero true

theorem circle_zero (neg : Bool) :
    0 ≤ (Finite64.zero neg).value ∧ (Finite64.zero neg).value < 360 := by
  norm_num

theorem renderersAgree_iff_zero : (0 ≤ positiveZero.value ∧ positiveZero.value < 360) ∧
    RenderersAgree positiveZero :=
  ⟨circle_zero false, (renderersAgree_iff (circle_zero false)).mpr rfl⟩

/-- The negative zero is a float of the circle; its two texts differ, and no wire model takes the
    one of `angle`. -/
theorem negativeZero_texts : (0 ≤ negativeZero.value ∧ negativeZero.value < 360) ∧
    angleText negativeZero.hex = .ok "-0.000000000".toList ∧
    bodyText negativeZero.hex = .ok "0.000000000".toList ∧
    isDegreesText "-0.000000000".toList = false ∧ ¬ RenderersAgree negativeZero := by
  have hangle : angleText negativeZero.hex = .ok "-0.000000000".toList := by decide +kernel
  have hbody : bodyText negativeZero.hex = .ok "0.000000000".toList := by decide +kernel
  refine ⟨circle_zero true, hangle, hbody, by decide, ?_⟩
  rintro ⟨text, htext, hsame, -⟩
  rw [hangle, Checked.ok.injEq] at htext
  rw [hbody, Checked.ok.injEq] at hsame
  exact absurd (htext.trans hsame.symm) (by decide)

theorem bodyText_exact_negativeZero : (0 ≤ negativeZero.value ∧ negativeZero.value < 360) ∧
    ∃ text n, bodyText negativeZero.hex = .ok text ∧ scaled text .angle = .ok n ∧
      n = roundHalfEven (negativeZero.toDecimal.value * 10 ^ 9) % 360000000000 := by
  obtain ⟨text, n, htext, -, -, hscaled, hn, -⟩ := bodyText_exact (circle_zero true)
  exact ⟨circle_zero true, text, n, htext, hscaled, hn⟩

end AstroPassport
