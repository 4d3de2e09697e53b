import AstroPassport.Canonical.Passport
import AstroPassport.Lib.Json.Js

set_option autoImplicit false

/-! # `scaled`, in Python, in Node and in the service

`scaled` is implemented twice, in decimal arithmetic by `app/canonical.py` and in sign and magnitude
by `conformance/acep1.mjs`, and `passport_content` projects coordinates by a third function,
`coordinate`. All three are one exact rounding (`scaled_exact`, `coordinate_exact`).

A string is a list of Python's characters for the one and of UTF-16 units for the other, and either
may be any string at all: the two patterns take the same ones (`jsAscii?_readDecimal`), namely the
spellings of a sign, an integer part and a fraction (`Spells`). On such a spelling each function is
computed from the same digits: decimals are compared with their exact bounds and quantised, while
the second works on a magnitude in integers and puts the sign back (`nodeRange`, `nodeRound`,
`nodeReduce`). `ScalesTo` is what both compute, stated over the rationals. A coordinate is a float
and no string; its shortest decimal spells it, and off the seam the projection is monotone. -/

namespace AstroPassport

/-! ## Any string -/

/-- The characters of an ASCII string, which are all that an ASCII pattern matches. -/
def jsAscii? (s : JsString) : Option (List Char) :=
  s.mapM fun u => if u.val < 128 then some (Char.ofNat u.val) else none

/-- `scaled` of any `str`; a surrogate is outside the pattern. -/
def pyScaled (text : List CodePoint) (kind : ScaleKind) : Checked ℤ :=
  match scalars? text with
  | some cs => scaled cs kind
  | none => .valueError

/-! ## `scaled` of `acep1.mjs` -/

/-- What it throws. -/
inductive NodeScaledError where
  | decimal
  | range
  deriving DecidableEq, Repr

/-- `^(-?)([0-9]{1,3})(?:\.([0-9]{1,18}))?$`, its groups as digits. -/
def nodeDecimal (text : JsString) : Option (Bool × List ℕ × List ℕ) :=
  match (jsAscii? text).bind readDecimal with
  | some parts => if parts.2.1.length ≤ 3 ∧ parts.2.2.length ≤ 18 then some parts else none
  | none => none

/-- `{latitude:[7,-90,90],longitude:[7,-180,180],angle:[9,0,360]}`. -/
def ScaleKind.nodeRow : ScaleKind → ℕ × ℤ × ℤ
  | .latitude => (7, -90, 90)
  | .longitude => (7, -180, 180)
  | .angle => (9, 0, 360)

/-- `scaled`; a BigInt is an integer, its division truncates. -/
def nodeScaled (text : JsString) (kind : ScaleKind) : Except NodeScaledError Binary64 :=
  match nodeDecimal text with
  | none => .error .decimal
  | some (neg, int, fraction) =>
    let (places, low, high) := kind.nodeRow
    let denominator : ℕ := 10 ^ fraction.length
    let magnitude := fromDigits (int ++ fraction)
    let sign : ℤ := if neg then -1 else 1
    let signed : ℤ := magnitude * sign
    if signed < low * denominator ∨ high * denominator < signed ∨
        (kind = .angle ∧ signed = 360 * denominator) then .error .range
    else
      let numerator := magnitude * 10 ^ places
      let remainder := numerator % denominator
      let quotient := numerator / denominator
      let quotient : ℤ :=
        if denominator < remainder * 2 ∨ remainder * 2 = denominator ∧ quotient % 2 = 1 then
          (quotient : ℤ) + 1
        else quotient
      let result := quotient * sign
      let result := if kind = .angle then result.tmod 360000000000 else result
      let result := if kind = .longitude ∧ result = 1800000000 then -1800000000 else result
      .ok (.ofRat result)

/-! ## The two patterns take the same strings -/

/-- A code point outside ASCII is one unit outside it or two. -/
theorem jsAscii?_cons (c : CodePoint) (s : List CodePoint) :
    jsAscii? (utf16Encode (c :: s)) =
      if c.val < 128 then (jsAscii? (utf16Encode s)).map (Char.ofNat c.val :: ·) else none := by
  have hunit : ∀ (u : CodeUnit) (rest : JsString), jsAscii? (u :: rest) =
      if u.val < 128 then (jsAscii? rest).map (Char.ofNat u.val :: ·) else none := by
    intro u rest
    unfold jsAscii?
    rw [List.mapM_cons]
    by_cases h : u.val < 128
    · rw [if_pos h, if_pos h]
      rcases List.mapM _ rest with _ | cs <;> rfl
    · rw [if_neg h, if_neg h]
      rfl
  rw [utf16Encode_cons]
  by_cases h : c.val < 0x10000
  · simp only [utf16, h, dif_pos, List.cons_append, List.nil_append, hunit]
  · have hhigh : ¬ 0xD800 + (c.val - 0x10000) / 0x400 < 128 := by omega
    have hc : ¬ c.val < 128 := by omega
    simp only [utf16, h, dif_neg, not_false_eq_true, List.cons_append, hunit, hhigh, hc, if_false]

theorem jsAscii?_eq_some {s : List CodePoint} {cs : List Char} :
    jsAscii? (utf16Encode s) = some cs ↔ IsAscii cs ∧ s = cs.map scalar := by
  induction s generalizing cs with
  | nil =>
      constructor
      · intro h
        cases h
        exact ⟨List.forall_mem_nil _, rfl⟩
      · rintro ⟨-, h⟩
        rw [List.map_eq_nil_iff.mp h.symm]
        rfl
  | cons c s ih =>
      rw [jsAscii?_cons]
      constructor
      · intro h
        split at h
        · next hc =>
            obtain ⟨ds, hds, rfl⟩ := Option.map_eq_some_iff.mp h
            obtain ⟨hascii, rfl⟩ := ih.mp hds
            have hvalid : c.val.isValidChar := .inl (by omega)
            -- below 128 a code point is a character
            have hchar : (Char.ofNat c.val).toNat = c.val := by rw [Char.ofNat, dif_pos hvalid]; rfl
            refine ⟨isAscii_cons.2 ⟨hchar.trans_lt hc, hascii⟩, ?_⟩
            rw [List.map_cons]
            exact congrArg (· :: _) (Fin.ext hchar.symm)
        · cases h
      · rintro ⟨hascii, h⟩
        rcases cs with _ | ⟨d, ds⟩
        · cases h
        · rw [List.map_cons, List.cons.injEq] at h
          obtain ⟨rfl, rfl⟩ := h
          obtain ⟨hd, hds⟩ := isAscii_cons.1 hascii
          rw [if_pos (show (scalar d).val < 128 from hd), ih.mpr ⟨hds, rfl⟩]
          show some (Char.ofNat d.toNat :: ds) = _
          rw [Char.ofNat_toNat]

theorem isAscii_digits {ds : List ℕ} (h : ∀ d ∈ ds, d < 10) : IsAscii (ds.map Nat.digitChar) := by
  have hdigit : ∀ d < 10, (Nat.digitChar d).toNat < 128 := by decide
  intro c hc
  obtain ⟨d, hd, rfl⟩ := List.mem_map.mp hc
  exact hdigit d (h d hd)

theorem isAscii_decimalText {neg : Bool} {int fraction : List ℕ} (hint : ∀ d ∈ int, d < 10)
    (hfraction : ∀ d ∈ fraction, d < 10) : IsAscii (decimalText neg int fraction) := by
  have hpoint : IsAscii (if fraction = [] then [] else '.' :: fraction.map Nat.digitChar) := by
    split
    · exact List.forall_mem_nil _
    · exact isAscii_cons.2 ⟨by decide, isAscii_digits hfraction⟩
  refine isAscii_append.2 ⟨?_, isAscii_append.2 ⟨isAscii_digits hint, hpoint⟩⟩
  cases neg <;> decide

/-- On the UTF-16 units of a string the pattern of Node takes what the pattern of Python takes. -/
theorem jsAscii?_readDecimal (text : List CodePoint) :
    (jsAscii? (utf16Encode text)).bind readDecimal = (scalars? text).bind readDecimal := by
  apply Option.ext
  rintro ⟨neg, int, fraction⟩
  simp only [Option.bind_eq_some_iff]
  constructor
  · rintro ⟨cs, hcs, hread⟩
    obtain ⟨-, rfl⟩ := jsAscii?_eq_some.1 hcs
    exact ⟨cs, scalars?_map_scalar cs, hread⟩
  · rintro ⟨cs, hcs, hread⟩
    obtain ⟨htext, -, hint, hfraction⟩ := readDecimal_eq_some.1 hread
    refine ⟨cs, jsAscii?_eq_some.2 ⟨?_, (map_scalar_of_scalars? hcs).symm⟩, hread⟩
    rw [htext]
    exact isAscii_decimalText hint hfraction

theorem nodeDecimal_utf16Encode (text : List CodePoint) :
    (nodeDecimal (utf16Encode text)).map .ofParts = (scalars? text).bind boundedDecimal := by
  unfold nodeDecimal
  rw [jsAscii?_readDecimal]
  rcases scalars? text with _ | cs
  · rfl
  · simp only [Option.bind_some, boundedDecimal]
    rcases readDecimal cs with _ | parts
    · rfl
    · by_cases hlengths : parts.2.1.length ≤ 3 ∧ parts.2.2.length ≤ 18
      · simp only [hlengths, and_self, if_true, Option.map_some]
      · simp only [hlengths, if_false, Option.map_none]

/-! ## Sign and magnitude -/

theorem value_ofParts (neg : Bool) (int fraction : List ℕ) :
    (PyDecimal.ofParts (neg, int, fraction)).value =
      ((fromDigits (int ++ fraction) * (if neg then -1 else 1) : ℤ) : ℚ) /
        (10 ^ fraction.length : ℕ) := by
  have hunit : (10 : ℚ) ^ (-(fraction.length : ℤ)) = ((10 ^ fraction.length : ℕ) : ℚ)⁻¹ := by
    rw [zpow_neg, zpow_natCast]
    push_cast
    rfl
  unfold PyDecimal.value PyDecimal.magnitude PyDecimal.ofParts
  rw [hunit, div_eq_mul_inv]
  cases neg <;> simp

/-- The range is tested on the numerators. -/
theorem nodeRange (kind : ScaleKind) (signed : ℤ) {denominator : ℕ} (h : 0 < denominator) :
    (signed < kind.nodeRow.2.1 * denominator ∨ kind.nodeRow.2.2 * denominator < signed ∨
        (kind = .angle ∧ signed = 360 * denominator)) ↔
      ¬ kind.Admits ((signed : ℚ) / denominator) := by
  have hpos : (0 : ℚ) < denominator := by exact_mod_cast h
  have hlow : kind.low ≤ (signed : ℚ) / denominator ↔ ¬ signed < kind.nodeRow.2.1 * denominator := by
    have hrow : kind.low = (kind.nodeRow.2.1 : ℚ) := by cases kind <;> simp [ScaleKind.low, ScaleKind.nodeRow]
    rw [hrow, le_div_iff₀ hpos, not_lt]
    exact_mod_cast Iff.rfl
  have hhigh : (signed : ℚ) / denominator ≤ kind.high ↔ ¬ kind.nodeRow.2.2 * denominator < signed := by
    have hrow : kind.high = (kind.nodeRow.2.2 : ℚ) := by cases kind <;> simp [ScaleKind.high, ScaleKind.nodeRow]
    rw [hrow, div_le_iff₀ hpos, not_lt]
    exact_mod_cast Iff.rfl
  have hend : (signed : ℚ) / denominator = 360 ↔ signed = 360 * denominator := by
    rw [div_eq_iff hpos.ne']
    exact_mod_cast Iff.rfl
  unfold ScaleKind.Admits
  rw [hlow, hhigh, ← hend]
  tauto

/-- Rounding the magnitude and putting the sign back is rounding the number. -/
theorem nodeRound (numerator places : ℕ) {denominator : ℕ} (neg : Bool) (h : 0 < denominator) :
    (if denominator < numerator * 10 ^ places % denominator * 2 ∨
          numerator * 10 ^ places % denominator * 2 = denominator ∧
            numerator * 10 ^ places / denominator % 2 = 1 then
        ((numerator * 10 ^ places / denominator : ℕ) : ℤ) + 1
      else ((numerator * 10 ^ places / denominator : ℕ) : ℤ)) * (if neg then -1 else 1) =
      roundHalfEven (((numerator * (if neg then -1 else 1) : ℤ) : ℚ) / denominator * 10 ^ places) := by
  rw [← roundHalfEven_div h]
  cases neg with
  | false =>
      rw [if_neg Bool.false_ne_true, mul_one]
      congr 1
      push_cast
      ring
  | true =>
      rw [if_pos rfl, mul_neg_one, ← roundHalfEven_neg]
      congr 1
      push_cast
      ring

/-- The numbers of an angle are not negative, where truncating is taking the remainder. -/
theorem nodeReduce {kind : ScaleKind} {q : ℚ} (h : kind.Admits q) :
    (if kind = .longitude ∧
        (if kind = .angle then (roundHalfEven (q * 10 ^ kind.places)).tmod 360000000000
          else roundHalfEven (q * 10 ^ kind.places)) = 1800000000 then -1800000000
      else if kind = .angle then (roundHalfEven (q * 10 ^ kind.places)).tmod 360000000000
        else roundHalfEven (q * 10 ^ kind.places)) =
      kind.reduce (roundHalfEven (q * 10 ^ kind.places)) := by
  unfold ScaleKind.reduce ScaleKind.seam
  by_cases hkind : kind = .angle
  · have hnonneg : 0 ≤ roundHalfEven (q * 10 ^ kind.places) := by
      subst hkind
      apply le_roundHalfEven
      have hlow : (0 : ℚ) ≤ q := h.1.1
      push_cast
      positivity
    simp only [hkind, if_true] at hnonneg ⊢
    rw [Int.tmod_eq_emod_of_nonneg hnonneg]
  · simp only [hkind, if_false]

theorem nodeScaled_of_decimal {text : JsString} {neg : Bool} {int fraction : List ℕ}
    (h : nodeDecimal text = some (neg, int, fraction)) (kind : ScaleKind) :
    nodeScaled text kind =
      if kind.Admits (PyDecimal.ofParts (neg, int, fraction)).value then
        .ok (.ofRat (kind.reduce (roundHalfEven
          ((PyDecimal.ofParts (neg, int, fraction)).value * 10 ^ kind.places))))
      else .error .range := by
  have hdenominator : 0 < 10 ^ fraction.length := by positivity
  have hplaces : kind.nodeRow.1 = kind.places := by cases kind <;> rfl
  unfold nodeScaled
  rw [h]
  simp only
  rw [value_ofParts, hplaces]
  by_cases hadmits : kind.Admits (((fromDigits (int ++ fraction) *
      (if neg then -1 else 1) : ℤ) : ℚ) / (10 ^ fraction.length : ℕ))
  · rw [if_neg (mt (nodeRange kind _ hdenominator).mp (not_not.mpr hadmits)), if_pos hadmits,
      nodeRound _ _ neg hdenominator, nodeReduce hadmits]
  · rw [if_pos ((nodeRange kind _ hdenominator).mpr hadmits), if_neg hadmits]

/-! ## One rounding -/

/-- The number of a sign and digits. -/
def decimalValue (neg : Bool) (int fraction : List ℕ) : ℚ :=
  (if neg then -1 else 1) * (fromDigits int + fromDigits fraction / 10 ^ fraction.length)

/-- The text is an optional minus, one to three digits and up to 18 more behind a point, of this
    number. -/
def Spells (text : List CodePoint) (q : ℚ) : Prop :=
  ∃ neg int fraction, text = (decimalText neg int fraction).map scalar ∧
    (1 ≤ int.length ∧ int.length ≤ 3) ∧ fraction.length ≤ 18 ∧ (∀ d ∈ int, d < 10) ∧
    (∀ d ∈ fraction, d < 10) ∧ q = decimalValue neg int fraction

/-- What the scale of a kind makes of a text. -/
def ScalesTo (text : List CodePoint) (kind : ScaleKind) (n : ℤ) : Prop :=
  ∃ q, Spells text q ∧ kind.Admits q ∧ n = kind.reduce (roundHalfEven (q * 10 ^ kind.places))

/-- The integers of a scale. -/
def ScaleKind.Holds (n : ℤ) : ScaleKind → Prop
  | .latitude => -900000000 ≤ n ∧ n ≤ 900000000
  | .longitude => -1800000000 ≤ n ∧ n < 1800000000
  | .angle => 0 ≤ n ∧ n < 360000000000

theorem value_ofParts_eq_decimalValue (neg : Bool) (int fraction : List ℕ) :
    (PyDecimal.ofParts (neg, int, fraction)).value = decimalValue neg int fraction := by
  have hpow : (10 : ℚ) ^ fraction.length ≠ 0 := by positivity
  rw [value_ofParts, fromDigits_append, decimalValue]
  push_cast
  field_simp

theorem spells_iff {text : List CodePoint} {q : ℚ} :
    Spells text q ↔ ∃ cs d, scalars? text = some cs ∧ boundedDecimal cs = some d ∧ d.value = q := by
  constructor
  · rintro ⟨neg, int, fraction, rfl, hint, hfraction, hlt, hlt', rfl⟩
    refine ⟨_, _, scalars?_map_scalar _, boundedDecimal_eq_some.2 ⟨neg, int, fraction, rfl, hint,
      hfraction, hlt, hlt', rfl⟩, value_ofParts_eq_decimalValue neg int fraction⟩
  · rintro ⟨cs, d, hcs, hread, rfl⟩
    obtain ⟨neg, int, fraction, rfl, hint, hfraction, hlt, hlt', rfl⟩ :=
      boundedDecimal_eq_some.1 hread
    exact ⟨neg, int, fraction, (map_scalar_of_scalars? hcs).symm, hint, hfraction, hlt, hlt',
      value_ofParts_eq_decimalValue neg int fraction⟩

theorem pyScaled_of_spells {text : List CodePoint} {q : ℚ} (h : Spells text q) (kind : ScaleKind) :
    pyScaled text kind =
      if kind.Admits q then .ok (kind.reduce (roundHalfEven (q * 10 ^ kind.places)))
      else .valueError := by
  obtain ⟨cs, d, hcs, hread, rfl⟩ := spells_iff.1 h
  rw [pyScaled, hcs]
  by_cases hadmits : kind.Admits d.value
  · rw [if_pos hadmits]
    exact scaled_of_bounded hread hadmits
  · rw [if_neg hadmits]
    exact scaled_of_not_admits hread hadmits

theorem pyScaled_of_not_spells {text : List CodePoint} (h : ∀ q, ¬ Spells text q)
    (kind : ScaleKind) : pyScaled text kind = .valueError := by
  unfold pyScaled
  split
  · next cs hcs =>
      apply scaled_of_not_bounded
      rcases hread : boundedDecimal cs with _ | d
      · rfl
      · exact absurd (spells_iff.2 ⟨cs, d, hcs, hread, rfl⟩) (h d.value)
  · rfl

theorem nodeScaled_of_spells {text : List CodePoint} {q : ℚ} (h : Spells text q)
    (kind : ScaleKind) :
    nodeScaled (utf16Encode text) kind =
      if kind.Admits q then .ok (.ofRat (kind.reduce (roundHalfEven (q * 10 ^ kind.places))))
      else .error .range := by
  obtain ⟨cs, d, hcs, hread, rfl⟩ := spells_iff.1 h
  have hnode := nodeDecimal_utf16Encode text
  rw [hcs, Option.bind_some, hread] at hnode
  obtain ⟨⟨neg, int, fraction⟩, hparts, rfl⟩ := Option.map_eq_some_iff.mp hnode
  exact nodeScaled_of_decimal hparts kind

theorem nodeScaled_of_not_spells {text : List CodePoint} (h : ∀ q, ¬ Spells text q)
    (kind : ScaleKind) : nodeScaled (utf16Encode text) kind = .error .decimal := by
  have hnode : nodeDecimal (utf16Encode text) = none := by
    rw [← Option.map_eq_none_iff (f := PyDecimal.ofParts), nodeDecimal_utf16Encode]
    rcases hcs : scalars? text with _ | cs
    · rfl
    · rcases hread : boundedDecimal cs with _ | d
      · exact hread
      · exact absurd (spells_iff.2 ⟨cs, d, hcs, hread, rfl⟩) (h d.value)
  rw [nodeScaled, hnode]

/-- The rounding does not leave the range, and the reduction takes away its upper end. -/
theorem ScaleKind.Admits.holds {kind : ScaleKind} {q : ℚ} (h : kind.Admits q) :
    kind.Holds (kind.reduce (roundHalfEven (q * 10 ^ kind.places))) := by
  obtain ⟨⟨hlow, hhigh⟩, -⟩ := h
  cases kind with
  | latitude =>
      simp only [ScaleKind.low, ScaleKind.high] at hlow hhigh
      show -900000000 ≤ roundHalfEven (q * 10 ^ 7) ∧ roundHalfEven (q * 10 ^ 7) ≤ 900000000
      constructor
      · apply le_roundHalfEven
        push_cast
        linarith
      · apply roundHalfEven_le
        push_cast
        linarith
  | longitude =>
      simp only [ScaleKind.low, ScaleKind.high] at hlow hhigh
      -- the rounding may reach 180 itself, which the seam takes to -180
      have hge : -1800000000 ≤ roundHalfEven (q * 10 ^ 7) := by
        apply le_roundHalfEven
        push_cast
        linarith
      have hle : roundHalfEven (q * 10 ^ 7) ≤ 1800000000 := by
        apply roundHalfEven_le
        push_cast
        linarith
      show -1800000000 ≤ ScaleKind.longitude.seam (roundHalfEven (q * 10 ^ 7)) ∧
        ScaleKind.longitude.seam (roundHalfEven (q * 10 ^ 7)) < 1800000000
      simp only [ScaleKind.seam, true_and]
      split_ifs <;> omega
  | angle =>
      show 0 ≤ roundHalfEven (q * 10 ^ 9) % 360000000000 ∧
        roundHalfEven (q * 10 ^ 9) % 360000000000 < 360000000000
      exact ⟨Int.emod_nonneg _ (by norm_num), Int.emod_lt_of_pos _ (by norm_num)⟩

/-- The integers of the scales are binary64 numbers. -/
theorem ScaleKind.Holds.finite {kind : ScaleKind} {n : ℤ} (h : kind.Holds n) :
    ∃ x, Binary64.ofRat n = .finite x ∧ x.value = n := by
  apply Binary64.ofRat_intCast
  cases kind <;> simp only [ScaleKind.Holds] at h <;> rw [abs_lt] <;> omega

/-- **The two implementations of `scaled` are one exact rounding.** Each takes a text exactly when
    it spells a number of the range, gives the number rounded half to even in units of the last
    place, reduced into the scale, and refuses every other text. -/
theorem scaled_exact (text : List CodePoint) (kind : ScaleKind) :
    (∀ n, pyScaled text kind = .ok n ↔ ScalesTo text kind n) ∧
    (∀ n, ScalesTo text kind n → kind.Holds n ∧
      ∃ x, nodeScaled (utf16Encode text) kind = .ok (.finite x) ∧ x.value = n) ∧
    ((∀ n, ¬ ScalesTo text kind n) → pyScaled text kind = .valueError ∧
      ∃ e, nodeScaled (utf16Encode text) kind = .error e) := by
  -- the text spells at most one rational, and the kind admits it or not
  have hpython (n : ℤ) : pyScaled text kind = .ok n ↔ ScalesTo text kind n := by
    constructor
    · intro h
      by_cases hspells : ∃ q, Spells text q
      · obtain ⟨q, hq⟩ := hspells
        rw [pyScaled_of_spells hq] at h
        split at h
        · next hadmits => exact ⟨q, hq, hadmits, (Checked.ok.inj h).symm⟩
        · cases h
      · rw [pyScaled_of_not_spells (not_exists.mp hspells)] at h
        cases h
    · rintro ⟨q, hq, hadmits, rfl⟩
      rw [pyScaled_of_spells hq, if_pos hadmits]
  refine ⟨hpython, ?_, ?_⟩
  · rintro n ⟨q, hq, hadmits, rfl⟩
    obtain ⟨x, hx, hvalue⟩ := hadmits.holds.finite
    refine ⟨hadmits.holds, x, ?_, hvalue⟩
    rw [nodeScaled_of_spells hq, if_pos hadmits, hx]
  · intro hnone
    by_cases hspells : ∃ q, Spells text q
    · obtain ⟨q, hq⟩ := hspells
      have hadmits : ¬ kind.Admits q := fun h => hnone _ ⟨q, hq, h, rfl⟩
      rw [pyScaled_of_spells hq, nodeScaled_of_spells hq, if_neg hadmits, if_neg hadmits]
      exact ⟨rfl, _, rfl⟩
    · have hnot := not_exists.mp hspells
      exact ⟨pyScaled_of_not_spells hnot kind, _, nodeScaled_of_not_spells hnot kind⟩

/-! ## Coordinates -/

/-- A bound whose shortest decimal is itself bounds the decimals of the floats it bounds. -/
theorem Finite64.toDecimal_magnitude_le_of_short {x : Finite64} {bound coeff : ℕ} {exp : ℤ}
    (hshort : shortestDecimal bound = (coeff, exp)) (hvalue : (coeff : ℚ) * 10 ^ exp = bound)
    (hbound : bound < 2 ^ 53) (h : x.abs ≤ bound) : x.toDecimal.magnitude ≤ bound := by
  rcases h.lt_or_eq with hlt | heq
  · exact x.toDecimal_magnitude_le hbound hlt
  · show (((shortestDecimal x.abs).1 : ℕ) : ℚ) * 10 ^ (shortestDecimal x.abs).2 ≤ bound
    rw [heq, hshort, hvalue]

/-- The decimal of a coordinate of the range is of the range. -/
theorem admits_toDecimal {kind : ScaleKind} (hkind : kind ≠ .angle) {x : Finite64}
    (hx : kind.low ≤ x.value ∧ x.value ≤ kind.high) : kind.Admits x.toDecimal.value := by
  refine ⟨?_, fun hangle => absurd hangle hkind⟩
  rcases kind with _ | _ | _
  · have habs : x.abs ≤ (90 : ℕ) := by
      rw [← x.abs_value]
      exact_mod_cast abs_le.mpr hx
    have hshort : shortestDecimal (90 : ℕ) = (9, 1) := by decide +kernel
    have hmagnitude := x.toDecimal_magnitude_le_of_short hshort (by norm_num) (by norm_num) habs
    rw [← PyDecimal.abs_value] at hmagnitude
    exact_mod_cast abs_le.mp hmagnitude
  · have habs : x.abs ≤ (180 : ℕ) := by
      rw [← x.abs_value]
      exact_mod_cast abs_le.mpr hx
    have hshort : shortestDecimal (180 : ℕ) = (18, 1) := by decide +kernel
    have hmagnitude := x.toDecimal_magnitude_le_of_short hshort (by norm_num) (by norm_num) habs
    rw [← PyDecimal.abs_value] at hmagnitude
    exact_mod_cast abs_le.mp hmagnitude
  · exact absurd rfl hkind

/-- Only the upper end of the longitudes leaves the order of the integers. -/
theorem ScaleKind.seam_mono {kind : ScaleKind} {m n : ℤ} (h : m ≤ n) (hn : n ≠ 1800000000) :
    kind.seam m ≤ kind.seam n := by
  unfold seam
  split_ifs <;> omega

/-- **A coordinate is projected by the same rounding.** For every float of the range `coordinate`
    returns its shortest decimal, rounded half to even at seven places, with the seam of the
    longitudes closed. `scaled` gives the same for each text of that decimal, and the order of the
    coordinates is kept, but at the seam. -/
theorem coordinate_exact {kind : ScaleKind} (hkind : kind ≠ .angle) {x : Finite64}
    (hx : kind.low ≤ x.value ∧ x.value ≤ kind.high) :
    coordinate (.finite x) kind =
        .ok (kind.seam (roundHalfEven (x.toDecimal.value * 10 ^ 7))) ∧
      (∀ text, Spells text x.toDecimal.value → pyScaled text kind = coordinate (.finite x) kind) ∧
      ∀ y : Finite64, kind.low ≤ y.value → y.value ≤ kind.high → x.value ≤ y.value →
        roundHalfEven (y.toDecimal.value * 10 ^ 7) ≠ 1800000000 →
        ∃ m n, coordinate (.finite x) kind = .ok m ∧ coordinate (.finite y) kind = .ok n ∧
          m ≤ n := by
  have habs {z : Finite64} (hz : kind.low ≤ z.value ∧ z.value ≤ kind.high) : z.abs < 181 := by
    rw [← z.abs_value, abs_lt]
    cases kind <;> simp only [ScaleKind.low, ScaleKind.high, ne_eq, not_true] at hz hkind <;>
      constructor <;> linarith
  have hplaces : kind.places = 7 := by cases kind <;> first | rfl | exact absurd rfl hkind
  have hcoordinate := @coordinate_finite x kind (habs hx)
  refine ⟨hcoordinate, ?_, ?_⟩
  · intro text htext
    rw [pyScaled_of_spells htext, if_pos (admits_toDecimal hkind hx), hcoordinate,
      ScaleKind.reduce, if_neg hkind, hplaces]
    rfl
  · intro y hlow hhigh hle hseam
    refine ⟨_, _, hcoordinate, coordinate_finite (habs ⟨hlow, hhigh⟩),
      ScaleKind.seam_mono ?_ hseam⟩
    have hmono := Finite64.toDecimal_value_mono hle
    apply roundHalfEven_mono
    gcongr

/-- The upper end of the longitudes. -/
def eastEnd : Finite64 :=
  ⟨false, 45 * 2 ^ 47, -45, by norm_num, by norm_num, by norm_num, .inl (by norm_num)⟩

theorem eastEnd_value : eastEnd.value = 180 := by
  show ((45 * 2 ^ 47 : ℕ) : ℚ) * 2 ^ (-45 : ℤ) = 180
  norm_num

theorem coordinate_exact_eastEnd :
    ScaleKind.longitude ≠ .angle ∧ ScaleKind.longitude.low ≤ eastEnd.value ∧
      eastEnd.value ≤ ScaleKind.longitude.high ∧
      coordinate (.finite eastEnd) .longitude = .ok (-1800000000) := by
  have hkind : ScaleKind.longitude ≠ .angle := by decide
  have hrange : ScaleKind.longitude.low ≤ eastEnd.value ∧
      eastEnd.value ≤ ScaleKind.longitude.high := by
    rw [eastEnd_value]
    norm_num [ScaleKind.low, ScaleKind.high]
  refine ⟨hkind, hrange.1, hrange.2, (coordinate_exact hkind hrange).1.trans ?_⟩
  have hdecimal : eastEnd.toDecimal = ⟨false, 18, 1⟩ := by decide +kernel
  have hvalue : eastEnd.toDecimal.value * 10 ^ 7 = (1800000000 : ℤ) := by
    rw [hdecimal]
    norm_num [PyDecimal.value, PyDecimal.magnitude]
  rw [hvalue, roundHalfEven_intCast]
  rfl

end AstroPassport
