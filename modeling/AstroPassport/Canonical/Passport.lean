import AstroPassport.Canonical.CanonicalForm
import AstroPassport.Contracts.Wire

set_option autoImplicit false

/-! # The content of a passport

`scaled`, `timestamp` and `passport_content` of `app/canonical.py`. A valid response has a content,
its instant and four integers, which is all that the bytes are made of (`passportContent_of_valid`),
and the bytes give it back (`PassportContent.bytes_injective`). The response is dumped and validated
again first, through the response model; the text between the two is not part of the model.

Each projection has its own section: coordinates are rounded half-even to seven places with the seam
at 180 degrees folded to one side, the longitudes of the bodies are read from the nine-place
decimals that the model has already checked, and the instant is parsed back from the text that the
response carries. All strings of the content are ASCII, so that normal form C leaves them alone
(`AsciiNfc`). Two responses then have the same bytes exactly when they agree in these five numbers,
up to the meridian that has two names (`SameMeridian`, `passportContent_exact`). -/

namespace AstroPassport

/-- Form C leaves ASCII as it is. -/
structure AsciiNfc extends Nfc where
  ascii : ∀ s, (∀ c ∈ s, c.toNat < 128) → normalize s = s

/-- So does the part of it that composes vowels with an acute accent. -/
def AsciiNfc.acute : AsciiNfc := ⟨.acute, fun _ h => composeAcute_ascii h⟩

/-! ## Fixed point -/

/-- The keys of the table in `scaled`. -/
inductive ScaleKind where
  | latitude
  | longitude
  | angle
  deriving DecidableEq, Repr

namespace ScaleKind

/-- The decimal places of `scaled` for a kind. -/
def places : ScaleKind → ℕ
  | .latitude => 7
  | .longitude => 7
  | .angle => 9

/-- The least value of a kind. -/
def low : ScaleKind → ℚ
  | .latitude => -90
  | .longitude => -180
  | .angle => 0

/-- The greatest value of a kind; `360` itself is no angle. -/
def high : ScaleKind → ℚ
  | .latitude => 90
  | .longitude => 180
  | .angle => 360

/-- The two ends of the longitudes are one meridian. -/
def seam (kind : ScaleKind) (n : ℤ) : ℤ :=
  if kind = .longitude ∧ n = 1800000000 then -1800000000 else n

end ScaleKind

/-- `-?[0-9]{1,3}(?:\.[0-9]{1,18})?`. -/
def boundedDecimal (text : List Char) : Option PyDecimal :=
  match readDecimal text with
  | some parts =>
    if parts.2.1.length ≤ 3 ∧ parts.2.2.length ≤ 18 then some (.ofParts parts) else none
  | none => none

/-- `scaled`. -/
def scaled (text : List Char) (kind : ScaleKind) : Checked ℤ := do
  let number ← Checked.ofOption (boundedDecimal text)
  Checked.require (decide (kind.low ≤ number.value ∧ number.value ≤ kind.high) &&
    !(kind == .angle && decide (number.value = 360)))
  let rounded ← Checked.ofDecimal ((number.mulPowTenIn 40 kind.places).quantizeIn 40 0)
  let value := if kind = .angle then rounded.toInt % 360000000000 else rounded.toInt
  pure (kind.seam value)

/-- `coordinate` in `passport_content`; an infinity cannot be quantized, and NaN is no integer. -/
def coordinate (number : Binary64) (kind : ScaleKind) : Checked ℤ :=
  match number with
  | .finite x => do
    let rounded ← Checked.ofDecimal ((x.toDecimal.mulPowTenIn 40 7).quantizeIn 40 0)
    pure (kind.seam rounded.toInt)
  | .inf _ => .escaped .invalidOperation
  | .nan => .valueError

/-! ## Timestamps -/

/-- `[0-9]{4}-[0-9]{2}-[0-9]{2}T[0-9]{2}:[0-9]{2}:[0-9]{2}(?:\.[0-9]{1,6})?Z`: the clock has
    seconds. -/
def isTimestampText (cs : List Char) : Bool :=
  match splitUtc cs with
  | some (_, clock) => decide (8 ≤ clock.length) && isClockText clock
  | none => false

/-- `timestamp`. -/
def timestamp (text : List Char) : Checked (List Char) := do
  Checked.require (isTimestampText text)
  let result ← Checked.ofOption (utcFromIso text)
  Checked.require (supportedUtc result)
  pure (isoUtc result)

/-! ## The content -/

/-- `PROFILE`. -/
def contentProfile : String := "apt.sun-moon-content.v1-proposed"

/-- The entries of `content` that are not fixed. -/
structure PassportContent where
  utc : List Char
  latitudeE7 : ℤ
  longitudeE7 : ℤ
  sunE9 : ℤ
  moonE9 : ℤ

/-- One of the `bodies`. -/
def bodyValue (body : String) (longitudeE9 : ℤ) : PyValue :=
  .dict [(pyKey "body", pyStr body.toList), (pyKey "longitude_e9", .int longitudeE9)]

/-- `content`. -/
def PassportContent.members (c : PassportContent) : List (PyKey × PyValue) :=
  [(pyKey "schema", pyStr "APTCanonicalSunMoonContent.v1-proposed".toList),
    (pyKey "profile", pyStr "sun-moon.v1".toList),
    (pyKey "numerical_policy", pyStr "binary64-to-decimal-9dp-half-even.v1".toList),
    (pyKey "utc", pyStr c.utc),
    (pyKey "latitude_e7", .int c.latitudeE7),
    (pyKey "longitude_e7", .int c.longitudeE7),
    (pyKey "frame", pyStr "geocentric-tropical-apparent-ecliptic-of-date".toList),
    (pyKey "bodies", .list [bodyValue "sun" c.sunE9, bodyValue "moon" c.moonE9])]

/-- The argument of `canonical` in `passport_content`. -/
def PassportContent.value (c : PassportContent) : PyValue :=
  .list [pyStr "ACEP1".toList, pyStr contentProfile.toList, .dict c.members]

/-- The exceptions of `canonical` are `ValueError`s. -/
def Checked.ofCanonical {α : Type} : Canonical α → Checked α
  | .ok a => .ok a
  | .error _ => .valueError

/-- `passport_content`. -/
def passportContent (nfc : Nfc) (value : AstroPassportResponseV1) : Checked ByteArray := do
  let checked ← AstroPassportResponseV1.model.decode (AstroPassportResponseV1.model.encode value)
  let utc ← timestamp checked.civil.utc.toList
  let latitudeE7 ← coordinate checked.selectedPlace.latitude .latitude
  let longitudeE7 ← coordinate checked.selectedPlace.longitude .longitude
  let sunE9 ← scaled checked.bodies.1.decimalDegrees.toList .angle
  let moonE9 ← scaled checked.bodies.2.decimalDegrees.toList .angle
  Checked.ofCanonical (canonical nfc
    (PassportContent.value ⟨utc, latitudeE7, longitudeE7, sunE9, moonE9⟩))

/-! ## Coordinates -/

/-- The shortest decimal of a binary64, rounded half to even at seven places. -/
def Finite64.e7 (x : Finite64) : ℤ := roundHalfEven (x.toDecimal.value * 10 ^ 7)

/-- `e7` of a finite coordinate. -/
def Binary64.e7 : Binary64 → ℤ
  | .finite x => x.e7
  | _ => 0

/-- The scaled decimal of a coordinate has at most 25 digits, which no context of 40 rounds. -/
theorem coordinate_finite {x : Finite64} {kind : ScaleKind} (h : x.abs < 181) :
    coordinate (.finite x) kind = .ok (kind.seam x.e7) := by
  have hcoeff : x.toDecimal.coeff * 10 ^ 7 < 10 ^ 40 := by
    have := x.toDecimal_coeff_le
    omega
  have hmagnitude : x.toDecimal.magnitude ≤ (181 : ℕ) :=
    x.toDecimal_magnitude_le (by norm_num) (by exact_mod_cast h)
  obtain ⟨r, hquantize, hr⟩ := PyDecimal.quantizeIn_mulPowTenIn hcoeff hmagnitude (by norm_num)
  rw [coordinate, hquantize, Finite64.e7, ← hr]
  rfl

theorem abs_e7_le {x : Finite64} (h : x.abs < 181) : |x.e7| ≤ 1810000000 := by
  have hmagnitude : x.toDecimal.magnitude ≤ (181 : ℕ) :=
    x.toDecimal_magnitude_le (by norm_num) (by exact_mod_cast h)
  rw [← PyDecimal.abs_value, abs_le] at hmagnitude
  push_cast at hmagnitude
  unfold Finite64.e7
  rw [abs_le]
  constructor
  · apply le_roundHalfEven
    push_cast
    linarith
  · apply roundHalfEven_le
    push_cast
    linarith

theorem ScaleKind.abs_seam_le {kind : ScaleKind} {n : ℤ} (h : |n| ≤ 1810000000) :
    |kind.seam n| ≤ 1810000000 := by
  unfold seam
  split
  · norm_num
  · exact h

/-! ## Scaling -/

/-- The numbers `scaled` takes. -/
def ScaleKind.Admits (kind : ScaleKind) (q : ℚ) : Prop :=
  (kind.low ≤ q ∧ q ≤ kind.high) ∧ (kind = .angle → q ≠ 360)

instance (kind : ScaleKind) (q : ℚ) : Decidable (kind.Admits q) :=
  inferInstanceAs (Decidable (_ ∧ _))

/-- The wrap of the angles and the seam of the longitudes, after the rounding. -/
def ScaleKind.reduce (kind : ScaleKind) (n : ℤ) : ℤ :=
  kind.seam (if kind = .angle then n % 360000000000 else n)

theorem boundedDecimal_eq_some {text : List Char} {d : PyDecimal} :
    boundedDecimal text = some d ↔ ∃ neg int fraction, text = decimalText neg int fraction ∧
      (1 ≤ int.length ∧ int.length ≤ 3) ∧ fraction.length ≤ 18 ∧ (∀ e ∈ int, e < 10) ∧
      (∀ e ∈ fraction, e < 10) ∧ d = .ofParts (neg, int, fraction) := by
  constructor
  · intro h
    unfold boundedDecimal at h
    split at h
    · next parts hread =>
        obtain ⟨neg, int, fraction⟩ := parts
        obtain ⟨htext, hne, hlt, hlt'⟩ := readDecimal_eq_some.1 hread
        split at h
        · next hlengths =>
            cases h
            exact ⟨neg, int, fraction, htext, ⟨List.length_pos_iff.mpr hne, hlengths.1⟩,
              hlengths.2, hlt, hlt', rfl⟩
        · cases h
    · cases h
  · rintro ⟨neg, int, fraction, htext, ⟨hpos, hint⟩, hfraction, hlt, hlt', rfl⟩
    have hread := readDecimal_eq_some.2 ⟨htext, List.length_pos_iff.mp hpos, hlt, hlt'⟩
    simp only [boundedDecimal, hread, hint, hfraction, and_self, if_true]

/-- A bounded decimal has at most 21 digits. -/
theorem coeff_lt_of_boundedDecimal {text : List Char} {d : PyDecimal}
    (h : boundedDecimal text = some d) : d.coeff < 10 ^ 21 := by
  obtain ⟨neg, int, fraction, -, hint, hfraction, hlt, hlt', rfl⟩ := boundedDecimal_eq_some.1 h
  show fromDigits (int ++ fraction) < 10 ^ 21
  have hdigits : ∀ e ∈ int ++ fraction, e < 10 := List.forall_mem_append.mpr ⟨hlt, hlt'⟩
  refine (fromDigits_lt hdigits).trans_le (Nat.pow_le_pow_right (by norm_num) ?_)
  rw [List.length_append]
  omega

theorem ScaleKind.Admits.magnitude_le {kind : ScaleKind} {d : PyDecimal} (h : kind.Admits d.value) :
    d.magnitude ≤ (360 : ℕ) := by
  obtain ⟨⟨hlow, hhigh⟩, -⟩ := h
  rw [← PyDecimal.abs_value, abs_le]
  cases kind <;> simp only [ScaleKind.low, ScaleKind.high] at hlow hhigh <;>
    constructor <;> push_cast <;> linarith

/-- `scaled` is one exact rounding: at most 30 digits are multiplied out, which no context of 40
    rounds. -/
theorem scaled_of_bounded {text : List Char} {d : PyDecimal} {kind : ScaleKind}
    (hread : boundedDecimal text = some d) (h : kind.Admits d.value) :
    scaled text kind = .ok (kind.reduce (roundHalfEven (d.value * 10 ^ kind.places))) := by
  have hplaces : kind.places ≤ 9 := by cases kind <;> decide
  have hpow : 10 ^ kind.places ≤ 10 ^ 9 := Nat.pow_le_pow_right (by norm_num) hplaces
  have hcoeff : d.coeff * 10 ^ kind.places < 10 ^ 40 :=
    calc d.coeff * 10 ^ kind.places
        ≤ 10 ^ 21 * 10 ^ 9 := Nat.mul_le_mul (coeff_lt_of_boundedDecimal hread).le hpow
      _ < 10 ^ 40 := by norm_num
  have hbound : 360 * 10 ^ kind.places < 10 ^ 40 := by
    calc 360 * 10 ^ kind.places ≤ 360 * 10 ^ 9 := Nat.mul_le_mul_left _ hpow
      _ < 10 ^ 40 := by norm_num
  obtain ⟨r, hquantize, hr⟩ := PyDecimal.quantizeIn_mulPowTenIn hcoeff h.magnitude_le hbound
  have hrange : (decide (kind.low ≤ d.value ∧ d.value ≤ kind.high) &&
      !(kind == .angle && decide (d.value = 360))) = true := by
    rw [Bool.and_eq_true, decide_eq_true_eq, Bool.not_eq_true', Bool.and_eq_false_imp,
      decide_eq_false_iff_not, beq_iff_eq]
    exact h
  rw [scaled, hread]
  simp only [Checked.ofOption, Checked.ok_bind]
  rw [hrange, hquantize, ScaleKind.reduce, ← hr]
  rfl

theorem scaled_of_not_admits {text : List Char} {d : PyDecimal} {kind : ScaleKind}
    (hread : boundedDecimal text = some d) (h : ¬ kind.Admits d.value) :
    scaled text kind = .valueError := by
  have hrange : (decide (kind.low ≤ d.value ∧ d.value ≤ kind.high) &&
      !(kind == .angle && decide (d.value = 360))) = false := by
    rw [Bool.eq_false_iff]
    intro heq
    rw [Bool.and_eq_true, decide_eq_true_eq, Bool.not_eq_true', Bool.and_eq_false_imp,
      decide_eq_false_iff_not, beq_iff_eq] at heq
    exact h heq
  rw [scaled, hread]
  simp only [Checked.ofOption, Checked.ok_bind]
  rw [hrange]
  rfl

theorem scaled_of_not_bounded {text : List Char} {kind : ScaleKind}
    (hread : boundedDecimal text = none) : scaled text kind = .valueError := by
  rw [scaled, hread]
  rfl

/-! ## Longitudes of the bodies -/

/-- The digits of a text of the wire pattern. -/
theorem readDecimal_degrees {text : List Char} (h : isDegreesText text = true) :
    ∃ int fraction, readDecimal text = some (false, int, fraction) ∧ isDegrees int = true ∧
      fraction.length = 9 := by
  unfold isDegreesText at h
  split at h
  · next neg int fraction hread =>
      simp only [Bool.and_eq_true, Bool.not_eq_true', beq_iff_eq] at h
      obtain ⟨⟨rfl, hint⟩, hlength⟩ := h
      exact ⟨int, fraction, hread, hint, hlength⟩
  · cases h

/-- The integer digits of the pattern are a numeral below 360. -/
theorem isDegrees_spec {int : List ℕ} (h : isDegrees int = true) (hlt : ∀ d ∈ int, d < 10) :
    int.length ≤ 3 ∧ fromDigits int < 360 ∧ numeralDigits (fromDigits int) = int := by
  match int, h with
  | [a], _ =>
    have ha := hlt a (by simp)
    refine ⟨by simp, ?_, numeralDigits_fromDigits hlt (.inr rfl)⟩
    simp [fromDigits]
    omega
  | [a, b], h =>
    have ha := hlt a (by simp)
    have hb := hlt b (by simp)
    have hlead : 1 ≤ a := of_decide_eq_true h
    refine ⟨by simp, ?_, numeralDigits_fromDigits hlt (.inl (by omega))⟩
    simp [fromDigits, Nat.ofDigits]
    omega
  | [a, b, c], h =>
    have hb := hlt b (by simp)
    have hc := hlt c (by simp)
    have hlead : a = 1 ∨ a = 2 ∨ a = 3 ∧ b ≤ 5 := by simpa [isDegrees, or_assoc] using h
    refine ⟨by simp, ?_, numeralDigits_fromDigits hlt (.inl (by omega))⟩
    simp [fromDigits, Nat.ofDigits]
    omega

/-- An angle with nine places is scaled to the number of its billionths. -/
theorem scaled_angle {text : List Char} {d : PyDecimal} {n : ℕ}
    (hread : boundedDecimal text = some d) (hvalue : d.value * 10 ^ 9 = (n : ℤ))
    (hn : n < 360 * 10 ^ 9) : scaled text .angle = .ok n := by
  have hcast : ((n : ℤ) : ℚ) < 360 * 10 ^ 9 := by exact_mod_cast hn
  have hnonneg : (0 : ℚ) ≤ (n : ℤ) := by exact_mod_cast Nat.zero_le n
  have hhigh : d.value < 360 := by linarith
  have hadmits : ScaleKind.angle.Admits d.value :=
    ⟨⟨show (0 : ℚ) ≤ d.value by linarith, hhigh.le⟩, fun _ => hhigh.ne⟩
  have hmod : (n : ℤ) % 360000000000 = n := Int.emod_eq_of_lt (by omega) (by omega)
  rw [scaled_of_bounded hread hadmits, ScaleKind.places, hvalue, roundHalfEven_intCast]
  show Checked.ok (ScaleKind.angle.seam ((n : ℤ) % 360000000000)) = _
  rw [hmod]
  rfl

/-- `scaled` reads a text of the wire pattern exactly, and what it gives has no other text. -/
theorem scaled_degrees {text : List Char} (h : isDegreesText text = true) :
    ∃ n : ℕ, scaled text .angle = .ok n ∧ n < 360 * 10 ^ 9 ∧
      text = numeral (n / 10 ^ 9) ++ '.' :: padded 9 (n % 10 ^ 9) := by
  obtain ⟨int, fraction, hread, hint, hlength⟩ := readDecimal_degrees h
  have hne : fraction ≠ [] := by
    rintro rfl
    cases hlength
  obtain ⟨htext, -, hlt, hlt'⟩ := readDecimal_eq_some.1 hread
  obtain ⟨hshort, hdegrees, hnumeral⟩ := isDegrees_spec hint hlt
  have hfraction := fromDigits_lt hlt'
  rw [hlength] at hfraction
  -- nine fraction digits: the scaled number is the number of all the digits
  have hdigits : fromDigits (int ++ fraction) = fromDigits int * 10 ^ 9 + fromDigits fraction := by
    rw [fromDigits_append, hlength]
  refine ⟨fromDigits (int ++ fraction), ?_, by omega, ?_⟩
  · have hbounded : boundedDecimal text = some (.ofParts (false, int, fraction)) := by
      simp only [boundedDecimal, hread, hshort, hlength]
      rfl
    apply scaled_angle hbounded
    · show (fromDigits (int ++ fraction) : ℚ) * 10 ^ (-(fraction.length : ℤ)) * 10 ^ 9 = _
      rw [hlength, zpow_neg, zpow_natCast, inv_mul_cancel_right₀ (by norm_num)]
      rfl
    · omega
  · obtain ⟨ds, hds, hdslength, hdslt, hdsvalue⟩ :=
      exists_digits_padded 9 (fromDigits (int ++ fraction) % 10 ^ 9)
    have hquotient : fromDigits (int ++ fraction) / 10 ^ 9 = fromDigits int := by omega
    have hremainder : fromDigits (int ++ fraction) % 10 ^ 9 = fromDigits fraction := by omega
    have hsame : ds = fraction := by
      apply fromDigits_inj (by rw [hdslength, hlength]) hdslt hlt'
      rw [hdsvalue, hremainder, Nat.mod_eq_of_lt hfraction]
    rw [hquotient, numeral, hnumeral, hds, hsame, htext, decimalText, unsignedText, if_neg hne]
    rfl

/-! ## The instant -/

/-- A text of the wire pattern is its own timestamp. -/
theorem timestamp_utcText {text : List Char} {utc : NaiveDateTime} (htext : isUtcText text = true)
    (hread : utcFromIso text = some utc) (hsupported : supportedUtc utc = true) :
    timestamp text = .ok (isoUtc utc) := by
  have hpattern : isTimestampText text = true := by
    rcases hsplit : splitUtc text with _ | ⟨date, clock⟩
    · simp only [isUtcText, hsplit] at htext
      cases htext
    · simp only [isUtcText, hsplit, Bool.and_eq_true, decide_eq_true_eq] at htext
      have hlong : 8 ≤ clock.length := by omega
      simp only [isTimestampText, hsplit, htext.2, hlong]
      rfl
  rw [timestamp, hpattern, hread]
  refine Checked.bind_eq_ok.2 ⟨(), rfl, Checked.bind_eq_ok.2 ⟨utc, rfl, ?_⟩⟩
  rw [hsupported]
  exact Checked.bind_eq_ok.2 ⟨(), rfl, rfl⟩

/-- A text of ASCII characters. -/
def IsAscii (s : List Char) : Prop := ∀ c ∈ s, c.toNat < 128

instance (s : List Char) : Decidable (IsAscii s) :=
  decidable_of_iff (s.all (fun c => decide (c.toNat < 128)) = true) (by simp [IsAscii])

theorem isAscii_append {s t : List Char} : IsAscii (s ++ t) ↔ IsAscii s ∧ IsAscii t :=
  List.forall_mem_append

theorem isAscii_cons {c : Char} {s : List Char} : IsAscii (c :: s) ↔ c.toNat < 128 ∧ IsAscii s :=
  List.forall_mem_cons

theorem isAscii_padded (w n : ℕ) : IsAscii (padded w n) := by
  obtain ⟨ds, hds, -, hlt, -⟩ := exists_digits_padded w n
  have hdigit : ∀ d < 10, (Nat.digitChar d).toNat < 128 := by decide
  rw [hds]
  intro c hc
  obtain ⟨d, hd, rfl⟩ := List.mem_map.mp hc
  exact hdigit d (hlt d hd)

theorem isAscii_isoUtc (utc : NaiveDateTime) : IsAscii (isoUtc utc) := by
  simp only [isoUtc, isoDate, isoTime, isAscii_append, isAscii_cons, isAscii_padded, true_and,
    and_true]
  decide

/-! ## The bytes determine the content -/

/-- An item of `content["bodies"]`, its members in the order of the printer. -/
def bodyPlain (body : String) (longitudeE9 : ℤ) : PlainJson :=
  .obj (sortByKey utf16beKey
    [("body".toList, .str body.toList), ("longitude_e9".toList, .int longitudeE9)])

/-- What the members of a content are normalized to. -/
def PassportContent.plainMembers (c : PassportContent) : List (List Char × PlainJson) :=
  [("schema".toList, .str "APTCanonicalSunMoonContent.v1-proposed".toList),
    ("profile".toList, .str "sun-moon.v1".toList),
    ("numerical_policy".toList, .str "binary64-to-decimal-9dp-half-even.v1".toList),
    ("utc".toList, .str c.utc),
    ("latitude_e7".toList, .int c.latitudeE7),
    ("longitude_e7".toList, .int c.longitudeE7),
    ("frame".toList, .str "geocentric-tropical-apparent-ecliptic-of-date".toList),
    ("bodies".toList, .arr [bodyPlain "sun" c.sunE9, bodyPlain "moon" c.moonE9])]

/-- The document of `passport_content`, its members in the order of the printer. -/
def PassportContent.plain (c : PassportContent) : PlainJson :=
  .arr [.str "ACEP1".toList, .str contentProfile.toList,
    .obj (sortByKey utf16beKey c.plainMembers)]

section Normalize

variable {nfc : AsciiNfc}

theorem normalizeStr_ascii {s : List Char} (h : IsAscii s) :
    normalizeStr nfc.toNfc (s.map scalar) = .ok s :=
  normalizeStr_eq_ok.2 ⟨s, scalars?_map_scalar s, nfc.ascii s h⟩

theorem normalize_pyStr {s : List Char} (h : IsAscii s) :
    normalize nfc.toNfc (pyStr s) = .ok (.str s) :=
  normalize_eq_str.2 ⟨_, rfl, normalizeStr_ascii h⟩

theorem normalize_pyInt {n : ℤ} (h : |n| ≤ maxSafeInteger) :
    normalize nfc.toNfc (.int n) = .ok (.int n) := by
  rw [normalize]
  exact normalizeInt_eq_ok.2 ⟨h, rfl⟩

theorem memberNormal_pyKey {key : String} {v : PyValue} {n : PlainJson} (hkey : IsAscii key.toList)
    (hv : normalize nfc.toNfc v = .ok n) : MemberNormal nfc.toNfc (pyKey key, v) (key.toList, n) :=
  ⟨normalizeKey_eq_ok.2 ⟨_, rfl, normalizeStr_ascii hkey⟩, hv⟩

theorem normalize_bodyValue {body : String} {longitudeE9 : ℤ} (hbody : IsAscii body.toList)
    (h : |longitudeE9| ≤ maxSafeInteger) :
    normalize nfc.toNfc (bodyValue body longitudeE9) = .ok (bodyPlain body longitudeE9) := by
  refine normalize_dict_eq_ok.2 ⟨_, ?_, ?_, rfl⟩
  · exact .cons (memberNormal_pyKey (by decide) (normalize_pyStr hbody))
      (.cons (memberNormal_pyKey (by decide) (normalize_pyInt h)) .nil)
  · show ["body".toList, "longitude_e9".toList].Nodup
    decide

theorem PassportContent.nodup_plainMembers (c : PassportContent) :
    (c.plainMembers.map Prod.fst).Nodup := by
  show (["schema", "profile", "numerical_policy", "utc", "latitude_e7", "longitude_e7", "frame",
    "bodies"].map String.toList).Nodup
  decide

/-- A content that `canonical` writes. -/
structure PassportContent.Encodable (c : PassportContent) : Prop where
  utc : IsAscii c.utc
  latitudeE7 : |c.latitudeE7| ≤ maxSafeInteger
  longitudeE7 : |c.longitudeE7| ≤ maxSafeInteger
  sunE9 : |c.sunE9| ≤ maxSafeInteger
  moonE9 : |c.moonE9| ≤ maxSafeInteger

theorem PassportContent.Encodable.normalize_value {c : PassportContent} (h : c.Encodable) :
    normalize nfc.toNfc c.value = .ok c.plain := by
  have hsun := @normalize_bodyValue nfc "sun" _ (by decide) h.sunE9
  have hmoon := @normalize_bodyValue nfc "moon" _ (by decide) h.moonE9
  have hbodies := normalize_list_eq_ok.2 ⟨_, .cons hsun (.cons hmoon .nil), rfl⟩
  refine normalize_list_eq_ok.2 ⟨_, .cons (normalize_pyStr (by decide))
    (.cons (normalize_pyStr (by decide)) (.cons ?_ .nil)), rfl⟩
  refine normalize_dict_eq_ok.2 ⟨_, ?_, c.nodup_plainMembers, rfl⟩
  refine .cons (memberNormal_pyKey (by decide) (normalize_pyStr (by decide))) <|
    .cons (memberNormal_pyKey (by decide) (normalize_pyStr (by decide))) <|
    .cons (memberNormal_pyKey (by decide) (normalize_pyStr (by decide))) <|
    .cons (memberNormal_pyKey (by decide) (normalize_pyStr h.utc)) <|
    .cons (memberNormal_pyKey (by decide) (normalize_pyInt h.latitudeE7)) <|
    .cons (memberNormal_pyKey (by decide) (normalize_pyInt h.longitudeE7)) <|
    .cons (memberNormal_pyKey (by decide) (normalize_pyStr (by decide))) <|
    .cons (memberNormal_pyKey (by decide) hbodies) .nil

end Normalize

theorem bodyPlain_injective {body : String} {m n : ℤ} (h : bodyPlain body m = bodyPlain body n) :
    m = n := by
  have hkeys (k : ℤ) : ([("body".toList, PlainJson.str body.toList),
      ("longitude_e9".toList, .int k)].map Prod.fst).Nodup := by
    show ["body".toList, "longitude_e9".toList].Nodup
    decide
  have hperm := (sortByKey_eq_iff_perm (hkeys m)).mp (PlainJson.obj.inj h)
  have heq := value_eq_of_perm (k := "longitude_e9".toList) hperm (hkeys n)
    (.tail _ (.head _)) (.tail _ (.head _))
  exact PlainJson.int.inj heq

theorem PassportContent.plain_injective : Function.Injective PassportContent.plain := by
  rintro c d h
  have hobj := (List.cons.inj (List.cons.inj (List.cons.inj (PlainJson.arr.inj h)).2).2).1
  have hperm := (sortByKey_eq_iff_perm c.nodup_plainMembers).mp (PlainJson.obj.inj hobj)
  -- sorted by name, two permutations have the same value under each name
  have hvalue {k : List Char} {v w : PlainJson} (hv : (k, v) ∈ c.plainMembers)
      (hw : (k, w) ∈ d.plainMembers) : v = w :=
    value_eq_of_perm hperm d.nodup_plainMembers hv hw
  have hutc := @hvalue "utc".toList (.str c.utc) (.str d.utc) (by simp [plainMembers])
    (by simp [plainMembers])
  have hlatitude := @hvalue "latitude_e7".toList (.int c.latitudeE7) (.int d.latitudeE7)
    (by simp [plainMembers]) (by simp [plainMembers])
  have hlongitude := @hvalue "longitude_e7".toList (.int c.longitudeE7) (.int d.longitudeE7)
    (by simp [plainMembers]) (by simp [plainMembers])
  have hbodies := PlainJson.arr.inj <| @hvalue "bodies".toList
    (.arr [bodyPlain "sun" c.sunE9, bodyPlain "moon" c.moonE9])
    (.arr [bodyPlain "sun" d.sunE9, bodyPlain "moon" d.moonE9])
    (by simp [plainMembers]) (by simp [plainMembers])
  obtain ⟨hsun, hrest⟩ := List.cons.inj hbodies
  have hmoon := (List.cons.inj hrest).1
  cases c
  cases d
  simp only [PassportContent.mk.injEq]
  exact ⟨PlainJson.str.inj hutc, PlainJson.int.inj hlatitude, PlainJson.int.inj hlongitude,
    bodyPlain_injective hsun, bodyPlain_injective hmoon⟩

/-- The bytes of a content. -/
def PassportContent.bytes (c : PassportContent) : ByteArray := utf8 c.plain.print

theorem PassportContent.bytes_injective : Function.Injective PassportContent.bytes :=
  utf8_print_injective.comp PassportContent.plain_injective

theorem PassportContent.Encodable.canonical_value {nfc : AsciiNfc} {c : PassportContent}
    (h : c.Encodable) : canonical nfc.toNfc c.value = .ok c.bytes :=
  canonical_eq_ok.2 ⟨_, h.normalize_value, rfl⟩

/-! ## The content of a valid response -/

theorem SelectedPlace.finite_of_valid {p : SelectedPlace} (h : model.valid p = true) :
    (∃ x : Finite64, p.latitude = .finite x ∧ x.abs < 181) ∧
      ∃ x : Finite64, p.longitude = .finite x ∧ x.abs < 181 := by
  have hrange {y : Binary64} {bound : ℚ} (hbound : bound < 181)
      (hy : y.inRange (-bound) bound = true) : ∃ x : Finite64, y = .finite x ∧ x.abs < 181 := by
    cases y with
    | finite x =>
        have hx : -bound ≤ x.value ∧ x.value ≤ bound := of_decide_eq_true hy
        refine ⟨x, rfl, ?_⟩
        rw [← x.abs_value]
        exact (abs_le.mpr hx).trans_lt hbound
    | inf _ => cases hy
    | nan => cases hy
  simp only [model, fields, Codec.after_valid, Codec.object_valid, Fields.literal_valid,
    Fields.field_valid, Codec.number_valid, Bool.and_eq_true] at h
  obtain ⟨⟨-, -, -, hlatitude, hlongitude, -⟩, -⟩ := h
  exact ⟨hrange (by norm_num) hlatitude, hrange (by norm_num) hlongitude⟩

/-- The instant of a valid response is a supported one: its local time is of the years 1900 to 2100,
    and its offset less than a day. -/
theorem AstroPassportResponseV1.supportedUtc_of_valid {v : AstroPassportResponseV1}
    (h : model.valid v = true) :
    ∃ utc, isUtcText v.civil.utc.toList = true ∧ utcFromIso v.civil.utc.toList = some utc ∧
      supportedUtc utc = true := by
  obtain ⟨-, hinput, -, hcivil, -, -, hcoherent⟩ := valid_iff.1 h
  simp only [CivilInput.model, Codec.after_valid, CivilInput.validClock, Checked.bind_eq_ok,
    Checked.ofOption_eq_ok, Checked.require_eq_ok, decide_eq_true_eq] at hinput
  obtain ⟨-, date, hdate, clock, hclock, hyear⟩ := hinput
  simp only [CivilFact.model, CivilFact.fields, Codec.after_valid, Codec.object_valid,
    Fields.literal_valid, Fields.field_valid, Codec.text_valid, Codec.integer_valid,
    Bool.and_eq_true, decide_eq_true_eq] at hcivil
  obtain ⟨⟨htext, hoffset, -⟩, -⟩ := hcivil
  simp only [coherent, Checked.bind_eq_ok, Checked.ofOption_eq_ok, Checked.orOverflow_eq_ok,
    Checked.require_eq_ok, decide_eq_true_eq] at hcoherent
  obtain ⟨civil, hlocal, utc, hutc, shifted, hsum, _, rfl, -⟩ := hcoherent
  simp only [civilFromIso, hdate, hclock, Option.bind_eq_bind, Option.bind_some,
    Option.some.injEq] at hlocal
  subst hlocal
  exact ⟨utc, htext, hutc, supportedUtc_of_local hsum hyear hoffset⟩

/-- It is one that `timestamp` takes. -/
theorem AstroPassportResponseV1.instant_of_valid {v : AstroPassportResponseV1}
    (h : model.valid v = true) :
    ∃ utc, utcFromIso v.civil.utc.toList = some utc ∧
      timestamp v.civil.utc.toList = .ok (isoUtc utc) := by
  obtain ⟨utc, htext, hutc, hsupported⟩ := supportedUtc_of_valid h
  exact ⟨utc, hutc, timestamp_utcText htext hutc hsupported⟩

theorem AstroPassportResponseV1.degreesTexts_of_valid {v : AstroPassportResponseV1}
    (h : model.valid v = true) : isDegreesText v.bodies.1.decimalDegrees.toList = true ∧
      isDegreesText v.bodies.2.decimalDegrees.toList = true := by
  obtain ⟨-, -, -, -, hbodies, -⟩ := valid_iff.1 h
  simp only [Longitude.model, Longitude.fields, Codec.after_valid, Codec.object_valid,
    Fields.literal_valid, Fields.field_valid, Codec.text_valid, Bool.and_eq_true] at hbodies
  obtain ⟨⟨⟨-, hsun, -⟩, -⟩, ⟨-, hmoon, -⟩, -⟩ := hbodies
  exact ⟨hsun, hmoon⟩

/-- The billionths of an angle are a safe integer. -/
theorem abs_billionths_le {n : ℕ} (h : n < 360 * 10 ^ 9) : |(n : ℤ)| ≤ maxSafeInteger := by
  rw [abs_of_nonneg (Int.natCast_nonneg _), maxSafeInteger]
  omega

/-- A valid response has the bytes of a content. -/
theorem passportContent_of_valid (nfc : AsciiNfc) {v : AstroPassportResponseV1}
    (h : AstroPassportResponseV1.model.valid v = true) :
    ∃ utc sunE9 moonE9, utcFromIso v.civil.utc.toList = some utc ∧
      scaled v.bodies.1.decimalDegrees.toList .angle = .ok sunE9 ∧
      scaled v.bodies.2.decimalDegrees.toList .angle = .ok moonE9 ∧
      PassportContent.Encodable ⟨isoUtc utc, v.selectedPlace.latitude.e7,
        ScaleKind.longitude.seam v.selectedPlace.longitude.e7, sunE9, moonE9⟩ ∧
      passportContent nfc.toNfc v = .ok (PassportContent.bytes ⟨isoUtc utc,
        v.selectedPlace.latitude.e7, ScaleKind.longitude.seam v.selectedPlace.longitude.e7,
        sunE9, moonE9⟩) := by
  obtain ⟨utc, hutc, htimestamp⟩ := AstroPassportResponseV1.instant_of_valid h
  obtain ⟨hsun, hmoon⟩ := AstroPassportResponseV1.degreesTexts_of_valid h
  obtain ⟨hplace, -⟩ := AstroPassportResponseV1.valid_iff.1 h
  obtain ⟨⟨x, hlatitude, hx⟩, y, hlongitude, hy⟩ := SelectedPlace.finite_of_valid hplace
  obtain ⟨sunE9, hsun, hsunlt, -⟩ := scaled_degrees hsun
  obtain ⟨moonE9, hmoon, hmoonlt, -⟩ := scaled_degrees hmoon
  -- every integer of the content is in the range of the canonical encoder
  have hencodable : PassportContent.Encodable ⟨isoUtc utc, x.e7, ScaleKind.longitude.seam y.e7,
      sunE9, moonE9⟩ :=
    ⟨isAscii_isoUtc utc, (abs_e7_le hx).trans (by decide),
      (ScaleKind.abs_seam_le (abs_e7_le hy)).trans (by decide),
      abs_billionths_le hsunlt, abs_billionths_le hmoonlt⟩
  have hlatitudeE7 := @coordinate_finite x .latitude hx
  have hlongitudeE7 := @coordinate_finite y .longitude hy
  refine ⟨utc, sunE9, moonE9, hutc, hsun, hmoon, ?_, ?_⟩
  · rw [hlatitude, hlongitude]
    exact hencodable
  rw [passportContent, AstroPassportResponseV1.model.decode_encode h, Checked.ok_bind, htimestamp,
    Checked.ok_bind, hlatitude, hlatitudeE7, Checked.ok_bind, hlongitude, hlongitudeE7,
    Checked.ok_bind, hsun, Checked.ok_bind, hmoon, Checked.ok_bind]
  exact congrArg Checked.ofCanonical hencodable.canonical_value

/-! ## Two responses -/

/-- A response that passes its model. -/
abbrev ValidResponse :=
  {v : AstroPassportResponseV1 // AstroPassportResponseV1.model.valid v = true}

/-- Longitudes of one meridian, in units of the seventh place: 180 is -180. -/
def SameMeridian (m n : ℤ) : Prop := m = n ∨ |m| = 1800000000 ∧ |n| = 1800000000

theorem seam_longitude_eq_iff {m n : ℤ} :
    ScaleKind.longitude.seam m = ScaleKind.longitude.seam n ↔ SameMeridian m n := by
  simp only [ScaleKind.seam, SameMeridian, true_and]
  rw [abs_eq (by norm_num), abs_eq (by norm_num)]
  split_ifs <;> omega

/-- Texts of longitudes are the same when they are scaled to the same number. -/
theorem scaled_eq_iff {s t : String} {m n : ℤ} (hs : isDegreesText s.toList = true)
    (ht : isDegreesText t.toList = true) (hm : scaled s.toList .angle = .ok m)
    (hn : scaled t.toList .angle = .ok n) : m = n ↔ s = t := by
  obtain ⟨k, hk, -, hstext⟩ := scaled_degrees hs
  obtain ⟨l, hl, -, httext⟩ := scaled_degrees ht
  rw [hk, Checked.ok.injEq] at hm
  rw [hl, Checked.ok.injEq] at hn
  subst hm hn
  constructor
  · intro heq
    rw [← String.toList_inj, hstext, httext, Int.natCast_inj.mp heq]
  · rintro rfl
    rw [hk, Checked.ok.injEq] at hl
    exact hl

theorem isoUtc_eq_iff {d e : NaiveDateTime} : isoUtc d = isoUtc e ↔ d.micros = e.micros := by
  constructor
  · intro h
    have hread := utcFromIso_isoUtc d
    rw [h, utcFromIso_isoUtc, Option.some.injEq] at hread
    rw [hread]
  · intro h
    rw [NaiveDateTime.micros_injective h]

/-- **The bytes of a passport are its content.** A valid response has bytes, and two have the same
    bytes exactly when they agree on the instant, on the coordinates at seven places and on the
    decimals of the two longitudes, whatever else they hold. -/
theorem passportContent_exact (nfc : AsciiNfc) (a b : ValidResponse) :
    ∃ ca cb ua ub, passportContent nfc.toNfc a.1 = .ok ca ∧ passportContent nfc.toNfc b.1 = .ok cb ∧
      utcFromIso a.1.civil.utc.toList = some ua ∧ utcFromIso b.1.civil.utc.toList = some ub ∧
      (ca = cb ↔ ua.micros = ub.micros ∧
        a.1.selectedPlace.latitude.e7 = b.1.selectedPlace.latitude.e7 ∧
        SameMeridian a.1.selectedPlace.longitude.e7 b.1.selectedPlace.longitude.e7 ∧
        a.1.bodies.1.decimalDegrees = b.1.bodies.1.decimalDegrees ∧
        a.1.bodies.2.decimalDegrees = b.1.bodies.2.decimalDegrees) := by
  obtain ⟨ua, sunA, moonA, hua, hsunA, hmoonA, -, ha⟩ := passportContent_of_valid nfc a.2
  obtain ⟨ub, sunB, moonB, hub, hsunB, hmoonB, -, hb⟩ := passportContent_of_valid nfc b.2
  refine ⟨_, _, ua, ub, ha, hb, hua, hub, ?_⟩
  rw [PassportContent.bytes_injective.eq_iff, PassportContent.mk.injEq, isoUtc_eq_iff,
    seam_longitude_eq_iff]
  obtain ⟨hsunA', hmoonA'⟩ := AstroPassportResponseV1.degreesTexts_of_valid a.2
  obtain ⟨hsunB', hmoonB'⟩ := AstroPassportResponseV1.degreesTexts_of_valid b.2
  rw [scaled_eq_iff hsunA' hsunB' hsunA hsunB, scaled_eq_iff hmoonA' hmoonB' hmoonA hmoonB]

/-- The synthetic response at a place of its own, on the equator. -/
def syntheticAt (displayName : String) (longitude : Binary64) : AstroPassportResponseV1 :=
  { synthetic with
    selectedPlace := ⟨"synthetic", "synthetic", displayName, .ofRat 0, longitude, none, "test", 1, 0, 1⟩ }

theorem valid_syntheticAt {displayName : String} {longitude : Binary64}
    (h : SelectedPlace.model.valid (syntheticAt displayName longitude).selectedPlace = true) :
    AstroPassportResponseV1.model.valid (syntheticAt displayName longitude) = true :=
  AstroPassportResponseV1.valid_withPlace valid_synthetic h

/-- Two places on the antimeridian, named differently and written east and west, have one text; the
    response elsewhere has another. -/
theorem passportContent_exact_synthetic :
    ∃ c d, passportContent Nfc.acute (syntheticAt "East" (.ofRat 180)) = .ok c ∧
      passportContent Nfc.acute (syntheticAt "West" (.ofRat (-180))) = .ok c ∧
      passportContent Nfc.acute synthetic = .ok d ∧ d ≠ c := by
  have heast := @valid_syntheticAt "East" (.ofRat 180) (by decide +kernel)
  have hwest := @valid_syntheticAt "West" (.ofRat (-180)) (by decide +kernel)
  obtain ⟨c, c', u, u', hc, hc', hu, hu', hiff⟩ := passportContent_exact AsciiNfc.acute
    ⟨_, heast⟩ ⟨_, hwest⟩
  obtain ⟨d, c'', v, v', hd, hc'', -, -, hother⟩ := passportContent_exact AsciiNfc.acute
    ⟨_, valid_synthetic⟩ ⟨_, heast⟩
  obtain rfl := Checked.ok.inj (hc.symm.trans hc'')
  have hmeridian : SameMeridian (Binary64.ofRat 180).e7 (Binary64.ofRat (-180)).e7 :=
    Or.inr (by decide +kernel)
  have hlatitude : synthetic.selectedPlace.latitude.e7 ≠ (Binary64.ofRat 0).e7 := by decide +kernel
  have hsame : c = c' :=
    hiff.mpr ⟨by rw [Option.some.inj (hu.symm.trans hu')], rfl, hmeridian, rfl, rfl⟩
  subst hsame
  exact ⟨c, d, hc, hc', hd, fun heq => hlatitude (hother.mp heq).2.1⟩

end AstroPassport
