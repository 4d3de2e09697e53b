import AstroPassport.Lib.HexText
import AstroPassport.Lib.Shortest
import AstroPassport.Science.Civil.Contracts

set_option autoImplicit false

/-! # Ephemeris records

The request and the result of `ephemeris/contracts.py` and the nine-place decimal of a longitude. As
in the other records a value is any value of the class, and a single-literal field is left out.

A request is an instant within the supported years, which a civil time in the years 1900 to 2100 is
(`supportedUtc_of_local`). The decimal of a longitude is the shortest decimal of the float, rounded
half-even to nine places and taken modulo 360; on the circle no operation on the way exceeds the
precision of the context (`longitudeDecimal_finite`), elsewhere the function raises what the
`decimal` module raises. A result is validated field by field and then as a whole: its limitations
are those of the year, the Sun stands before the Moon, and the Julian dates are written as
`float.hex` writes them. -/

namespace AstroPassport

/-! ## The request -/

/-- `dt.datetime(1899, 12, 31)`. -/
def firstUtc : NaiveDateTime :=
  ⟨.of 1899 12 31 (by decide), .of 0 0 0 0 (by decide)⟩

/-- `dt.datetime(2101, 1, 2)`. -/
def endUtc : NaiveDateTime :=
  ⟨.of 2101 1 2 (by decide), .of 0 0 0 0 (by decide)⟩

/-- The supported instants, the first included and the end not. -/
def supportedUtc (utc : NaiveDateTime) : Bool :=
  decide (firstUtc.micros ≤ utc.micros ∧ utc.micros < endUtc.micros)

/-- `EphemerisRequest`. -/
structure EphemerisRequest where
  utc : PyDateTime
  deriving DecidableEq

/-- `EphemerisRequest(utc=...)`, with `explicit_utc`. -/
def EphemerisRequest.make (utc : PyDateTime) : Checked EphemerisRequest :=
  if utc.utcoffset = some 0 ∧ utc.fold = false ∧ supportedUtc utc.naive = true then
    .ok ⟨.utc utc.naive⟩
  else .valueError

/-- A local time of the years 1900 to 2100 less than a day away is a supported instant. -/
theorem supportedUtc_of_local {utc civil : NaiveDateTime} {offset : ℤ}
    (hsum : utc.addSeconds offset = some civil) (hyear : 1900 ≤ civil.date.year ∧ civil.date.year ≤ 2100)
    (hoffset : -86400 < offset ∧ offset < 86400) : supportedUtc utc = true := by
  have hlo := NaiveDateTime.le_year_iff.1 hyear.1
  have hhi : civil.micros < NaiveDateTime.yearStart 2101 := by
    by_contra hle
    have := NaiveDateTime.le_year_iff.2 (not_lt.mp hle)
    omega
  have hfirst : firstUtc.micros = NaiveDateTime.yearStart 1900 - microsPerDay := by decide
  have hend : endUtc.micros = NaiveDateTime.yearStart 2101 + microsPerDay := by decide
  rw [NaiveDateTime.addSeconds_eq_some] at hsum
  rw [supportedUtc, decide_eq_true_eq, hfirst, hend]
  simp only [microsPerDay, microsPerSecond] at *
  omega

/-! ## Longitudes -/

/-- The result of an operation of the `decimal` module. -/
def Checked.ofDecimal : Option PyDecimal → Checked PyDecimal
  | some d => .ok d
  | none => .escaped .invalidOperation

/-- A longitude of the circle: `math.isfinite(raw) and 0 <= raw < 360`. -/
def Binary64.onCircle : Binary64 → Bool
  | .finite x => decide (0 ≤ x.value ∧ x.value < 360)
  | _ => false

/-- `Decimal(str(raw))`, for a finite `raw`. -/
def Binary64.toDecimal? : Binary64 → Option PyDecimal
  | .finite x => some x.toDecimal
  | _ => none

/-- `longitude_decimal`. -/
def longitudeDecimal (raw : Binary64) : Checked PyDecimal := do
  Checked.require raw.onCircle
  let exact ← Checked.ofOption raw.toDecimal?
  let rounded ← Checked.ofDecimal (exact.quantizeIn 40 9)
  Checked.ofDecimal (rounded.modNatIn 40 360)

/-- The nine-place decimal of a longitude: its shortest decimal rounded and brought below 360. -/
theorem longitudeDecimal_finite {x : Finite64} (h : 0 ≤ x.value ∧ x.value < 360) :
    longitudeDecimal (.finite x) =
      .ok ⟨x.neg, x.toDecimal.scaledMagnitude 9 % (360 * 10 ^ 9), -9⟩ := by
  have habs : x.abs < (360 : ℕ) := by
    rw [← x.abs_value, abs_of_nonneg h.1]
    exact_mod_cast h.2
  have hmagnitude : x.toDecimal.magnitude ≤ 360 := by
    exact_mod_cast x.toDecimal_magnitude_le (by norm_num) habs
  -- forty digits hold both the nine places and the remainder
  have hscaled : x.toDecimal.magnitude * 10 ^ 9 ≤ (360 * 10 ^ 9 : ℕ) := by
    push_cast
    linarith
  have hquantize : x.toDecimal.quantizeIn 40 9 = some (x.toDecimal.quantize 9) :=
    PyDecimal.quantizeIn_of_le hscaled (by norm_num)
  have hle := PyDecimal.scaledMagnitude_le hscaled
  have hbound : (x.toDecimal.quantize 9).magnitude ≤ (360 : ℕ) := by
    have hcast : (x.toDecimal.scaledMagnitude 9 : ℚ) ≤ 360 * 10 ^ 9 := by exact_mod_cast hle
    show (x.toDecimal.scaledMagnitude 9 : ℚ) * 10 ^ (-((9 : ℕ) : ℤ)) ≤ (360 : ℕ)
    rw [zpow_neg, zpow_natCast, ← div_eq_mul_inv, div_le_iff₀ (by norm_num)]
    exact hcast
  have hmod : (x.toDecimal.quantize 9).modNatIn 40 360 = some ((x.toDecimal.quantize 9).modNat 360) :=
    PyDecimal.modNatIn_of_le (by norm_num) hbound (by norm_num)
  have hcircle : (Binary64.finite x).onCircle = true := decide_eq_true h
  simp only [longitudeDecimal, hcircle, Checked.require, if_true, Checked.ok_bind,
    Binary64.toDecimal?, Checked.ofOption, hquantize, Checked.ofDecimal, hmod]
  rfl

/-- Off the circle the longitude is refused, and on it the decimal has room in its context. -/
theorem contained_longitudeDecimal (raw : Binary64) : (longitudeDecimal raw).Contained := by
  by_cases hcircle : raw.onCircle = true
  · rcases raw with x | _ | _
    · rw [longitudeDecimal_finite (of_decide_eq_true hcircle)]
      exact Checked.contained_ok _
    · cases hcircle
    · cases hcircle
  · rw [longitudeDecimal, Checked.contained_do]
    exact ⟨Checked.contained_require, fun u hu => absurd (Checked.require_eq_ok.1 hu) hcircle⟩

/-! ## The result -/

/-- `body`. -/
inductive Body where
  | sun
  | moon
  deriving DecidableEq, Repr

/-- `BodyLongitude`. -/
structure BodyLongitude where
  body : Body
  longitude : PyDecimal
  binary64Hex : String
  deriving DecidableEq

/-- `exact_projection`. -/
def BodyLongitude.exactProjection (p : BodyLongitude) : Checked Unit := do
  let raw ← Binary64.fromHex p.binary64Hex.toList
  Checked.require (decide (raw.hex = p.binary64Hex.toList))
  let projected ← longitudeDecimal raw
  Checked.require (decide (projected.value = p.longitude.value))

/-- `BodyLongitude.model_validate` of the value's own dump. -/
def BodyLongitude.modelValidate (p : BodyLongitude) : Checked Unit := do
  Checked.require (decide (0 ≤ p.longitude.value ∧ p.longitude.value < 360) &&
    decide (p.longitude.coeff < 10 ^ 32) &&
    decide (-32 ≤ p.longitude.exp ∧ p.longitude.exp ≤ 32) &&
    decide (p.binary64Hex.length ≤ 32))
  p.exactProjection

/-- `EphemerisProvenance`, less its literals. -/
structure EphemerisProvenance where
  binarySha256 : String
  bindingSourceSha256 : String
  planetDataSha256 : String
  moonDataSha256 : String
  sourceRevision : String
  deriving DecidableEq

/-- `^[0-9a-f]{40}$`. -/
def isRevision (s : String) : Bool := isLowerHex 40 s

/-- The four digests and the revision. -/
def EphemerisProvenance.valid (p : EphemerisProvenance) : Bool :=
  isDigest p.binarySha256 && isDigest p.bindingSourceSha256 && isDigest p.planetDataSha256 &&
    isDigest p.moonDataSha256 && isRevision p.sourceRevision

/-- `EphemerisResult`, less the literal of its schema. -/
structure EphemerisResult where
  utc : PyDateTime
  positions : BodyLongitude × BodyLongitude
  jdTtHex : String
  jdUt1Hex : String
  limitations : List String
  provenance : EphemerisProvenance
  deriving DecidableEq

/-- The literals of `limitations`. -/
def astronomicalLimitations : List String :=
  ["modelled-ut1-not-measured-earth-orientation", "pre1972-proleptic-utc-used-as-ut1-proxy",
    "leap-table-frozen-after-2016-not-a-future-prediction"]

/-- A Julian date in hexadecimal: canonical, finite and of the supported years. -/
def julianDate (text : String) : Checked Unit := do
  let value ← Binary64.fromHex text.toList
  match value with
  | .finite x =>
    Checked.require (decide (x.hex = text.toList) && decide (2400000 < x.value ∧ x.value < 2490000))
  | _ => .valueError

namespace EphemerisResult

/-- `expected` in `coherent`. -/
def expectedLimitations (year : ℕ) : List String :=
  ["modelled-ut1-not-measured-earth-orientation"] ++
    if year < 1972 then ["pre1972-proleptic-utc-used-as-ut1-proxy"]
    else if 2017 ≤ year then ["leap-table-frozen-after-2016-not-a-future-prediction"]
    else []

/-- `coherent`: a supported instant, its limitations, the Sun before the Moon, and two Julian dates.
    -/
def coherent (r : EphemerisResult) : Checked Unit := do
  let _ ← EphemerisRequest.make r.utc
  Checked.require (decide (r.limitations = expectedLimitations r.utc.naive.date.year))
  Checked.require (decide (r.positions.1.body = .sun ∧ r.positions.2.body = .moon))
  julianDate r.jdTtHex
  julianDate r.jdUt1Hex

/-- The checks of the single fields but the positions. -/
def validFields (r : EphemerisResult) : Bool :=
  decide (r.jdTtHex.length ≤ 32) && decide (r.jdUt1Hex.length ≤ 32) &&
    (r.limitations.all fun l => decide (l ∈ astronomicalLimitations)) &&
    decide (1 ≤ r.limitations.length ∧ r.limitations.length ≤ 2) && r.provenance.valid

/-- `EphemerisResult.model_validate` of the value's own dump. -/
def modelValidate (r : EphemerisResult) : Checked EphemerisResult := do
  let _ ← (r.positions.1.modelValidate.both r.positions.2.modelValidate).whenever r.validFields
  r.coherent
  pure r

end EphemerisResult

end AstroPassport
