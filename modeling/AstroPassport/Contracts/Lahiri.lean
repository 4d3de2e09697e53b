import AstroPassport.Contracts.Wire

set_option autoImplicit false

/-! # The wire models of `app/lahiri.py`

The request and the response of the Lahiri extension. A response holds a tropical response whole and
next to it a sidereal fact, whose integers are looked at before its members are; at the end the
sidereal Moon is computed again in binary64 from the tropical one and the ayanamsha.

The models are put together like those of `app/contracts.py` and reuse its members. What is new is
the check of the whole response: subtraction, remainder and comparison are those of Python's floats,
each of them one rounding of the exact result, so that the tolerance is compared in the arithmetic
the service has (`floatSub`, `floatAdd`, `floatMod`, `consistent`). What the comparison says about
the exact angles is a matter of its own. The request differs from the tropical one in its profile,
and `tropicalRequest` is the tropical request it carries. -/

namespace AstroPassport

/-! ## The request -/

/-- `LahiriRequest`, less its literals. -/
structure LahiriRequest where
  selectedPlace : SelectedPlace
  civil : CivilInput

namespace LahiriRequest

/-- The members of the request in the order of the class. -/
def fields :=
  Fields.literal "schema_version" "AstroPassportRequest.v1" <|
  .literal "contract_version" "1.0.0" <|
  .literal "profile" "sun-moon-lahiri.v1-mvp" <|
  .field "selected_place" SelectedPlace.model selectedPlace <|
  .field "civil" CivilInput.model civil .done

/-- The validation of a request and its dump. -/
def model : Codec LahiriRequest :=
  .object fields (fun (a, b, _) => ⟨a, b⟩) (by decide) (fun _ => rfl) (fun _ => rfl)

/-- `tropical_request`: another profile. -/
def tropicalRequest (r : LahiriRequest) : Checked AstroPassportRequestV1 :=
  AstroPassportRequestV1.model.decode
    (AstroPassportRequestV1.model.encode ⟨r.selectedPlace, r.civil⟩)

end LahiriRequest

/-! ## The sidereal fact -/

/-- `Ayanamsha`: its float and the decimal of nine places. -/
structure Ayanamsha where
  binary64Hex : String
  decimalDegrees : String

namespace Ayanamsha

/-- The members of the ayanamsha in the order of the class. -/
def fields :=
  Fields.field "binary64_hex" (sized 8 32) binary64Hex <|
  .field "decimal_degrees" (.text fun s => isDegreesText s.toList) decimalDegrees .done

/-- `representation`: the float is spelt as `float.hex` spells it, and the decimal is its
    projection. -/
def representation (v : Ayanamsha) : Checked Unit := do
  let number ← Binary64.fromHex v.binary64Hex.toList
  Checked.require (number.onCircle && decide (number.hex = v.binary64Hex.toList))
  let decimal ← Checked.ofOption (plainDecimal v.decimalDegrees)
  let projected ← longitudeDecimal number
  Checked.require (decide (decimal.value = projected.value))

/-- The validation of an ayanamsha and its dump. -/
def model : Codec Ayanamsha :=
  (Codec.object fields (fun (a, b, _) => ⟨a, b⟩) (by decide) (fun _ => rfl)
    (fun _ => rfl)).after representation

end Ayanamsha

/-- `LahiriFact`, less its literals. -/
structure LahiriFact where
  ayanamsha : Ayanamsha
  moon : Longitude

namespace LahiriFact

/-- The members of the fact in the order of the class. -/
def fields :=
  Fields.literal "schema_version" "LahiriMoonFact.v1-mvp" <|
  .literal "system" "lahiri" <|
  .constant "swiss_sidereal_mode" (.intLiteral 1) <|
  .literal "policy" "swiss-lahiri-apparent-moon.v1-mvp" <|
  .literal "numerical_policy" "binary64-to-decimal-9dp-half-even.v1" <|
  .constant "requested_flags" (.intLiteral 65538) <|
  .constant "returned_flags" (.intLiteral 65602) <|
  .constant "ayanamsha_flags" (.intLiteral 2) <|
  .literal "ayanamsha_kind" "true-including-nutation" <|
  .field "ayanamsha" Ayanamsha.model ayanamsha <|
  .field "moon" (Longitude.model "moon") moon .done

/-- `type(v) is int`. -/
def isInt : Option JsonValue → Bool
  | some (.int _) => true
  | _ => false

/-- `exact_integers`; what is no object is left to the model. -/
def exactIntegers : JsonValue → Checked Unit
  | .obj ms =>
    Checked.require (["swiss_sidereal_mode", "requested_flags", "returned_flags",
      "ayanamsha_flags"].all fun key => isInt (ms.lookup key))
  | _ => .ok ()

/-- The validation of a fact and its dump. -/
def model : Codec LahiriFact :=
  (Codec.object fields (fun (a, b, _) => ⟨a, b⟩) (by decide) (fun _ => rfl)
    (fun _ => rfl)).before exactIntegers (fun _ => rfl)

end LahiriFact

/-! ## Arithmetic on finite floats

Operations on the values of finite floats, each rounded once. The sign of a zero is not kept. -/

/-- `x - y`. -/
def floatSub (x y : ℚ) : ℚ := roundRat (x - y)

/-- `x + y`. -/
def floatAdd (x y : ℚ) : ℚ := roundRat (x + y)

/-- `x % m` for a whole number `m`: `fmod` is exact, and a negative remainder is moved up. -/
def floatMod (x : ℚ) (m : ℕ) : ℚ :=
  let r := x - m * truncateRat (x / m)
  if r < 0 then floatAdd r m else r

/-! ## The response -/

/-- `LahiriResponse`, less its literals. -/
structure LahiriResponse where
  tropical : AstroPassportResponseV1
  sidereal : LahiriFact

namespace LahiriResponse

/-- The members of the response in the order of the class. -/
def fields :=
  Fields.literal "schema_version" "AstroPassportLahiriResponse.v1-mvp" <|
  .literal "contract_version" "1.0.0" <|
  .literal "profile" "sun-moon-lahiri.v1-mvp" <|
  .field "tropical" AstroPassportResponseV1.model tropical <|
  .field "sidereal" LahiriFact.model sidereal <|
  .literal "serialization" "astro-passport-lahiri-json.v1-mvp" <|
  .literal "authenticity" "unsigned-direct-client-only" .done

/-- The distance on the circle is not more than `1e-10`. -/
def consistent (tropical ayanamsha actual : ℚ) : Bool :=
  let expected := floatMod (floatSub tropical ayanamsha) 360
  decide (|floatSub (floatMod (floatAdd (floatSub expected actual) 180) 360) 180| ≤
    roundRat (1 / 10 ^ 10))

/-- `coherent`; with an operand that is not finite the distance is NaN, which is not more than the
    tolerance. -/
def coherent (v : LahiriResponse) : Checked Unit := do
  let tropical ← Binary64.fromHex v.tropical.bodies.2.binary64Hex.toList
  let ayanamsha ← Binary64.fromHex v.sidereal.ayanamsha.binary64Hex.toList
  let actual ← Binary64.fromHex v.sidereal.moon.binary64Hex.toList
  match tropical, ayanamsha, actual with
  | .finite x, .finite y, .finite z => Checked.require (consistent x.value y.value z.value)
  | _, _, _ => pure ()

/-- The validation of a response and its dump. -/
def model : Codec LahiriResponse :=
  (Codec.object fields (fun (a, b, _) => ⟨a, b⟩) (by decide) (fun _ => rfl)
    (fun _ => rfl)).after coherent

theorem valid_iff {v : LahiriResponse} : model.valid v = true ↔
    AstroPassportResponseV1.model.valid v.tropical = true ∧
      LahiriFact.model.valid v.sidereal = true ∧ v.coherent = .ok () := by
  simp only [model, fields, Codec.after_valid, Codec.object_valid, Fields.literal_valid,
    Fields.field_valid, Fields.done_valid, Bool.and_true, Bool.and_eq_true, and_assoc]

end LahiriResponse

end AstroPassport
