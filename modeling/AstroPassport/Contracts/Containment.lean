import AstroPassport.Contracts.Lahiri

set_option autoImplicit false

/-! # What leaves the validation of a document

A validator reports by a `ValueError`, which the models collect; two things raise more in it. One is
`float.fromhex` of a number that is too large, the other an instant moved out of the calendar by its
offset. `contained_iff` says of every document whether the validation reaches one of them.

The condition is on the document and not on the run: no longitude, ayanamsha or Julian date that has
the shape its model asks for has a hexadecimal text that is too large, and a response whose members
are all valid has its shifted instant in the calendar. For every model it is proved which values its
own validators raise on, and a member is then looked up by its name, whatever the other members are,
since each is validated even when an earlier one was refused. The two responses are put together
from these lemmas. The document of the last section has one body that is too large and little else,
and its validation raises an `OverflowError`. -/

namespace AstroPassport

/-! ## Longitudes and angles -/

/-- The members of a longitude before their validator looks at them, with this hexadecimal. -/
def LongitudeShape (body : String) (v : JsonValue) (hex : String) : Prop :=
  ∃ ms degrees, v = .obj ms ∧ (∀ m ∈ ms, m.1 ∈ ["body", "binary64_hex", "decimal_degrees"]) ∧
    ms.lookup "body" = some (.str body) ∧
    ms.lookup "binary64_hex" = some (.str hex) ∧ (8 ≤ hex.length ∧ hex.length ≤ 32) ∧
    ms.lookup "decimal_degrees" = some (.str degrees) ∧ isDegreesText degrees.toList = true

/-- Those of an ayanamsha, which has no body. -/
def AyanamshaShape (v : JsonValue) (hex : String) : Prop :=
  ∃ ms degrees, v = .obj ms ∧ (∀ m ∈ ms, m.1 ∈ ["binary64_hex", "decimal_degrees"]) ∧
    ms.lookup "binary64_hex" = some (.str hex) ∧ (8 ≤ hex.length ∧ hex.length ≤ 32) ∧
    ms.lookup "decimal_degrees" = some (.str degrees) ∧ isDegreesText degrees.toList = true

/-- The check of a longitude against its float raises more than a `ValueError` only in reading
    it. -/
theorem Longitude.contained_representation {l : Longitude} :
    l.representation.Contained ↔ ¬ HexOverflows l.binary64Hex.toList := by
  rw [← contained_fromHex, Longitude.representation, Checked.contained_do]
  refine and_iff_left fun value _ => ?_
  simp only [Checked.contained_do, Checked.contained_require, Checked.contained_ofOption,
    contained_longitudeDecimal, implies_true, and_self]

/-- The two checks have one body. -/
theorem Ayanamsha.contained_representation {v : Ayanamsha} :
    v.representation.Contained ↔ ¬ HexOverflows v.binary64Hex.toList := by
  have hsame : v.representation = Longitude.representation ⟨v.binary64Hex, v.decimalDegrees⟩ := rfl
  rw [hsame, Longitude.contained_representation]

theorem Longitude.contained_model {body : String} {v : JsonValue} :
    ((Longitude.model body).decode v).Contained ↔
      ∀ hex, LongitudeShape body v hex → ¬ HexOverflows hex.toList := by
  -- the two texts are read without an uncontained failure
  have htotal : ∀ ms, ((Longitude.fields body).decode ms).Contained := by
    intro ms
    simp only [Longitude.fields, Fields.contained_literal, Fields.contained_field,
      Fields.contained_done, and_true]
    exact ⟨(Codec.total_text _).member _ _, (Codec.total_text _).member _ _⟩
  unfold Longitude.model
  rw [Codec.contained_after]
  constructor
  · rintro ⟨-, h⟩ hex ⟨ms, degrees, rfl, hnames, hbody, hhex, hlength, hdegrees, htext⟩
    have hread : (Longitude.fields body).decode ms = .ok (hex, degrees, ()) :=
      Fields.literal_eq_ok.2 ⟨hbody, Fields.field_eq_ok.2
        ⟨Codec.member_text_eq_ok.2 ⟨hhex, decide_eq_true hlength⟩, Fields.field_eq_ok.2
          ⟨Codec.member_text_eq_ok.2 ⟨hdegrees, htext⟩, rfl⟩⟩⟩
    exact Longitude.contained_representation.1
      (h ⟨hex, degrees⟩ (decodeObject_eq_ok.2 ⟨ms, _, rfl, hread, hnames, rfl⟩))
  · intro h
    refine ⟨Codec.total_object htotal v, fun l hl => ?_⟩
    obtain ⟨ms, ⟨hex, degrees, _⟩, rfl, hread, hnames, rfl⟩ := decodeObject_eq_ok.1 hl
    obtain ⟨hbody, hread⟩ := Fields.literal_eq_ok.1 hread
    obtain ⟨hhex, hread⟩ := Fields.field_eq_ok.1 hread
    obtain ⟨hdegrees, -⟩ := Fields.field_eq_ok.1 hread
    obtain ⟨hhex, hlength⟩ := Codec.member_text_eq_ok.1 hhex
    obtain ⟨hdegrees, htext⟩ := Codec.member_text_eq_ok.1 hdegrees
    exact Longitude.contained_representation.2 (h hex ⟨ms, degrees, rfl, hnames, hbody, hhex,
      of_decide_eq_true hlength, hdegrees, htext⟩)

theorem Ayanamsha.contained_model {v : JsonValue} :
    (Ayanamsha.model.decode v).Contained ↔
      ∀ hex, AyanamshaShape v hex → ¬ HexOverflows hex.toList := by
  have htotal : ∀ ms, (Ayanamsha.fields.decode ms).Contained := by
    intro ms
    simp only [Ayanamsha.fields, Fields.contained_field, Fields.contained_done, and_true]
    exact ⟨(Codec.total_text _).member _ _, (Codec.total_text _).member _ _⟩
  unfold Ayanamsha.model
  rw [Codec.contained_after]
  constructor
  · rintro ⟨-, h⟩ hex ⟨ms, degrees, rfl, hnames, hhex, hlength, hdegrees, htext⟩
    have hread : Ayanamsha.fields.decode ms = .ok (hex, degrees, ()) :=
      Fields.field_eq_ok.2 ⟨Codec.member_text_eq_ok.2 ⟨hhex, decide_eq_true hlength⟩,
        Fields.field_eq_ok.2 ⟨Codec.member_text_eq_ok.2 ⟨hdegrees, htext⟩, rfl⟩⟩
    exact Ayanamsha.contained_representation.1
      (h ⟨hex, degrees⟩ (decodeObject_eq_ok.2 ⟨ms, _, rfl, hread, hnames, rfl⟩))
  · intro h
    refine ⟨Codec.total_object htotal v, fun l hl => ?_⟩
    obtain ⟨ms, ⟨hex, degrees, _⟩, rfl, hread, hnames, rfl⟩ := decodeObject_eq_ok.1 hl
    obtain ⟨hhex, hread⟩ := Fields.field_eq_ok.1 hread
    obtain ⟨hdegrees, -⟩ := Fields.field_eq_ok.1 hread
    obtain ⟨hhex, hlength⟩ := Codec.member_text_eq_ok.1 hhex
    obtain ⟨hdegrees, htext⟩ := Codec.member_text_eq_ok.1 hdegrees
    exact Ayanamsha.contained_representation.2 (h hex ⟨ms, degrees, rfl, hnames, hhex,
      of_decide_eq_true hlength, hdegrees, htext⟩)

/-! ## The members of a response -/

theorem SelectedPlace.total_model : SelectedPlace.model.Total := by
  refine (Codec.total_object fun ms => ?_).after fun p => ?_
  · simp only [fields, Fields.contained_literal, Fields.contained_field, Fields.contained_done,
      and_true]
    refine ⟨(Codec.total_text _).member _ _, (Codec.total_text _).member _ _,
      (Codec.total_text _).member _ _, (Codec.total_number _).member _ _,
      (Codec.total_number _).member _ _, ((Codec.total_text _).nullable _).member _ _,
      (Codec.total_text _).member _ _, (Codec.total_integer _).member _ _,
      (Codec.total_integer _).member _ _, (Codec.total_integer _).member _ _⟩
  · rw [coherent, Checked.contained_do]
    exact ⟨Checked.contained_require, fun _ _ => Checked.contained_require⟩

theorem total_foldModel : foldModel.Total := (Codec.total_integer _).nullable _

theorem CivilInput.total_model : CivilInput.model.Total := by
  refine (Codec.total_object fun ms => ?_).after fun p => ?_
  · simp only [fields, Fields.contained_field, Fields.contained_done, and_true]
    exact ⟨(Codec.total_text _).member _ _, (Codec.total_text _).member _ _,
      total_foldModel.member _ _⟩
  · simp [validClock]

theorem BoundaryFact.total_model : BoundaryFact.model.Total := by
  have hprovenance : BoundaryProvenance.model.Total := by
    refine (Codec.total_object fun ms => ?_).after fun p => Checked.contained_require
    simp only [BoundaryProvenance.fields, Fields.contained_literal, Fields.contained_field,
      Fields.contained_done, and_true]
    exact ⟨(Codec.total_text _).member _ _, (Codec.total_text _).member _ _,
      (Codec.total_text _).member _ _, (Codec.total_text _).member _ _,
      (Codec.total_text _).member _ _⟩
  refine Codec.total_object fun ms => ?_
  simp only [fields, Fields.contained_literal, Fields.contained_field, Fields.contained_done,
    and_true]
  exact ⟨((Codec.total_text _).after fun _ => Checked.contained_require).member _ _,
    hprovenance.member _ _⟩

theorem CivilFact.total_model : CivilFact.model.Total := by
  have hprovenance : CivilTimeProvenance.model.Total := by
    refine Codec.total_object fun ms => ?_
    simp only [CivilTimeProvenance.fields, Fields.contained_literal, Fields.contained_field,
      Fields.contained_done, and_true]
    exact ⟨(Codec.total_text _).member _ _, (Codec.total_text _).member _ _,
      (Codec.total_text _).member _ _, (Codec.total_text _).member _ _⟩
  refine (Codec.total_object fun ms => ?_).after fun p => ?_
  · simp only [fields, Fields.contained_literal, Fields.contained_field, Fields.contained_done,
      and_true]
    exact ⟨(Codec.total_text _).member _ _, (Codec.total_integer _).member _ _,
      Codec.total_choice.member _ _, total_foldModel.member _ _, hprovenance.member _ _,
      (Codec.total_strings _).member _ _⟩
  · simp [coherent]

theorem contained_julianDate {text : String} :
    (julianDate text).Contained ↔ ¬ HexOverflows text.toList := by
  rw [← contained_fromHex, julianDate, Checked.contained_do]
  refine and_iff_left fun value _ => ?_
  rcases value with x | _ | _
  · exact Checked.contained_require
  · exact Checked.contained_valueError
  · exact Checked.contained_valueError

/-- A Julian date is read when its length fits. -/
theorem ProvenanceV1.contained_finiteHex {v : JsonValue} :
    (finiteHex.decode v).Contained ↔
      ∀ hex, v = .str hex → 8 ≤ hex.length → hex.length ≤ 32 → ¬ HexOverflows hex.toList := by
  have htext : ((sized 8 32).decode v).Contained := Codec.total_text _ v
  unfold finiteHex
  rw [Codec.contained_after, and_iff_right htext]
  constructor
  · rintro h hex rfl hlow hhigh
    exact contained_julianDate.1 (h hex (Codec.decode_encode _ (decide_eq_true ⟨hlow, hhigh⟩)))
  · intro h hex hread
    rw [contained_julianDate]
    rcases v with _ | _ | _ | _ | s | _ | _ <;> simp [sized, Codec.text] at hread
    obtain ⟨rfl, hlow, hhigh⟩ := hread
    exact h s rfl hlow hhigh

theorem ProvenanceV1.contained_model {v : JsonValue} :
    (ProvenanceV1.model.decode v).Contained ↔ ∀ ms, v = .obj ms →
      ∀ key ∈ ["tt_jd_binary64", "ut1_jd_binary64"], ∀ hex, ms.lookup key = some (.str hex) →
        8 ≤ hex.length → hex.length ≤ 32 → ¬ HexOverflows hex.toList := by
  have hmember {key : String} {ms : List (String × JsonValue)} :
      (finiteHex.member key ms).Contained ↔ ∀ hex, ms.lookup key = some (.str hex) →
        8 ≤ hex.length → hex.length ≤ 32 → ¬ HexOverflows hex.toList := by
    rw [Codec.contained_member]
    constructor
    · intro h hex hlookup
      exact contained_finiteHex.1 (h _ hlookup) hex rfl
    · intro h w hlookup
      exact contained_finiteHex.2 fun hex heq => h hex (heq ▸ hlookup)
  have hflags : returnedFlags.Total := fun w => by
    show (((Codec.pair (.intLiteral 2) (.intLiteral 2)).decode w).map fun _ => ()).Contained
    rw [Checked.contained_map]
    exact (Codec.total_intLiteral 2).pair (Codec.total_intLiteral 2) w
  have hobject : (model.decode v).Contained ↔ ∀ ms, v = .obj ms → (fields.decode ms).Contained :=
    contained_decodeObject
  rw [hobject]
  refine forall_congr' fun ms => forall_congr' fun _ => ?_
  simp only [fields, Fields.contained_literal, Fields.contained_field, Fields.contained_constant,
    Fields.contained_done, and_true, hmember, List.forall_mem_cons]
  simp only [digest, (Codec.total_text _).member _ _, (Codec.total_intLiteral _).member _ _,
    hflags.member _ _, (Codec.total_strings _).member _ _, true_and, List.not_mem_nil,
    false_imp_iff, implies_true, and_true]

/-! ## The responses -/

/-- The members of a response, each by its model, without the check of the whole. -/
def AstroPassportResponseV1.members : JsonValue → Checked AstroPassportResponseV1 :=
  decodeObject fields fun (a, b, c, d, e, f, _) => ⟨a, b, c, d, e, f⟩

/-- The documents whose validation only a `ValueError` leaves: no hexadecimal that it reads is too
    large, and if it comes to the check of the whole, the offset does not move the instant out of
    the calendar. -/
structure ResponseContained (v : JsonValue) : Prop where
  sun : ∀ ms body bodies hex, v = .obj ms → ms.lookup "bodies" = some (.arr (body :: bodies)) →
    LongitudeShape "sun" body hex → ¬ HexOverflows hex.toList
  moon : ∀ ms first body bodies hex, v = .obj ms →
    ms.lookup "bodies" = some (.arr (first :: body :: bodies)) →
    LongitudeShape "moon" body hex → ¬ HexOverflows hex.toList
  julian : ∀ ms provenance, v = .obj ms → ms.lookup "provenance" = some (.obj provenance) →
    ∀ key ∈ ["tt_jd_binary64", "ut1_jd_binary64"], ∀ hex,
      provenance.lookup key = some (.str hex) → 8 ≤ hex.length → hex.length ≤ 32 →
      ¬ HexOverflows hex.toList
  calendar : ∀ r utc, AstroPassportResponseV1.members v = .ok r →
    utcFromIso r.civil.utc.toList = some utc → ∃ shifted : NaiveDateTime,
      shifted.micros = utc.micros + r.civil.offsetSeconds * microsPerSecond

theorem contained_bodies {v : JsonValue} :
    ((Codec.pair (Longitude.model "sun") (Longitude.model "moon")).decode v).Contained ↔
      (∀ body bodies hex, v = .arr (body :: bodies) → LongitudeShape "sun" body hex →
        ¬ HexOverflows hex.toList) ∧
      ∀ first body bodies hex, v = .arr (first :: body :: bodies) →
        LongitudeShape "moon" body hex → ¬ HexOverflows hex.toList := by
  simp only [Codec.pair]
  -- a long enough array, one item alone, and anything else
  split
  · next sun moon rest =>
      rw [Checked.contained_whenever, Checked.contained_both, Longitude.contained_model,
        Longitude.contained_model]
      constructor
      · rintro ⟨hsun, hmoon⟩
        refine ⟨?_, ?_⟩
        · rintro _ _ hex ⟨⟩
          exact hsun hex
        · rintro _ _ _ hex ⟨⟩
          exact hmoon hex
      · rintro ⟨hsun, hmoon⟩
        exact ⟨fun hex => hsun _ _ hex rfl, fun hex => hmoon _ _ _ hex rfl⟩
  · next sun =>
      rw [Checked.contained_both, Longitude.contained_model]
      constructor
      · rintro ⟨hsun, -⟩
        refine ⟨?_, ?_⟩
        · rintro _ _ hex ⟨⟩
          exact hsun hex
        · rintro _ _ _ _ ⟨⟩
      · rintro ⟨hsun, -⟩
        exact ⟨fun hex => hsun _ _ hex rfl, Checked.contained_valueError⟩
  · next hmany hone =>
      refine iff_of_true Checked.contained_valueError ⟨?_, ?_⟩
      · rintro body bodies hex rfl
        rcases bodies with _ | ⟨other, rest⟩
        · exact absurd rfl (hone body)
        · exact absurd rfl (hmany body other rest)
      · rintro first body bodies hex rfl
        exact absurd rfl (hmany first body bodies)

/-- Of the checks of the whole only the moved instant raises more than a `ValueError`. -/
theorem AstroPassportResponseV1.contained_coherent {r : AstroPassportResponseV1}
    (h : (civilFromIso r.civilInput).isSome = true) :
    r.coherent.Contained ↔ ∀ utc, utcFromIso r.civil.utc.toList = some utc →
      ∃ shifted : NaiveDateTime,
        shifted.micros = utc.micros + r.civil.offsetSeconds * microsPerSecond := by
  obtain ⟨civil, hcivil⟩ := Option.isSome_iff_exists.mp h
  rw [coherent, hcivil, Checked.ofOption, Checked.ok_bind, Checked.contained_do,
    and_iff_right Checked.contained_ofOption]
  refine forall_congr' fun utc => ?_
  rw [Checked.ofOption_eq_ok]
  refine imp_congr_right fun _ => ?_
  rw [Checked.contained_do, Checked.contained_orOverflow, Option.isSome_iff_exists]
  simp only [NaiveDateTime.addSeconds_eq_some]
  refine and_iff_left fun shifted _ => ?_
  simp

theorem CivilInput.civilFromIso_of_valid {v : CivilInput} (h : CivilInput.model.valid v = true) :
    (AstroPassportResponseV1.civilFromIso v).isSome = true := by
  obtain ⟨-, hclock⟩ := Codec.after_valid.1 h
  simp only [CivilInput.validClock, Checked.bind_eq_ok, Checked.ofOption_eq_ok] at hclock
  obtain ⟨date, hdate, time, htime, -⟩ := hclock
  simp only [AstroPassportResponseV1.civilFromIso, hdate, htime, Option.bind_eq_bind,
    Option.bind_some, Option.isSome_some]

theorem AstroPassportResponseV1.contained_model {v : JsonValue} :
    (model.decode v).Contained ↔ ResponseContained v := by
  have hafter : (model.decode v).Contained ↔ (members v).Contained ∧
      ∀ r, members v = .ok r → r.coherent.Contained := Codec.contained_after
  have hobject : (members v).Contained ↔ ∀ ms, v = .obj ms → (fields.decode ms).Contained :=
    contained_decodeObject
  have hfields (ms : List (String × JsonValue)) : (fields.decode ms).Contained ↔
      ((Codec.pair (Longitude.model "sun") (Longitude.model "moon")).member "bodies" ms).Contained ∧
        (ProvenanceV1.model.member "provenance" ms).Contained := by
    simp only [fields, Fields.contained_literal, Fields.contained_field, Fields.contained_done,
      SelectedPlace.total_model.member _ _, CivilInput.total_model.member _ _,
      BoundaryFact.total_model.member _ _, CivilFact.total_model.member _ _, true_and, and_true]
  -- the coherence check can only fail uncontained in the shift of the calendar
  have hcoherent : (∀ r, members v = .ok r → r.coherent.Contained) ↔
      ∀ r utc, members v = .ok r → utcFromIso r.civil.utc.toList = some utc →
        ∃ shifted : NaiveDateTime,
          shifted.micros = utc.micros + r.civil.offsetSeconds * microsPerSecond := by
    refine forall_congr' fun r => ?_
    rw [forall_comm]
    refine imp_congr_right fun hread => ?_
    have hvalid : fields.valid r = true := by
      obtain ⟨ms, _, rfl, hdecode, -, rfl⟩ := decodeObject_eq_ok.1 hread
      exact fields.valid_of_decode hdecode
    simp only [fields, Fields.literal_valid, Fields.field_valid, Bool.and_eq_true] at hvalid
    exact contained_coherent (CivilInput.civilFromIso_of_valid hvalid.2.1)
  rw [hafter, hobject, hcoherent]
  constructor
  · rintro ⟨hmembers, hcalendar⟩
    refine ⟨?_, ?_, ?_, hcalendar⟩
    · intro ms body bodies hex hv hlookup
      have hread := Codec.contained_member.1 ((hfields ms).mp (hmembers ms hv)).1 _ hlookup
      exact (contained_bodies.1 hread).1 body bodies hex rfl
    · intro ms first body bodies hex hv hlookup
      have hread := Codec.contained_member.1 ((hfields ms).mp (hmembers ms hv)).1 _ hlookup
      exact (contained_bodies.1 hread).2 first body bodies hex rfl
    · intro ms provenance hv hlookup
      have hread := Codec.contained_member.1 ((hfields ms).mp (hmembers ms hv)).2 _ hlookup
      exact ProvenanceV1.contained_model.1 hread provenance rfl
  · intro h
    refine ⟨fun ms hv => (hfields ms).mpr ⟨?_, ?_⟩, h.calendar⟩
    · refine Codec.contained_member.2 fun w hlookup => contained_bodies.2 ⟨?_, ?_⟩
      · rintro body bodies hex rfl
        exact h.sun ms body bodies hex hv hlookup
      · rintro first body bodies hex rfl
        exact h.moon ms first body bodies hex hv hlookup
    · refine Codec.contained_member.2 fun w hlookup => ProvenanceV1.contained_model.2 ?_
      rintro provenance rfl
      exact h.julian ms provenance hv hlookup

/-- The same of the documents of the Lahiri extension, whose fact is looked at once its integers
    are. -/
structure LahiriContained (v : JsonValue) : Prop where
  tropical : ∀ ms tropical, v = .obj ms → ms.lookup "tropical" = some tropical →
    ResponseContained tropical
  ayanamsha : ∀ ms fact ayanamsha hex, v = .obj ms → ms.lookup "sidereal" = some (.obj fact) →
    LahiriFact.exactIntegers (.obj fact) = .ok () → fact.lookup "ayanamsha" = some ayanamsha →
    AyanamshaShape ayanamsha hex → ¬ HexOverflows hex.toList
  moon : ∀ ms fact moon hex, v = .obj ms → ms.lookup "sidereal" = some (.obj fact) →
    LahiriFact.exactIntegers (.obj fact) = .ok () → fact.lookup "moon" = some moon →
    LongitudeShape "moon" moon hex → ¬ HexOverflows hex.toList

/-- The members of a fact, without the check in front of them. -/
def LahiriFact.members : JsonValue → Checked LahiriFact :=
  decodeObject fields fun (a, b, _) => ⟨a, b⟩

/-- The members of a response, without the check of the whole. -/
def LahiriResponse.members : JsonValue → Checked LahiriResponse :=
  decodeObject fields fun (a, b, _) => ⟨a, b⟩

theorem LahiriFact.contained_model {v : JsonValue} :
    (model.decode v).Contained ↔ ∀ fact, v = .obj fact → exactIntegers v = .ok () →
      (∀ ayanamsha hex, fact.lookup "ayanamsha" = some ayanamsha → AyanamshaShape ayanamsha hex →
        ¬ HexOverflows hex.toList) ∧
      ∀ moon hex, fact.lookup "moon" = some moon → LongitudeShape "moon" moon hex →
        ¬ HexOverflows hex.toList := by
  -- the check of the integers raises only what is contained
  have hcheck : (exactIntegers v).Contained := by
    unfold exactIntegers
    split
    · exact Checked.contained_require
    · exact Checked.contained_ok ()
  have hfields (fact : List (String × JsonValue)) : (fields.decode fact).Contained ↔
      (Ayanamsha.model.member "ayanamsha" fact).Contained ∧
        ((Longitude.model "moon").member "moon" fact).Contained := by
    simp only [fields, Fields.contained_literal, Fields.contained_constant, Fields.contained_field,
      Fields.contained_done, (Codec.total_intLiteral _).member _ _, true_and, and_true]
  have hbefore : (model.decode v).Contained ↔ (exactIntegers v).Contained ∧
      (exactIntegers v = .ok () → (members v).Contained) := Codec.contained_before
  have hobject : (members v).Contained ↔
      ∀ fact, v = .obj fact → (fields.decode fact).Contained := contained_decodeObject
  rw [hbefore, and_iff_right hcheck, hobject, forall_comm]
  refine forall_congr' fun fact => ?_
  rw [forall_comm]
  refine imp_congr_right fun _ => imp_congr_right fun _ => ?_
  rw [hfields, Codec.contained_member, Codec.contained_member]
  simp only [Ayanamsha.contained_model, Longitude.contained_model]
  exact and_congr (forall_congr' fun _ => forall_comm) (forall_congr' fun _ => forall_comm)

theorem Longitude.contained_of_valid {body : String} {l : Longitude}
    (h : (Longitude.model body).valid l = true) :
    (Binary64.fromHex l.binary64Hex.toList).Contained := by
  obtain ⟨-, hrepresentation⟩ := Codec.after_valid.1 h
  rw [contained_fromHex, ← Longitude.contained_representation, hrepresentation]
  exact Checked.contained_ok ()

theorem Ayanamsha.contained_of_valid {v : Ayanamsha} (h : Ayanamsha.model.valid v = true) :
    (Binary64.fromHex v.binary64Hex.toList).Contained := by
  obtain ⟨-, hrepresentation⟩ := Codec.after_valid.1 h
  rw [contained_fromHex, ← Ayanamsha.contained_representation, hrepresentation]
  exact Checked.contained_ok ()

/-- The floats of a response whose members fit have been read before. -/
theorem LahiriResponse.contained_coherent {r : LahiriResponse}
    (htropical : AstroPassportResponseV1.model.valid r.tropical = true)
    (hsidereal : LahiriFact.model.valid r.sidereal = true) : r.coherent.Contained := by
  simp only [AstroPassportResponseV1.model, AstroPassportResponseV1.fields, Codec.after_valid,
    Codec.object_valid, Fields.literal_valid, Fields.field_valid, Codec.pair_valid,
    Bool.and_eq_true] at htropical
  simp only [LahiriFact.model, LahiriFact.fields, Codec.before_valid, Codec.object_valid,
    Fields.literal_valid, Fields.constant_valid, Fields.field_valid, Bool.and_eq_true] at hsidereal
  obtain ⟨⟨-, -, -, -, ⟨-, hmoon⟩, -⟩, -⟩ := htropical
  obtain ⟨-, -, -, -, hayanamsha, hactual, -⟩ := hsidereal
  rw [coherent, Checked.contained_do]
  refine ⟨Longitude.contained_of_valid hmoon, fun tropical _ => ?_⟩
  rw [Checked.contained_do]
  refine ⟨Ayanamsha.contained_of_valid hayanamsha, fun ayanamsha _ => ?_⟩
  rw [Checked.contained_do]
  refine ⟨Longitude.contained_of_valid hactual, fun actual _ => ?_⟩
  split
  · exact Checked.contained_require
  · exact Checked.contained_ok ()

theorem LahiriResponse.contained_model {v : JsonValue} :
    (model.decode v).Contained ↔ LahiriContained v := by
  have hfields (ms : List (String × JsonValue)) : (fields.decode ms).Contained ↔
      (AstroPassportResponseV1.model.member "tropical" ms).Contained ∧
        (LahiriFact.model.member "sidereal" ms).Contained := by
    simp only [fields, Fields.contained_literal, Fields.contained_field, Fields.contained_done,
      and_true]
  have hafter : (model.decode v).Contained ↔ (members v).Contained ∧
      ∀ r, members v = .ok r → r.coherent.Contained := Codec.contained_after
  have hobject : (members v).Contained ↔ ∀ ms, v = .obj ms → (fields.decode ms).Contained :=
    contained_decodeObject
  have hcoherent : ∀ r, members v = .ok r → r.coherent.Contained := by
    intro r hread
    have hvalid : fields.valid r = true := by
      obtain ⟨ms, _, rfl, hdecode, -, rfl⟩ := decodeObject_eq_ok.1 hread
      exact fields.valid_of_decode hdecode
    simp only [fields, Fields.literal_valid, Fields.field_valid, Bool.and_eq_true] at hvalid
    exact contained_coherent hvalid.1 hvalid.2.1
  rw [hafter, and_iff_left hcoherent, hobject]
  constructor
  · intro h
    refine ⟨?_, ?_, ?_⟩
    · intro ms tropical hv hlookup
      exact AstroPassportResponseV1.contained_model.1
        (Codec.contained_member.1 ((hfields ms).mp (h ms hv)).1 _ hlookup)
    · intro ms fact ayanamsha hex hv hlookup hintegers
      have hread := Codec.contained_member.1 ((hfields ms).mp (h ms hv)).2 _ hlookup
      exact (LahiriFact.contained_model.1 hread fact rfl hintegers).1 ayanamsha hex
    · intro ms fact moon hex hv hlookup hintegers
      have hread := Codec.contained_member.1 ((hfields ms).mp (h ms hv)).2 _ hlookup
      exact (LahiriFact.contained_model.1 hread fact rfl hintegers).2 moon hex
  · intro h ms hv
    refine (hfields ms).mpr ⟨?_, ?_⟩
    · exact Codec.contained_member.2 fun w hlookup =>
        AstroPassportResponseV1.contained_model.2 (h.tropical ms w hv hlookup)
    · refine Codec.contained_member.2 fun w hlookup => LahiriFact.contained_model.2 ?_
      rintro fact rfl hintegers
      exact ⟨fun ayanamsha hex => h.ayanamsha ms fact ayanamsha hex hv hlookup hintegers,
        fun moon hex => h.moon ms fact moon hex hv hlookup hintegers⟩

/-- **What leaves the validation of a document is a `ValueError`, but for two arithmetic errors**,
    and those on the documents that are not contained. -/
theorem contained_iff (v : JsonValue) :
    ((∀ e, AstroPassportResponseV1.model.decode v ≠ .escaped e) ↔ ResponseContained v) ∧
    ((∀ e, LahiriResponse.model.decode v ≠ .escaped e) ↔ LahiriContained v) :=
  ⟨AstroPassportResponseV1.contained_model, LahiriResponse.contained_model⟩

/-! ## A document that is not contained -/

/-- A Sun whose hexadecimal has the length of one but is too large. -/
def overflowingBody : JsonValue :=
  .obj [("body", .str "sun"), ("binary64_hex", .str "0x1p+2000"),
    ("decimal_degrees", .str "0.000000000")]

/-- A response whose first body overflows and whose second is `null`. -/
def overflowingResponse : JsonValue := .obj [("bodies", .arr [overflowingBody, .null])]

theorem not_contained_overflowing : ¬ ResponseContained overflowingResponse := by
  intro h
  have hshape : LongitudeShape "sun" overflowingBody "0x1p+2000" :=
    ⟨_, "0.000000000", rfl, by decide, rfl, rfl, by decide, rfl, by decide⟩
  have hread : Binary64.fromHex "0x1p+2000".toList = .escaped .overflowError := by decide +kernel
  refine h.sun _ _ _ _ rfl rfl hshape ?_
  by_contra hnot
  exact contained_fromHex.2 hnot _ hread

theorem overflowing_escapes :
    (∃ e, AstroPassportResponseV1.model.decode overflowingResponse = .escaped e) ∧
      ∃ e, LahiriResponse.model.decode (.obj [("tropical", overflowingResponse)]) = .escaped e := by
  refine ⟨?_, ?_⟩
  · by_contra hnone
    exact not_contained_overflowing
      (AstroPassportResponseV1.contained_model.1 fun e he => hnone ⟨e, he⟩)
  · by_contra hnone
    have h := LahiriResponse.contained_model.1 fun e he => hnone ⟨e, he⟩
    exact not_contained_overflowing (h.tropical _ _ rfl rfl)

end AstroPassport
