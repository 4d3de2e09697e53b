import AstroPassport.Canonical.Passport
import AstroPassport.Contracts.Lahiri

set_option autoImplicit false

/-! # The content of a Lahiri response

`lahiri_content` of `app/lahiri.py` loads the tropical bytes, sets two of the members and adds the
sidereal ones. The bytes are made of the tropical content and two integers, the tropical bytes come
back out of them (`tropicalContent_bytes`), and the profile in front keeps the two contents apart.

The function works on what `json.loads` makes of bytes it has just written, so the proofs go from
bytes to a `dict` and back: the members of an object are the same ones in another order after
sorting, setting two of them and adding one gives a permutation of the expected members
(`set_header_perm`), and the canonical bytes do not see the order (`normalize_dict_of_perm`). What
remains is that both integers can be read off the bytes (`siderealPlain_injective`). The result for
two responses is `lahiriContent_exact`, and two responses that differ in the sidereal Moon alone
show that it is met. -/

namespace AstroPassport

/-- `PROFILE`. -/
def lahiriProfile : String := "sun-moon-lahiri.v1-mvp"

/-- `CONTENT_PROFILE`. -/
def lahiriContentProfile : String := "apt.sun-moon-lahiri-content.v1-mvp"

/-- `content["sidereal"]`. -/
def siderealValue (ayanamshaE9 moonE9 : ℤ) : PyValue :=
  .dict [(pyKey "system", pyStr "lahiri".toList),
    (pyKey "swiss_sidereal_mode", .int 1),
    (pyKey "policy", pyStr "swiss-lahiri-apparent-moon.v1-mvp".toList),
    (pyKey "ayanamsha_kind", pyStr "true-including-nutation".toList),
    (pyKey "ayanamsha_e9", .int ayanamshaE9),
    (pyKey "moon_longitude_e9", .int moonE9)]

/-- The members of the third item, where that is an object. -/
def contentMembers : PyValue → Option (List (PyKey × PyValue))
  | .list (_ :: _ :: .dict members :: _) => some members
  | _ => none

/-- `lahiri_content`. -/
def lahiriContent (nfc : Nfc) (value : LahiriResponse) : Checked ByteArray := do
  let checked ← LahiriResponse.model.decode (LahiriResponse.model.encode value)
  let tropical ← passportContent nfc checked.tropical
  let content ← Checked.ofOption ((jsonLoads tropical).bind contentMembers)
  let content := Dict.set (pyKey "schema") (pyStr "APTCanonicalLahiriContent.v1-mvp".toList) content
  let content := Dict.set (pyKey "profile") (pyStr lahiriProfile.toList) content
  let ayanamshaE9 ← scaled checked.sidereal.ayanamsha.decimalDegrees.toList .angle
  let moonE9 ← scaled checked.sidereal.moon.decimalDegrees.toList .angle
  let content := Dict.set (pyKey "sidereal") (siderealValue ayanamshaE9 moonE9) content
  Checked.ofCanonical (canonical nfc
    (.list [pyStr "ACEP1".toList, pyStr lahiriContentProfile.toList, .dict content]))

/-- The tropical bytes, out of the Lahiri bytes alone: the tropical schema and profile restored and
    `sidereal` dropped. -/
def tropicalContent (nfc : Nfc) (bytes : ByteArray) : Option ByteArray := do
  let content ← (jsonLoads bytes).bind contentMembers
  let content :=
    Dict.set (pyKey "schema") (pyStr "APTCanonicalSunMoonContent.v1-proposed".toList) content
  let content := Dict.set (pyKey "profile") (pyStr "sun-moon.v1".toList) content
  let content := Dict.erase (pyKey "sidereal") content
  match canonical nfc
    (.list [pyStr "ACEP1".toList, pyStr contentProfile.toList, .dict content]) with
  | .ok tropical => some tropical
  | .error _ => none

/-! ## Normal members -/

/-- What is not changed of a tropical content. -/
def PassportContent.commonMembers (c : PassportContent) : List (List Char × PlainJson) :=
  [("numerical_policy".toList, .str "binary64-to-decimal-9dp-half-even.v1".toList),
    ("utc".toList, .str c.utc),
    ("latitude_e7".toList, .int c.latitudeE7),
    ("longitude_e7".toList, .int c.longitudeE7),
    ("frame".toList, .str "geocentric-tropical-apparent-ecliptic-of-date".toList),
    ("bodies".toList, .arr [bodyPlain "sun" c.sunE9, bodyPlain "moon" c.moonE9])]

theorem PassportContent.plainMembers_eq (c : PassportContent) : c.plainMembers =
    ("schema".toList, .str "APTCanonicalSunMoonContent.v1-proposed".toList) ::
      ("profile".toList, .str "sun-moon.v1".toList) :: c.commonMembers := rfl

/-- The members of `content["sidereal"]`, in the order of the source. -/
def siderealMembers (ayanamshaE9 moonE9 : ℤ) : List (List Char × PlainJson) :=
  [("system".toList, .str "lahiri".toList),
    ("swiss_sidereal_mode".toList, .int 1),
    ("policy".toList, .str "swiss-lahiri-apparent-moon.v1-mvp".toList),
    ("ayanamsha_kind".toList, .str "true-including-nutation".toList),
    ("ayanamsha_e9".toList, .int ayanamshaE9),
    ("moon_longitude_e9".toList, .int moonE9)]

/-- `content["sidereal"]`, its members in the order of the printer. -/
def siderealPlain (ayanamshaE9 moonE9 : ℤ) : PlainJson :=
  .obj (sortByKey utf16beKey (siderealMembers ayanamshaE9 moonE9))

/-- The tropical content and the two integers next to it. -/
structure LahiriContent where
  tropical : PassportContent
  ayanamshaE9 : ℤ
  moonE9 : ℤ

namespace LahiriContent

/-- The members of the content, in no particular order. -/
def plainMembers (l : LahiriContent) : List (List Char × PlainJson) :=
  ("sidereal".toList, siderealPlain l.ayanamshaE9 l.moonE9) ::
    ("profile".toList, .str lahiriProfile.toList) ::
    ("schema".toList, .str "APTCanonicalLahiriContent.v1-mvp".toList) :: l.tropical.commonMembers

/-- The document of `lahiri_content`, its members in the order of the printer. -/
def plain (l : LahiriContent) : PlainJson :=
  .arr [.str "ACEP1".toList, .str lahiriContentProfile.toList,
    .obj (sortByKey utf16beKey l.plainMembers)]

/-- The bytes of a content. -/
def bytes (l : LahiriContent) : ByteArray := utf8 l.plain.print

theorem nodup_plainMembers (l : LahiriContent) : (l.plainMembers.map Prod.fst).Nodup := by
  show (["sidereal", "profile", "schema", "numerical_policy", "utc", "latitude_e7", "longitude_e7",
    "frame", "bodies"].map String.toList).Nodup
  decide

/-- A content that `canonical` writes. -/
structure Encodable (l : LahiriContent) : Prop where
  tropical : l.tropical.Encodable
  ayanamshaE9 : |l.ayanamshaE9| ≤ maxSafeInteger
  moonE9 : |l.moonE9| ≤ maxSafeInteger

end LahiriContent

section Normal

variable {nfc : AsciiNfc}

/-- Members in any order are normalized to the same object. -/
theorem normalize_dict_of_perm {ms us : List (PyKey × PyValue)} {ns : List (List Char × PlainJson)}
    (hperm : us.Perm ms) (h : List.Forall₂ (MemberNormal nfc.toNfc) ms ns)
    (hnodup : (ns.map Prod.fst).Nodup) :
    normalize nfc.toNfc (.dict us) = .ok (.obj (sortByKey utf16beKey ns)) := by
  obtain ⟨zs, hzs, hns⟩ := exists_forall₂_perm h hperm.symm
  refine normalize_dict_eq_ok.2 ⟨zs, hzs, (hns.map Prod.fst).nodup_iff.mp hnodup, ?_⟩
  rw [sortByKey_eq_of_perm hns (nodup_utf16beKey hnodup)]

/-- A normal plain value is a normal Python value. -/
theorem memberNormal_toPy {ms : List (List Char × PlainJson)}
    (h : ∀ m ∈ ms, nfc.normalize m.1 = m.1 ∧ m.2.Normalized nfc.toNfc) :
    List.Forall₂ (MemberNormal nfc.toNfc) (membersToPy ms) ms := by
  rw [membersToPy_eq_map, List.forall₂_map_left_iff, List.forall₂_same]
  intro m hm
  obtain ⟨hkey, hvalue⟩ := h m hm
  exact ⟨normalizeKey_eq_ok.2 ⟨_, rfl, normalizeStr_eq_ok.2 ⟨_, scalars?_map_scalar _, hkey⟩⟩,
    normalize_toPy _ hvalue⟩

theorem PassportContent.Encodable.normalized {c : PassportContent} (h : c.Encodable) :
    ∀ m ∈ c.plainMembers, nfc.normalize m.1 = m.1 ∧ m.2.Normalized nfc.toNfc := by
  have hplain := normalized_of_normalize _ _ (@normalize_value nfc _ h)
  have hobj := itemsNormalized_iff.1 hplain (.obj (sortByKey utf16beKey c.plainMembers)) (by simp)
  intro m hm
  exact membersNormalized_iff.1 hobj.2 m ((sortByKey_perm _ _).mem_iff.mpr hm)

theorem normalize_siderealValue {ayanamshaE9 moonE9 : ℤ} (hayanamsha : |ayanamshaE9| ≤ maxSafeInteger)
    (hmoon : |moonE9| ≤ maxSafeInteger) :
    normalize nfc.toNfc (siderealValue ayanamshaE9 moonE9) =
      .ok (siderealPlain ayanamshaE9 moonE9) := by
  refine normalize_dict_eq_ok.2 ⟨siderealMembers ayanamshaE9 moonE9, ?_, ?_, rfl⟩
  · refine .cons (memberNormal_pyKey (by decide) (normalize_pyStr (by decide))) <|
      .cons (memberNormal_pyKey (by decide) (normalize_pyInt (by decide))) <|
      .cons (memberNormal_pyKey (by decide) (normalize_pyStr (by decide))) <|
      .cons (memberNormal_pyKey (by decide) (normalize_pyStr (by decide))) <|
      .cons (memberNormal_pyKey (by decide) (normalize_pyInt hayanamsha)) <|
      .cons (memberNormal_pyKey (by decide) (normalize_pyInt hmoon)) .nil
  · show (["system", "swiss_sidereal_mode", "policy", "ayanamsha_kind", "ayanamsha_e9",
      "moon_longitude_e9"].map String.toList).Nodup
    decide

/-! ## From the tropical bytes to the Lahiri bytes -/

theorem LahiriContent.Encodable.normalized {l : LahiriContent} (h : l.Encodable) :
    ∀ m ∈ l.plainMembers, nfc.normalize m.1 = m.1 ∧ m.2.Normalized nfc.toNfc := by
  have htropical := @PassportContent.Encodable.normalized nfc _ h.tropical
  rw [PassportContent.plainMembers_eq] at htropical
  obtain ⟨-, hrest⟩ := List.forall_mem_cons.mp htropical
  obtain ⟨-, hcommon⟩ := List.forall_mem_cons.mp hrest
  have hascii (s : String) (hs : IsAscii s.toList) : nfc.normalize s.toList = s.toList :=
    nfc.ascii _ hs
  have hsidereal := normalized_of_normalize _ _
    (@normalize_siderealValue nfc _ _ h.ayanamshaE9 h.moonE9)
  refine List.forall_mem_cons.mpr ⟨⟨hascii _ (by decide), hsidereal⟩, ?_⟩
  refine List.forall_mem_cons.mpr ⟨⟨hascii _ (by decide), hascii _ (by decide)⟩, ?_⟩
  exact List.forall_mem_cons.mpr ⟨⟨hascii _ (by decide), hascii _ (by decide)⟩, hcommon⟩

/-- A list of two texts and an object in any order of its members. -/
theorem canonical_content {profile : String} {us ps : List (PyKey × PyValue)}
    {ms : List (List Char × PlainJson)} (hprofile : IsAscii profile.toList) (hperm : us.Perm ps)
    (h : List.Forall₂ (MemberNormal nfc.toNfc) ps ms) (hnodup : (ms.map Prod.fst).Nodup) :
    canonical nfc.toNfc (.list [pyStr "ACEP1".toList, pyStr profile.toList, .dict us]) =
      .ok (utf8 (PlainJson.arr [.str "ACEP1".toList, .str profile.toList,
        .obj (sortByKey utf16beKey ms)]).print) := by
  refine canonical_eq_ok.2 ⟨_, ?_, rfl⟩
  refine normalize_list_eq_ok.2 ⟨_, .cons (normalize_pyStr (by decide))
    (.cons (normalize_pyStr hprofile) (.cons ?_ .nil)), rfl⟩
  exact normalize_dict_of_perm hperm h hnodup

end Normal

/-! ## What the bytes load as -/

/-- The loaded members are the members of the content, in some order. -/
theorem membersToPy_sortByKey_perm (ms : List (List Char × PlainJson)) :
    (membersToPy (sortByKey utf16beKey ms)).Perm (membersToPy ms) := by
  rw [membersToPy_eq_map, membersToPy_eq_map]
  exact (sortByKey_perm _ _).map _

theorem loads_content {nfc : AsciiNfc} {b : ByteArray} {u : PyValue} {profile : String}
    {ms : List (List Char × PlainJson)} (h : canonical nfc.toNfc u = .ok b)
    (hb : b = utf8 (PlainJson.arr [.str "ACEP1".toList, .str profile.toList,
      .obj (sortByKey utf16beKey ms)]).print) :
    (jsonLoads b).bind contentMembers = some (membersToPy (sortByKey utf16beKey ms)) := by
  obtain ⟨n, hn, hbytes⟩ := canonical_eq_ok.1 h
  have hsame := utf8_print_injective (hbytes.trans hb)
  subst hsame
  rw [hb, jsonLoads_print (distinctKeys_of_normalized _ (normalized_of_normalize _ _ hn))]
  rfl

/-! ## Two members set, one added, and back -/

/-- The loaded members of a tropical content with their schema and profile set. -/
theorem set_header_perm {ms rest : List (PyKey × PyValue)} {v w : PyValue}
    (hperm : ms.Perm ((pyKey "schema", v) :: (pyKey "profile", w) :: rest))
    (hnodup : (ms.map Prod.fst).Nodup) (schema profile : PyValue) :
    (Dict.set (pyKey "profile") profile (Dict.set (pyKey "schema") schema ms)).Perm
      ((pyKey "profile", profile) :: (pyKey "schema", schema) :: rest) :=
  Dict.set_perm_cons ((Dict.set_perm_cons hperm hnodup schema).trans (.swap ..))
    (Dict.nodup_set _ _ hnodup) profile

theorem sidereal_notMem (c : PassportContent) (v w : PyValue) : pyKey "sidereal" ∉
    ((pyKey "profile", v) :: (pyKey "schema", w) :: membersToPy c.commonMembers).map Prod.fst := by
  show pyKey "sidereal" ∉ ["profile", "schema", "numerical_policy", "utc", "latitude_e7",
    "longitude_e7", "frame", "bodies"].map pyKey
  decide

/-- The bytes of a Lahiri content, out of those of its tropical content. -/
theorem LahiriContent.Encodable.canonical_set {nfc : AsciiNfc} {l : LahiriContent}
    (h : l.Encodable) :
    canonical nfc.toNfc (.list [pyStr "ACEP1".toList, pyStr lahiriContentProfile.toList,
      .dict (Dict.set (pyKey "sidereal") (siderealValue l.ayanamshaE9 l.moonE9)
        (Dict.set (pyKey "profile") (pyStr lahiriProfile.toList)
          (Dict.set (pyKey "schema") (pyStr "APTCanonicalLahiriContent.v1-mvp".toList)
            (membersToPy (sortByKey utf16beKey l.tropical.plainMembers)))))]) = .ok l.bytes := by
  have hnodup := nodup_membersToPy (((sortByKey_perm utf16beKey l.tropical.plainMembers).map
    Prod.fst).nodup_iff.mpr l.tropical.nodup_plainMembers)
  have hheader := set_header_perm (membersToPy_sortByKey_perm l.tropical.plainMembers) hnodup
    (pyStr "APTCanonicalLahiriContent.v1-mvp".toList) (pyStr lahiriProfile.toList)
  have hnotMem := fun hmem => sidereal_notMem l.tropical (pyStr lahiriProfile.toList)
    (pyStr "APTCanonicalLahiriContent.v1-mvp".toList) ((hheader.map Prod.fst).mem_iff.mp hmem)
  have hperm := (Dict.set_perm_of_notMem hnotMem (siderealValue l.ayanamshaE9 l.moonE9)).trans
    (hheader.cons _)
  obtain ⟨-, hrest⟩ := List.forall_mem_cons.mp (@normalized nfc _ h)
  refine canonical_content (by decide) hperm (.cons ?_ (memberNormal_toPy hrest))
    l.nodup_plainMembers
  exact memberNormal_pyKey (by decide) (normalize_siderealValue h.ayanamshaE9 h.moonE9)

/-- The tropical bytes come back. -/
theorem LahiriContent.Encodable.tropicalContent_bytes {nfc : AsciiNfc} {l : LahiriContent}
    (h : l.Encodable) : tropicalContent nfc.toNfc l.bytes = some l.tropical.bytes := by
  have hload := loads_content (@canonical_set nfc _ h) rfl
  have hnodup := nodup_membersToPy (((sortByKey_perm utf16beKey l.plainMembers).map
    Prod.fst).nodup_iff.mpr l.nodup_plainMembers)
  have hmembers : (membersToPy (sortByKey utf16beKey l.plainMembers)).Perm
      ((pyKey "schema", pyStr "APTCanonicalLahiriContent.v1-mvp".toList) ::
        (pyKey "profile", pyStr lahiriProfile.toList) ::
        (pyKey "sidereal", (siderealPlain l.ayanamshaE9 l.moonE9).toPy) ::
        membersToPy l.tropical.commonMembers) :=
    (membersToPy_sortByKey_perm l.plainMembers).trans
      (((List.Perm.swap ..).cons _).trans ((List.Perm.swap ..).trans ((List.Perm.swap ..).cons _)))
  have hheader := set_header_perm hmembers hnodup
    (pyStr "APTCanonicalSunMoonContent.v1-proposed".toList) (pyStr "sun-moon.v1".toList)
  have hfront := hheader.trans (((List.Perm.swap ..).cons _).trans (.swap ..))
  have hperm := (Dict.erase_perm_of_cons hfront (sidereal_notMem l.tropical _ _)).trans (.swap ..)
  have hcanonical := @canonical_content nfc contentProfile _ _ _ (by decide) hperm
    (memberNormal_toPy (@PassportContent.Encodable.normalized nfc _ h.tropical))
    l.tropical.nodup_plainMembers
  simp only [tropicalContent, hload, Option.bind_eq_bind, Option.bind_some, hcanonical]
  rfl

theorem siderealPlain_injective {a b m n : ℤ} (h : siderealPlain a m = siderealPlain b n) :
    a = b ∧ m = n := by
  have hkeys (k l : ℤ) : ((siderealMembers k l).map Prod.fst).Nodup := by
    show (["system", "swiss_sidereal_mode", "policy", "ayanamsha_kind", "ayanamsha_e9",
      "moon_longitude_e9"].map String.toList).Nodup
    decide
  have hperm := (sortByKey_eq_iff_perm (hkeys a m)).mp (PlainJson.obj.inj h)
  have hayanamsha := @value_eq_of_perm _ _ _ _ _ _ "ayanamsha_e9".toList (.int a) (.int b) hperm
    (hkeys b n) (by simp [siderealMembers]) (by simp [siderealMembers])
  have hmoon := @value_eq_of_perm _ _ _ _ _ _ "moon_longitude_e9".toList (.int m) (.int n) hperm
    (hkeys b n) (by simp [siderealMembers]) (by simp [siderealMembers])
  exact ⟨PlainJson.int.inj hayanamsha, PlainJson.int.inj hmoon⟩

/-- The bytes determine the tropical bytes and the two integers. -/
theorem LahiriContent.bytes_eq_iff (nfc : AsciiNfc) {k l : LahiriContent} (hk : k.Encodable)
    (hl : l.Encodable) : k.bytes = l.bytes ↔ k.tropical.bytes = l.tropical.bytes ∧
      k.ayanamshaE9 = l.ayanamshaE9 ∧ k.moonE9 = l.moonE9 := by
  constructor
  · intro h
    have htropical := @Encodable.tropicalContent_bytes nfc _ hk
    rw [h, @Encodable.tropicalContent_bytes nfc _ hl, Option.some.injEq] at htropical
    have hplain := utf8_print_injective h
    have hobj := (List.cons.inj (List.cons.inj (List.cons.inj (PlainJson.arr.inj hplain)).2).2).1
    have hperm := (sortByKey_eq_iff_perm k.nodup_plainMembers).mp (PlainJson.obj.inj hobj)
    have hsidereal := value_eq_of_perm hperm l.nodup_plainMembers (.head _) (.head _)
    exact ⟨htropical.symm, siderealPlain_injective hsidereal⟩
  · rintro ⟨htropical, hayanamsha, hmoon⟩
    have hcontent := PassportContent.bytes_injective htropical
    cases k
    cases l
    subst hcontent hayanamsha hmoon
    rfl

/-- No content has the bytes of the other domain: the second item of the list differs. -/
theorem LahiriContent.bytes_ne (l : LahiriContent) (nfc : AsciiNfc) (v : AstroPassportResponseV1) :
    passportContent nfc.toNfc v ≠ .ok l.bytes := by
  intro h
  simp only [passportContent, Checked.bind_eq_ok] at h
  obtain ⟨_, -, utc, -, latitudeE7, -, longitudeE7, -, sunE9, -, moonE9, -, h⟩ := h
  rcases hcanonical : canonical nfc.toNfc
      (PassportContent.value ⟨utc, latitudeE7, longitudeE7, sunE9, moonE9⟩) with _ | b
  · rw [hcanonical] at h
    cases h
  · rw [hcanonical] at h
    obtain rfl := Checked.ok.inj h
    obtain ⟨n, hn, hbytes⟩ := canonical_eq_ok.1 hcanonical
    have hsame := utf8_print_injective hbytes
    subst hsame
    obtain ⟨ns, hitems, hplain⟩ := normalize_list_eq_ok.1 hn
    obtain rfl := PlainJson.arr.inj hplain
    obtain ⟨-, hrest⟩ := List.forall₂_cons.mp hitems
    have hprofile := (List.forall₂_cons.mp hrest).1
    rw [normalize_pyStr (by decide)] at hprofile
    exact absurd (PlainJson.str.inj (Except.ok.inj hprofile)) (by decide)

/-! ## The content of a valid response -/

/-- A response that passes its model. -/
abbrev ValidLahiriResponse := {v : LahiriResponse // LahiriResponse.model.valid v = true}

theorem LahiriResponse.parts_of_valid {v : LahiriResponse} (h : model.valid v = true) :
    AstroPassportResponseV1.model.valid v.tropical = true ∧
      isDegreesText v.sidereal.ayanamsha.decimalDegrees.toList = true ∧
      isDegreesText v.sidereal.moon.decimalDegrees.toList = true := by
  simp only [model, fields, Codec.after_valid, Codec.object_valid, Fields.literal_valid,
    Fields.field_valid, LahiriFact.model, LahiriFact.fields, Codec.before_valid,
    Fields.constant_valid, Ayanamsha.model, Ayanamsha.fields, Longitude.model, Longitude.fields,
    Codec.text_valid, Bool.and_eq_true] at h
  obtain ⟨⟨htropical, ⟨-, -, -, -, ⟨⟨-, hayanamsha, -⟩, -⟩, ⟨⟨-, hmoon, -⟩, -⟩, -⟩, -⟩, -⟩ := h
  exact ⟨htropical, hayanamsha, hmoon⟩

/-- A valid response has the bytes of a content. -/
theorem lahiriContent_of_valid (nfc : AsciiNfc) {v : LahiriResponse}
    (h : LahiriResponse.model.valid v = true) :
    ∃ l : LahiriContent, l.Encodable ∧ lahiriContent nfc.toNfc v = .ok l.bytes ∧
      passportContent nfc.toNfc v.tropical = .ok l.tropical.bytes ∧
      scaled v.sidereal.ayanamsha.decimalDegrees.toList .angle = .ok l.ayanamshaE9 ∧
      scaled v.sidereal.moon.decimalDegrees.toList .angle = .ok l.moonE9 := by
  obtain ⟨htropical, hayanamsha, hmoon⟩ := LahiriResponse.parts_of_valid h
  obtain ⟨utc, sunE9, moonE9, -, -, -, hencodable, hcontent⟩ := passportContent_of_valid nfc htropical
  obtain ⟨a, ha, halt, -⟩ := scaled_degrees hayanamsha
  obtain ⟨m, hm, hmlt, -⟩ := scaled_degrees hmoon
  have hl : LahiriContent.Encodable ⟨_, a, m⟩ :=
    ⟨hencodable, abs_billionths_le halt, abs_billionths_le hmlt⟩
  refine ⟨_, hl, ?_, hcontent, ha, hm⟩
  have hload := loads_content (@PassportContent.Encodable.canonical_value nfc _ hencodable) rfl
  rw [lahiriContent, LahiriResponse.model.decode_encode h, Checked.ok_bind, hcontent,
    Checked.ok_bind, hload, Checked.ofOption, Checked.ok_bind, ha, Checked.ok_bind, hm,
    Checked.ok_bind]
  exact congrArg Checked.ofCanonical (@LahiriContent.Encodable.canonical_set nfc _ hl)

/-- **The bytes of a Lahiri response.** Two valid responses both have bytes, the same ones exactly
    when their tropical bytes and the decimals of ayanamsha and sidereal Moon are the same; the
    tropical bytes come back out of them; and no response has them as its tropical bytes. -/
theorem lahiriContent_exact (nfc : AsciiNfc) (x y : ValidLahiriResponse) :
    ∃ cx cy tx ty, lahiriContent nfc.toNfc x.1 = .ok cx ∧ lahiriContent nfc.toNfc y.1 = .ok cy ∧
      passportContent nfc.toNfc x.1.tropical = .ok tx ∧
      passportContent nfc.toNfc y.1.tropical = .ok ty ∧
      (cx = cy ↔ tx = ty ∧
        x.1.sidereal.ayanamsha.decimalDegrees = y.1.sidereal.ayanamsha.decimalDegrees ∧
        x.1.sidereal.moon.decimalDegrees = y.1.sidereal.moon.decimalDegrees) ∧
      tropicalContent nfc.toNfc cx = some tx ∧
      ∀ v, passportContent nfc.toNfc v ≠ .ok cx := by
  obtain ⟨k, hk, hcontentx, htropicalx, hayanamshax, hmoonx⟩ := lahiriContent_of_valid nfc x.2
  obtain ⟨l, hl, hcontenty, htropicaly, hayanamshay, hmoony⟩ := lahiriContent_of_valid nfc y.2
  obtain ⟨-, hdegreesx, hdegreesx'⟩ := LahiriResponse.parts_of_valid x.2
  obtain ⟨-, hdegreesy, hdegreesy'⟩ := LahiriResponse.parts_of_valid y.2
  refine ⟨_, _, _, _, hcontentx, hcontenty, htropicalx, htropicaly, ?_, hk.tropicalContent_bytes,
    k.bytes_ne nfc⟩
  rw [LahiriContent.bytes_eq_iff nfc hk hl,
    scaled_eq_iff hdegreesx hdegreesy hayanamshax hayanamshay,
    scaled_eq_iff hdegreesx' hdegreesy' hmoonx hmoony]

/-- A sidereal fact for the Moon of the synthetic response, which is at 20 degrees. -/
def syntheticFact : LahiriFact where
  ayanamsha := ⟨"0x1.8000000000000p+4", "24.000000000"⟩
  moon := ⟨"0x1.6400000000000p+8", "356.000000000"⟩

/-- Another one, of an ayanamsha a degree larger. -/
def shiftedFact : LahiriFact where
  ayanamsha := ⟨"0x1.9000000000000p+4", "25.000000000"⟩
  moon := ⟨"0x1.6300000000000p+8", "355.000000000"⟩

/-- Three responses with one tropical text. The two with one sidereal fact have one text, from which
    the tropical one comes back; the third has another. -/
theorem lahiriContent_exact_synthetic :
    ∃ c d t, lahiriContent Nfc.acute ⟨syntheticAt "East" (.ofRat 180), syntheticFact⟩ = .ok c ∧
      lahiriContent Nfc.acute ⟨syntheticAt "West" (.ofRat (-180)), syntheticFact⟩ = .ok c ∧
      lahiriContent Nfc.acute ⟨syntheticAt "East" (.ofRat 180), shiftedFact⟩ = .ok d ∧ d ≠ c ∧
      passportContent Nfc.acute (syntheticAt "East" (.ofRat 180)) = .ok t ∧
      tropicalContent Nfc.acute c = some t ∧ tropicalContent Nfc.acute d = some t := by
  have heast := @valid_syntheticAt "East" (.ofRat 180) (by decide +kernel)
  have hwest := @valid_syntheticAt "West" (.ofRat (-180)) (by decide +kernel)
  have hx : LahiriResponse.model.valid ⟨syntheticAt "East" (.ofRat 180), syntheticFact⟩ = true :=
    LahiriResponse.valid_iff.2 ⟨heast, by decide +kernel, by decide +kernel⟩
  have hy : LahiriResponse.model.valid ⟨syntheticAt "West" (.ofRat (-180)), syntheticFact⟩ = true :=
    LahiriResponse.valid_iff.2 ⟨hwest, by decide +kernel, by decide +kernel⟩
  have hz : LahiriResponse.model.valid ⟨syntheticAt "East" (.ofRat 180), shiftedFact⟩ = true :=
    LahiriResponse.valid_iff.2 ⟨heast, by decide +kernel, by decide +kernel⟩
  obtain ⟨c, c', t, t', hc, hc', ht, ht', hiff, hback, -⟩ :=
    lahiriContent_exact AsciiNfc.acute ⟨_, hx⟩ ⟨_, hy⟩
  obtain ⟨d, c'', s, s', hd, hc'', hs, -, hother, hback', -⟩ :=
    lahiriContent_exact AsciiNfc.acute ⟨_, hz⟩ ⟨_, hx⟩
  obtain rfl := Checked.ok.inj (hc.symm.trans hc'')
  obtain rfl := Checked.ok.inj (ht.symm.trans hs)
  -- the place is 180 in one and -180 in the other, which the seam makes one integer
  have htropical : t = t' := by
    obtain ⟨utc, sunE9, moonE9, hutc, hsun, hmoon, -, hbytes⟩ :=
      passportContent_of_valid AsciiNfc.acute heast
    obtain ⟨utc', sunE9', moonE9', hutc', hsun', hmoon', -, hbytes'⟩ :=
      passportContent_of_valid AsciiNfc.acute hwest
    obtain rfl := Option.some.inj (hutc.symm.trans hutc')
    obtain rfl := Checked.ok.inj (hsun.symm.trans hsun')
    obtain rfl := Checked.ok.inj (hmoon.symm.trans hmoon')
    have hseam : ScaleKind.longitude.seam (Binary64.ofRat 180).e7 =
        ScaleKind.longitude.seam (Binary64.ofRat (-180)).e7 := by decide +kernel
    have hbytes'' := ht.symm.trans hbytes
    simp only [syntheticAt, hseam] at hbytes''
    exact Checked.ok.inj (hbytes''.trans (ht'.symm.trans hbytes').symm)
  have hsame : c = c' := hiff.mpr ⟨htropical, rfl, rfl⟩
  subst hsame
  refine ⟨c, d, t, hc, hc', hd, fun heq => ?_, ht, hback, hback'⟩
  have hfact : shiftedFact.ayanamsha.decimalDegrees = syntheticFact.ayanamsha.decimalDegrees :=
    (hother.mp heq).2.1
  exact absurd hfact (by decide)

end AstroPassport
