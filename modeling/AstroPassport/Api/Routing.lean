import AstroPassport.Api.Handler
import AstroPassport.Contracts.Lahiri
import AstroPassport.Lib.Except
import AstroPassport.Lib.Json.Bytes
import AstroPassport.Lib.Json.Model
import AstroPassport.Security.UniqueJson

set_option autoImplicit false

/-! # One body, two parsers

`calculate` of `app/api.py` reads a body twice: `unique_json` builds the value that says which
profile is asked for, and pydantic's own parser builds the value that the profile's model validates.
How bytes are read as a document is given, and pydantic's parser is any correct decoder of these
documents, keeping of several members of one name whichever it likes (`JsonDecoder`). Both readings
are then one, and a model accepts only the bodies that are routed to it.

The reason is that `unique_json` refuses a name that occurs twice at any depth, and on what is left
the decoders cannot differ (`reads_of_uniqueJson`). What remains is that the member `profile`, which
the handler looks up in its own value, is the literal that each of the two request models asks for
(`isLahiri_of_profile`), so that no body passes under the other profile. `body_one_meaning` puts
this together for every body, and the ports of the handler are instantiated with the two parsers. -/

namespace AstroPassport

/-! ## The second parser -/

/-- A decoder that reads every document, and each as the document may be read. -/
structure JsonDecoder (document : List Byte → Option JsonDoc) where
  reads : List Byte → Option PyValue
  complete : ∀ {body d}, document body = some d → (reads body).isSome = true
  sound : ∀ {body v}, reads body = some v → ∃ d, document body = some d ∧ d.ReadAs v

/-- Python's own decoder, without the hooks. -/
def JsonDecoder.python (document : List Byte → Option JsonDoc) : JsonDecoder document where
  reads body := (document body).map pyDecode
  complete h := by rw [h, Option.map_some, Option.isSome_some]
  sound h := by
    obtain ⟨d, hd, rfl⟩ := Option.map_eq_some_iff.mp h
    exact ⟨d, hd, d.readAs_pyDecode⟩

/-- How validation ends, as an exception of the handler; `OverflowError` and `InvalidOperation` are
    no `ValueError`. -/
def Checked.toExcept {α : Type} : Checked α → Except PyException α
  | .ok a => .ok a
  | .valueError => .error .valueError
  | .escaped _ => .error .other

/-- `model_validate_json`, with the parser that pydantic has. -/
def modelValidateJson {document : List Byte → Option JsonDoc} {α : Type}
    (pydantic : JsonDecoder document) (model : Codec α) (body : List Byte) :
    Except PyException α :=
  match (pydantic.reads body).bind PyValue.toJson? with
  | some v => (model.decode v).toExcept
  | none => .error .valueError

/-- The handler's parsing as the source has it, the rest as given. -/
def parsingPorts {document : List Byte → Option JsonDoc} {Res Resp : Type}
    (pydantic : JsonDecoder document) (rest : Ports AstroPassportRequestV1 LahiriRequest Res Resp) :
    Ports AstroPassportRequestV1 LahiriRequest Res Resp :=
  { rest with
    uniqueJson := fun body =>
      match uniqueJson document body with
      | some raw => .ok raw
      | none => .error .valueError
    passportRequest := modelValidateJson pydantic AstroPassportRequestV1.model
    lahiriRequest := modelValidateJson pydantic LahiriRequest.model }

/-! ## The profile of an accepted body -/

theorem Checked.toExcept_eq_ok {α : Type} {x : Checked α} {a : α} :
    x.toExcept = .ok a ↔ x = .ok a := by
  cases x <;> simp [Checked.toExcept]

theorem modelValidateJson_eq_ok {document : List Byte → Option JsonDoc} {α : Type}
    {pydantic : JsonDecoder document} {model : Codec α} {body : List Byte} {a : α} :
    modelValidateJson pydantic model body = .ok a ↔
      ∃ raw v, pydantic.reads body = some raw ∧ raw.toJson? = some v ∧ model.decode v = .ok a := by
  unfold modelValidateJson
  split
  · next v hv =>
      obtain ⟨raw, hraw, hjson⟩ := Option.bind_eq_some_iff.mp hv
      rw [Checked.toExcept_eq_ok]
      refine ⟨fun h => ⟨raw, v, hraw, hjson, h⟩, ?_⟩
      rintro ⟨raw', v', hraw', hjson', h⟩
      rw [hraw] at hraw'
      cases hraw'
      rw [hjson] at hjson'
      cases hjson'
      exact h
  · next hnone =>
      simp only [reduceCtorEq, false_iff]
      rintro ⟨raw, v, hraw, hjson, -⟩
      rw [hraw, Option.bind_some, hjson] at hnone
      cases hnone

/-- The profile a converted value names is the one it is routed by. -/
theorem isLahiri_of_profile {raw : PyValue} {ns : List (String × JsonValue)} {profile : String}
    (hjson : raw.toJson? = some (.obj ns)) (hprofile : ns.lookup "profile" = some (.str profile)) :
    isLahiri raw = decide (profile = "sun-moon-lahiri.v1-mvp") := by
  obtain ⟨ms, rfl, hms⟩ := dict_of_toJson? hjson
  have hlookup := lookup_of_membersToJson? hms hprofile
  rw [pyKey] at hlookup
  simp only [isLahiri, hlookup, pyStr, decide_eq_decide]
  exact ⟨fun h => String.toList_inj.mp (map_scalar_injective h), fun h => by rw [h]⟩

/-! ## What the two models ask of the profile -/

theorem LahiriRequest.profile {v : JsonValue} {r : LahiriRequest} (h : model.decode v = .ok r) :
    ∃ ns, v = .obj ns ∧ ns.lookup "profile" = some (.str "sun-moon-lahiri.v1-mvp") := by
  obtain ⟨ns, a, rfl, hfields, -⟩ := Codec.object_eq_ok.1 h
  obtain ⟨-, hfields⟩ := Fields.literal_eq_ok.1 hfields
  obtain ⟨-, hfields⟩ := Fields.literal_eq_ok.1 hfields
  exact ⟨ns, rfl, (Fields.literal_eq_ok.1 hfields).1⟩

theorem AstroPassportRequestV1.profile {v : JsonValue} {r : AstroPassportRequestV1}
    (h : model.decode v = .ok r) :
    ∃ ns, v = .obj ns ∧ ns.lookup "profile" = some (.str "sun-moon.v1") := by
  obtain ⟨ns, a, rfl, hfields, -⟩ := Codec.object_eq_ok.1 h
  obtain ⟨-, hfields⟩ := Fields.literal_eq_ok.1 hfields
  obtain ⟨-, hfields⟩ := Fields.literal_eq_ok.1 hfields
  exact ⟨ns, rfl, (Fields.literal_eq_ok.1 hfields).1⟩

/-! ## One meaning -/

section Routing

variable {document : List Byte → Option JsonDoc} (pydantic : JsonDecoder document)
  {body : List Byte} {raw : PyValue}

/-- What `unique_json` accepts, every correct decoder reads as it does. -/
theorem reads_of_uniqueJson (h : uniqueJson document body = some raw) :
    pydantic.reads body = some raw := by
  obtain ⟨d, hd, -, hdistinct, rfl⟩ := uniqueJson_eq_some.1 h
  obtain ⟨v, hv⟩ := Option.isSome_iff_exists.mp (pydantic.complete hd)
  obtain ⟨d', hd', hreading⟩ := pydantic.sound hv
  rw [hd] at hd'
  cases hd'
  rw [hv, hreading.eq_pyDecode hdistinct]

theorem isLahiri_of_lahiriRequest {r : LahiriRequest} (h : uniqueJson document body = some raw)
    (hvalid : modelValidateJson pydantic LahiriRequest.model body = .ok r) :
    isLahiri raw = true := by
  obtain ⟨raw', v, hraw', hjson, hread⟩ := modelValidateJson_eq_ok.1 hvalid
  rw [reads_of_uniqueJson pydantic h] at hraw'
  cases hraw'
  obtain ⟨ns, rfl, hprofile⟩ := LahiriRequest.profile hread
  rw [isLahiri_of_profile hjson hprofile]
  rfl

theorem not_isLahiri_of_passportRequest {r : AstroPassportRequestV1}
    (h : uniqueJson document body = some raw)
    (hvalid : modelValidateJson pydantic AstroPassportRequestV1.model body = .ok r) :
    isLahiri raw = false := by
  obtain ⟨raw', v, hraw', hjson, hread⟩ := modelValidateJson_eq_ok.1 hvalid
  rw [reads_of_uniqueJson pydantic h] at hraw'
  cases hraw'
  obtain ⟨ns, rfl, hprofile⟩ := AstroPassportRequestV1.profile hread
  rw [isLahiri_of_profile hjson hprofile]
  decide

/-- A body that `unique_json` accepts names nothing twice and holds no constant, both parsers read
    the same tree, and the model that validates it is the one of the profile it is routed by. -/
theorem body_one_meaning {Res Resp : Type}
    (rest : Ports AstroPassportRequestV1 LahiriRequest Res Resp)
    (h : uniqueJson document body = some raw) :
    (∃ d, document body = some d ∧ d.DistinctNames ∧ d.standard = true ∧ d.ReadAs raw) ∧
      pydantic.reads body = some raw ∧
      (∀ value, parseRequest (parsingPorts pydantic rest) body = .ok value →
        (isLahiri raw = true ↔ ∃ r : LahiriRequest, value = .inr r)) ∧
      (∀ r, modelValidateJson pydantic LahiriRequest.model body = .ok r → isLahiri raw = true) ∧
      ∀ r, modelValidateJson pydantic AstroPassportRequestV1.model body = .ok r →
        isLahiri raw = false := by
  refine ⟨?_, reads_of_uniqueJson pydantic h, fun value hvalue => ?_,
    fun r => isLahiri_of_lahiriRequest pydantic h,
    fun r => not_isLahiri_of_passportRequest pydantic h⟩
  · obtain ⟨d, hd, hstandard, hdistinct, rfl⟩ := uniqueJson_eq_some.1 h
    exact ⟨d, hd, hdistinct, hstandard, d.readAs_pyDecode⟩
  · have hraw : (parsingPorts pydantic rest).uniqueJson body = .ok raw := by
      simp only [parsingPorts, h]
    rw [parseRequest, hraw] at hvalue
    simp only [Except.bind] at hvalue
    split at hvalue
    · next hlahiri =>
        obtain ⟨r, -, rfl⟩ := map_eq_ok.1 hvalue
        exact ⟨fun _ => ⟨r, rfl⟩, fun _ => hlahiri⟩
    · next hlahiri =>
        obtain ⟨r, -, rfl⟩ := map_eq_ok.1 hvalue
        refine ⟨fun h => absurd h hlahiri, ?_⟩
        rintro ⟨_, heq⟩
        cases heq

end Routing

/-- A Lahiri request, with the place and the civil time in it. -/
def nestedRequest : PlainJson :=
  .obj [("schema_version".toList, .str "AstroPassportRequest.v1".toList),
    ("contract_version".toList, .str "1.0.0".toList),
    ("profile".toList, .str "sun-moon-lahiri.v1-mvp".toList),
    ("selected_place".toList, .obj [
      ("schema_version".toList, .str "SelectedPlaceInput.v1".toList),
      ("provider".toList, .str "synthetic".toList), ("source_id".toList, .str "1".toList),
      ("display_name".toList, .str "Not a person".toList), ("latitude".toList, .int (-34)),
      ("longitude".toList, .int 151), ("attribution".toList, .null),
      ("query".toList, .str "test".toList), ("requested_limit".toList, .int 1),
      ("selected_index".toList, .int 0), ("result_count".toList, .int 1)]),
    ("civil".toList, .obj [("date".toList, .str "2000-01-02".toList),
      ("time".toList, .str "03:04:05".toList), ("fold".toList, .null)])]

/-- The body that `json.dumps` makes of it. -/
def lahiriBody : List Byte := ascii (String.ofList (nestedRequest.dumps .ascii))

/-- The model that validates the body decides how it is routed, and the other model refuses it. -/
theorem body_one_meaning_lahiri :
    ∃ raw r, uniqueJson jsonDocument lahiriBody = some raw ∧
      (JsonDecoder.python jsonDocument).reads lahiriBody = some raw ∧
      modelValidateJson (.python jsonDocument) LahiriRequest.model lahiriBody = .ok r ∧
      isLahiri raw = true ∧ ∀ p, modelValidateJson (.python jsonDocument)
        AstroPassportRequestV1.model lahiriBody ≠ .ok p := by
  -- no name occurs twice, at any depth
  have hdistinct : nestedRequest.DistinctKeys := by
    have hplace : (["schema_version", "provider", "source_id", "display_name", "latitude",
        "longitude", "attribution", "query", "requested_limit", "selected_index",
        "result_count"].map String.toList).Nodup := by decide
    refine ⟨by decide, trivial, trivial, trivial, ⟨hplace, ?_⟩, ⟨by decide, ?_⟩, trivial⟩ <;>
      simp [membersDistinctKeys, PlainJson.DistinctKeys]
  have haccepted : uniqueJson jsonDocument lahiriBody = some nestedRequest.toPy :=
    uniqueJson_dumps hdistinct
  let rest : Ports AstroPassportRequestV1 LahiriRequest Unit Unit :=
    ⟨fun _ _ => .ok none, fun _ => .error .other, fun _ => .error .other, fun _ => .error .other,
      fun _ => .cancelled, none, fun _ _ => .ok (), fun _ => .ok ()⟩
  obtain ⟨-, hreads, -, hlahiri, hpassport⟩ :=
    body_one_meaning (.python jsonDocument) rest haccepted
  have hvalidated : (nestedRequest.toPy.toJson?.bind fun v =>
      (LahiriRequest.model.decode v).toExcept.toOption).isSome = true := by decide +kernel
  obtain ⟨r, hr⟩ := Option.isSome_iff_exists.mp hvalidated
  obtain ⟨v, hv, hr⟩ := Option.bind_eq_some_iff.mp hr
  have hdecode : LahiriRequest.model.decode v = .ok r := by
    rcases hdecode : LahiriRequest.model.decode v with r' | _ | e <;> rw [hdecode] at hr <;>
      cases hr
    rfl
  have hvalid := modelValidateJson_eq_ok.2 ⟨_, v, hreads, hv, hdecode⟩
  refine ⟨_, r, haccepted, hreads, hvalid, hlahiri r hvalid, fun p hp => ?_⟩
  rw [hlahiri r hvalid] at hpassport
  exact absurd (hpassport p hp) (by decide)

end AstroPassport
