import AstroPassport.Lib.Json.Syntax

set_option autoImplicit false

/-! # The text of JSON bytes

`json.loads` of a `bytes` object looks for a byte order mark or for zero bytes among the first four,
and decodes what it finds to be UTF-8, UTF-16 or UTF-32, surrogates let through. A text with a lone
surrogate in it has no spelling in scalar values and counts as unreadable here; outside a string no
JSON has one.

The decoders are strict about everything else: overlong and truncated sequences, code points past
the last one and a missing unit are errors. `jsonDocument` is the document of a sequence of bytes,
if there is one. For a program that writes ASCII all of this comes to nothing: no encoding but UTF-8
is detected in a text without zero bytes, and its characters are its bytes
(`detectEncoding_of_ascii`, `jsonDocument_ascii`). -/

namespace AstroPassport

/-- The encodings `json.detect_encoding` tells apart. -/
inductive JsonEncoding where
  | utf8
  | utf8Sig
  | utf16
  | utf16be
  | utf16le
  | utf32
  | utf32be
  | utf32le
  deriving DecidableEq

/-- `json.detect_encoding`. -/
def detectEncoding (b : List Byte) : JsonEncoding :=
  if b.take 4 = [0x00, 0x00, 0xFE, 0xFF] ∨ b.take 4 = [0xFF, 0xFE, 0x00, 0x00] then .utf32
  else if b.take 2 = [0xFE, 0xFF] ∨ b.take 2 = [0xFF, 0xFE] then .utf16
  else if b.take 3 = [0xEF, 0xBB, 0xBF] then .utf8Sig
  else
    match b with
    | b0 :: b1 :: b2 :: b3 :: _ =>
      if b0 = 0 then if b1 = 0 then .utf32be else .utf16be
      else if b1 = 0 then if b2 = 0 ∧ b3 = 0 then .utf32le else .utf16le
      else .utf8
    | [b0, b1] => if b0 = 0 then .utf16be else if b1 = 0 then .utf16le else .utf8
    | _ => .utf8

/-- A number as a code point that needs as many bytes as were spent on it. -/
def codePoint? (least n : ℕ) : Option CodePoint :=
  if h : least ≤ n ∧ n < 0x110000 then some ⟨n, h.2⟩ else none

/-- The six bits of a continuation byte. -/
def continuation? (b : Byte) : Option ℕ :=
  if 0x80 ≤ b.val ∧ b.val < 0xC0 then some (b.val - 0x80) else none

/-- UTF-8, surrogates included. -/
def decodeUtf8 : List Byte → Option (List CodePoint)
  | [] => some []
  | b :: bs =>
    if b.val < 0x80 then (decodeUtf8 bs).map (⟨b.val, by omega⟩ :: ·)
    else if b.val < 0xC0 then none
    else if b.val < 0xE0 then
      match bs with
      | c :: rest =>
        (continuation? c).bind fun x =>
          (codePoint? 0x80 ((b.val - 0xC0) * 64 + x)).bind fun p => (decodeUtf8 rest).map (p :: ·)
      | _ => none
    else if b.val < 0xF0 then
      match bs with
      | c :: d :: rest =>
        (continuation? c).bind fun x => (continuation? d).bind fun y =>
          (codePoint? 0x800 (((b.val - 0xE0) * 64 + x) * 64 + y)).bind fun p =>
            (decodeUtf8 rest).map (p :: ·)
      | _ => none
    else if b.val < 0xF8 then
      match bs with
      | c :: d :: e :: rest =>
        (continuation? c).bind fun x => (continuation? d).bind fun y => (continuation? e).bind fun z =>
          (codePoint? 0x10000 ((((b.val - 0xF0) * 64 + x) * 64 + y) * 64 + z)).bind fun p =>
            (decodeUtf8 rest).map (p :: ·)
      | _ => none
    else none

/-- The code units of pairs of bytes. -/
def codeUnits? (big : Bool) : List Byte → Option (List CodeUnit)
  | [] => some []
  | [_] => none
  | a :: b :: rest =>
    let unit : CodeUnit :=
      if big then ⟨a.val * 256 + b.val, by omega⟩ else ⟨b.val * 256 + a.val, by omega⟩
    (codeUnits? big rest).map (unit :: ·)

/-- UTF-32. -/
def decodeUtf32 (big : Bool) : List Byte → Option (List CodePoint)
  | [] => some []
  | a :: b :: c :: d :: rest =>
    let n := if big then ((a.val * 256 + b.val) * 256 + c.val) * 256 + d.val
      else ((d.val * 256 + c.val) * 256 + b.val) * 256 + a.val
    (codePoint? 0 n).bind fun p => (decodeUtf32 big rest).map (p :: ·)
  | _ => none

/-- `bytes.decode(encoding, "surrogatepass")`. -/
def decodeBytes (b : List Byte) : JsonEncoding → Option (List CodePoint)
  | .utf8 => decodeUtf8 b
  | .utf8Sig => decodeUtf8 (b.drop 3)
  | .utf16 => (codeUnits? (b.head? = some 0xFE) (b.drop 2)).map joinUnits
  | .utf16be => (codeUnits? true b).map joinUnits
  | .utf16le => (codeUnits? false b).map joinUnits
  | .utf32 => decodeUtf32 (b.head? = some 0) (b.drop 4)
  | .utf32be => decodeUtf32 true b
  | .utf32le => decodeUtf32 false b

/-- The document of JSON bytes. Python decodes with `surrogatepass`, which lets the UTF-8 bytes of a
    lone surrogate stand in a string, and refuses an integer of more than 4300 digits; here such
    bytes have no document, and an integer may have any length. -/
def jsonDocument (b : List Byte) : Option JsonDoc :=
  (decodeBytes b (detectEncoding b)).bind fun points => (scalars? points).bind parseDoc

/-- Every encoding of `[1]`, with and without a byte order mark. -/
example : [[0x5B, 0x31, 0x5D], [0xEF, 0xBB, 0xBF, 0x5B, 0x31, 0x5D], [0, 0x5B, 0, 0x31, 0, 0x5D],
      [0x5B, 0, 0x31, 0, 0x5D, 0], [0xFF, 0xFE, 0x5B, 0, 0x31, 0, 0x5D, 0],
      [0, 0, 0, 0x5B, 0, 0, 0, 0x31, 0, 0, 0, 0x5D]].map
        (fun b => decodeBytes b (detectEncoding b)) =
    List.replicate 6 (some ("[1]".toList.map scalar)) := by decide

/-! ## ASCII -/

section Ascii

variable {s : List Char}

theorem decodeUtf8_ascii (h : ∀ c ∈ s, 0 < c.toNat ∧ c.toNat < 0x80) :
    decodeUtf8 (ascii (String.ofList s)) = some (s.map scalar) := by
  rw [ascii, String.toList_ofList]
  induction s with
  | nil => rfl
  | cons c s ih =>
      rw [List.forall_mem_cons] at h
      have hbyte : c.toNat % 256 = c.toNat := Nat.mod_eq_of_lt (by omega)
      rw [List.map_cons, decodeUtf8.eq_def]
      simp only [hbyte, h.1.2, if_true]
      rw [ih h.2]
      rfl

/-- Without a byte beyond ASCII or a zero byte, the bytes are taken to be UTF-8. -/
theorem detectEncoding_of_ascii {b : List Byte} (h : ∀ x ∈ b, 0 < x.val ∧ x.val < 0x80) :
    detectEncoding b = .utf8 := by
  have hne : ∀ x ∈ b, x ≠ 0 ∧ x ≠ 0xFE ∧ x ≠ 0xFF ∧ x ≠ 0xEF := by
    intro x hx
    obtain ⟨hpos, hlt⟩ := h x hx
    refine ⟨?_, ?_, ?_, ?_⟩ <;>
      · rintro rfl
        revert hpos hlt
        decide
  unfold detectEncoding
  rcases b with _ | ⟨b0, _ | ⟨b1, _ | ⟨b2, _ | ⟨b3, rest⟩⟩⟩⟩
  · rfl
  all_goals
    simp only [List.forall_mem_cons] at hne
    simp [hne]

/-- The document of an ASCII text is read from its bytes. -/
theorem jsonDocument_ascii (h : ∀ c ∈ s, 0 < c.toNat ∧ c.toNat < 0x80) :
    jsonDocument (ascii (String.ofList s)) = parseDoc s := by
  have hbytes : ∀ x ∈ ascii (String.ofList s), 0 < x.val ∧ x.val < 0x80 := by
    intro x hx
    rw [ascii, String.toList_ofList] at hx
    obtain ⟨c, hc, rfl⟩ := List.mem_map.1 hx
    have := h c hc
    exact ⟨by show 0 < c.toNat % 256; omega, by show c.toNat % 256 < 0x80; omega⟩
  rw [jsonDocument, detectEncoding_of_ascii hbytes, decodeBytes, decodeUtf8_ascii h,
    Option.bind_some, scalars?_map_scalar, Option.bind_some]

end Ascii

end AstroPassport
