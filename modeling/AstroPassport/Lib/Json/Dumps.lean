import AstroPassport.Lib.Json.Bytes
import AstroPassport.Lib.Json.Line
import AstroPassport.Lib.Json.Reading

set_option autoImplicit false

/-! # Dumps in any spelling

What `json.dumps` leaves to its arguments: which characters of a string are escaped, and whether a
blank follows commas and colons. A `DumpStyle` is such a spelling together with the proof that its
string literals are read back, so every style has the same round trip (`jsonDocument_dumps`). The
style `ascii` writes what is outside printable ASCII as `\uXXXX`, a character beyond the basic plane
as the two halves of its surrogate pair.

The round trip is an induction over values for the text and the parser, as for the compact text, and
another for the decoder, which joins the two halves again (`pyDecodeStr_asciiItems`). What a dump is
made of is known as well: its characters are those of the literals and the punctuation, so the style
`ascii` gives ASCII (`isAscii_dumps`). With sorted keys the same holds, and looking a name up does
not change (`lookup_sortKeys`). A dumped document has no name twice where the value has none. -/

namespace AstroPassport

/-! ## Styles -/

/-- A spelling: the text of a string between its quotes, the items it is read back as, and the text
    after commas and colons. -/
structure DumpStyle where
  body : List Char → List Char
  items : List Char → List StrItem
  gap : List Char
  parse_body : ∀ s rest, parseString (body s ++ '"' :: rest) = some (items s, rest)
  decode_items : ∀ s, pyDecodeStr (items s) = s.map scalar
  skip_gap : ∀ cs, skipSpace (gap ++ cs) = skipSpace cs

/-- A string literal. -/
def DumpStyle.literal (st : DumpStyle) (s : List Char) : List Char := '"' :: (st.body s ++ ['"'])

mutual

/-- The text of a value. -/
def PlainJson.dumps (st : DumpStyle) : PlainJson → List Char
  | .null => ['n', 'u', 'l', 'l']
  | .bool true => ['t', 'r', 'u', 'e']
  | .bool false => ['f', 'a', 'l', 's', 'e']
  | .int n => printInt n
  | .str s => st.literal s
  | .arr [] => ['[', ']']
  | .arr (x :: xs) => '[' :: (x.dumps st ++ dumpItems st xs)
  | .obj [] => ['{', '}']
  | .obj ((k, x) :: ms) => '{' :: (st.literal k ++ ':' :: (st.gap ++ (x.dumps st ++ dumpMembers st ms)))

/-- The items after the first, each behind its comma, and the closing bracket. -/
def dumpItems (st : DumpStyle) : List PlainJson → List Char
  | [] => [']']
  | x :: xs => ',' :: (st.gap ++ (x.dumps st ++ dumpItems st xs))

/-- The members after the first, each behind its comma, and the closing brace. -/
def dumpMembers (st : DumpStyle) : List (List Char × PlainJson) → List Char
  | [] => ['}']
  | (k, x) :: ms =>
    ',' :: (st.gap ++ (st.literal k ++ ':' :: (st.gap ++ (x.dumps st ++ dumpMembers st ms))))

end

mutual

/-- The document a dumped value is read back as. -/
def PlainJson.docIn (st : DumpStyle) : PlainJson → JsonDoc
  | .null => .null
  | .bool b => .bool b
  | .int n => .num (intLit n)
  | .str s => .str (st.items s)
  | .arr xs => .arr (docItemsIn st xs)
  | .obj ms => .obj (docMembersIn st ms)

/-- The documents of the items. -/
def docItemsIn (st : DumpStyle) : List PlainJson → List JsonDoc
  | [] => []
  | x :: xs => x.docIn st :: docItemsIn st xs

/-- The documents of the members, each under its spelt name. -/
def docMembersIn (st : DumpStyle) : List (List Char × PlainJson) → List (List StrItem × JsonDoc)
  | [] => []
  | (k, x) :: ms => (st.items k, x.docIn st) :: docMembersIn st ms

end

section Parsing

variable (st : DumpStyle)

/-- A dumped value starts with neither whitespace nor a closing bracket. -/
theorem PlainJson.dumps_head (v : PlainJson) :
    ∃ c cs, v.dumps st = c :: cs ∧ isJsonSpace c = false ∧ c ≠ ']' := by
  rcases v with _ | b | n | s | xs | ms
  · exact ⟨'n', _, rfl, by decide, by decide⟩
  · rcases b with _ | _ <;> exact ⟨_, _, rfl, by decide, by decide⟩
  · simpa only [PlainJson.dumps] using printInt_head n
  · exact ⟨'"', _, by rw [PlainJson.dumps, DumpStyle.literal], by decide, by decide⟩
  · rcases xs with _ | _ <;> exact ⟨'[', _, by rw [PlainJson.dumps], by decide, by decide⟩
  · rcases ms with _ | ⟨⟨k, x⟩, ms⟩ <;>
      exact ⟨'{', _, by rw [PlainJson.dumps], by decide, by decide⟩

theorem skipSpace_dumps (v : PlainJson) (r : List Char) :
    skipSpace (v.dumps st ++ r) = v.dumps st ++ r := by
  obtain ⟨c, cs, hv, hc, -⟩ := v.dumps_head st
  rw [hv, List.cons_append, skipSpace_of_head hc]

/-- Nor is there whitespace in front of a value after its comma or colon. -/
theorem skipSpace_gap_dumps (v : PlainJson) (r : List Char) :
    skipSpace (st.gap ++ (v.dumps st ++ r)) = v.dumps st ++ r := by
  rw [st.skip_gap, skipSpace_dumps]

theorem skipSpace_gap_literal (k r : List Char) :
    skipSpace (st.gap ++ (st.literal k ++ r)) = st.literal k ++ r := by
  rw [st.skip_gap]
  exact skipSpace_of_head (by decide)

theorem endsNumber_dumpItems (xs : List PlainJson) (r : List Char) :
    EndsNumber (dumpItems st xs ++ r) := by
  rcases xs with _ | _ <;> simp [dumpItems, EndsNumber]

theorem endsNumber_dumpMembers (ms : List (List Char × PlainJson)) (r : List Char) :
    EndsNumber (dumpMembers st ms ++ r) := by
  rcases ms with _ | ⟨⟨k, x⟩, ms⟩ <;> simp [dumpMembers, EndsNumber]

theorem skipSpace_dumpItems (xs : List PlainJson) (r : List Char) :
    skipSpace (dumpItems st xs ++ r) = dumpItems st xs ++ r := by
  rcases xs with _ | _ <;> exact skipSpace_of_head (by decide)

theorem skipSpace_dumpMembers (ms : List (List Char × PlainJson)) (r : List Char) :
    skipSpace (dumpMembers st ms ++ r) = dumpMembers st ms ++ r := by
  rcases ms with _ | ⟨⟨k, x⟩, ms⟩ <;> exact skipSpace_of_head (by decide)

theorem length_dumpItems_pos (xs : List PlainJson) : 0 < (dumpItems st xs).length := by
  rcases xs with _ | _ <;> simp [dumpItems]

theorem length_dumpMembers_pos (ms : List (List Char × PlainJson)) :
    0 < (dumpMembers st ms).length := by
  rcases ms with _ | ⟨⟨k, x⟩, ms⟩ <;> simp [dumpMembers]

mutual

/-- A dumped value, whatever follows it, parses to its document. -/
theorem parseValue_dumps (v : PlainJson) (fuel : ℕ) (r : List Char)
    (hf : (v.dumps st).length ≤ fuel) (hr : EndsNumber r) :
    parseValue fuel (v.dumps st ++ r) = some (v.docIn st, r) := by
  -- the fuel is bounded by the text, which is not empty
  obtain ⟨fuel, rfl⟩ : ∃ f, fuel = f + 1 := by
    obtain ⟨c, cs, hv, -, -⟩ := v.dumps_head st
    exact ⟨fuel - 1, by rw [hv, List.length_cons] at hf; omega⟩
  match v with
  | .null => rw [PlainJson.dumps, PlainJson.docIn]; rfl
  | .bool true => rw [PlainJson.dumps, PlainJson.docIn]; rfl
  | .bool false => rw [PlainJson.dumps, PlainJson.docIn]; rfl
  | .int n =>
      rw [PlainJson.dumps, PlainJson.docIn]
      exact parseValue_printInt fuel n hr
  | .str s =>
      rw [PlainJson.dumps, PlainJson.docIn, DumpStyle.literal, List.cons_append, List.append_assoc,
        List.singleton_append, parseValue.eq_def]
      simp only [if_true, st.parse_body, Option.map_some]
  | .arr [] => rw [PlainJson.dumps, PlainJson.docIn, docItemsIn]; rfl
  | .arr (x :: xs) =>
      rw [PlainJson.dumps] at hf
      simp only [List.length_cons, List.length_append] at hf
      -- the first character of the first item tells the array from an empty one
      obtain ⟨c, cs, hx, hc, hne⟩ := x.dumps_head st
      have hitems := parseItems_dumps x xs fuel r (by omega)
      rw [PlainJson.dumps, PlainJson.docIn, List.cons_append, List.append_assoc]
      rw [hx, List.cons_append] at hitems ⊢
      rw [parseValue_open_arr hc hne, hitems]
      rfl
  | .obj [] => rw [PlainJson.dumps, PlainJson.docIn, docMembersIn]; rfl
  | .obj ((k, x) :: ms) =>
      rw [PlainJson.dumps] at hf
      simp only [List.length_cons, List.length_append] at hf
      have hmembers := parseMembers_dumps k x ms fuel r (by omega)
      rw [PlainJson.dumps, PlainJson.docIn]
      simp only [List.cons_append, List.append_assoc]
      rw [DumpStyle.literal, List.cons_append] at hmembers ⊢
      rw [parseValue_open_obj, hmembers]
      rfl
termination_by fuel

theorem parseItems_dumps (x : PlainJson) (xs : List PlainJson) (fuel : ℕ) (r : List Char)
    (hf : (x.dumps st).length + (dumpItems st xs).length ≤ fuel) :
    parseItems fuel (x.dumps st ++ (dumpItems st xs ++ r))
      = some (x.docIn st :: docItemsIn st xs, r) := by
  have hpos := length_dumpItems_pos st xs
  obtain ⟨fuel, rfl⟩ : ∃ f, fuel = f + 1 := ⟨fuel - 1, by omega⟩
  have hx := parseValue_dumps x fuel (dumpItems st xs ++ r) (by omega) (endsNumber_dumpItems st xs r)
  rw [parseItems, hx, Option.bind_some, skipSpace_dumpItems]
  match xs with
  | [] => simp [dumpItems, docItemsIn]
  | y :: ys =>
      simp only [dumpItems, List.length_cons, List.length_append] at hf
      have hrest := parseItems_dumps y ys fuel r (by omega)
      simp only [dumpItems, List.cons_append, List.append_assoc, skipSpace_gap_dumps, hrest,
        Option.map_some, docItemsIn]
termination_by fuel

theorem parseMembers_dumps (k : List Char) (x : PlainJson) (ms : List (List Char × PlainJson))
    (fuel : ℕ) (r : List Char)
    (hf : (st.literal k).length + ((x.dumps st).length + (dumpMembers st ms).length) < fuel) :
    parseMembers fuel (st.literal k ++ ':' :: (st.gap ++ (x.dumps st ++ (dumpMembers st ms ++ r))))
      = some ((st.items k, x.docIn st) :: docMembersIn st ms, r) := by
  have hpos := length_dumpMembers_pos st ms
  obtain ⟨fuel, rfl⟩ : ∃ f, fuel = f + 1 := ⟨fuel - 1, by omega⟩
  have hx := parseValue_dumps x fuel (dumpMembers st ms ++ r) (by omega)
    (endsNumber_dumpMembers st ms r)
  have hcolon : ∀ cs, skipSpace (':' :: cs) = ':' :: cs := fun cs =>
    skipSpace_of_head (by decide)
  rw [DumpStyle.literal, List.cons_append, List.append_assoc, List.singleton_append, parseMembers]
  simp only [st.parse_body, Option.bind_some, hcolon, skipSpace_gap_dumps, hx,
    skipSpace_dumpMembers]
  match ms with
  | [] => simp [dumpMembers, docMembersIn]
  | (k', y) :: ms =>
      simp only [dumpMembers, List.length_cons, List.length_append] at hf
      have hrest := parseMembers_dumps k' y ms fuel r (by omega)
      simp only [dumpMembers, List.cons_append, List.append_assoc, skipSpace_gap_literal, hrest,
        Option.map_some, docMembersIn]
termination_by fuel

end

theorem parseDoc_dumps (v : PlainJson) : parseDoc (v.dumps st) = some (v.docIn st) := by
  have hspace := skipSpace_dumps st v []
  have hvalue := parseValue_dumps st v ((v.dumps st).length + 1) [] (by omega) endsNumber_nil
  rw [List.append_nil] at hspace hvalue
  rw [parseDoc, hspace, hvalue, Option.bind_some]
  rfl

end Parsing

/-! ## Decoding -/

section Decoding

variable (st : DumpStyle)

mutual

/-- Whatever the style, the document decodes to the value. -/
theorem pyDecode_docIn : ∀ v : PlainJson, v.DistinctKeys → pyDecode (v.docIn st) = v.toPy
  | .null, _ => by rw [PlainJson.docIn, pyDecode, PlainJson.toPy]
  | .bool b, _ => by rw [PlainJson.docIn, pyDecode, PlainJson.toPy]
  | .int n, _ => by rw [PlainJson.docIn, pyDecode, PlainJson.toPy, pyDecode_intLit]
  | .str s, _ => by rw [PlainJson.docIn, pyDecode, PlainJson.toPy, st.decode_items]
  | .arr xs, h => by
      rw [PlainJson.DistinctKeys] at h
      rw [PlainJson.docIn, pyDecode, PlainJson.toPy, pyDecodeItems_docIn xs h]
  | .obj ms, h => by
      rw [PlainJson.DistinctKeys] at h
      rw [PlainJson.docIn, pyDecode, PlainJson.toPy, pyDecodeMembers_docIn ms h.2,
        Dict.ofMembers_of_nodup (nodup_membersToPy h.1)]

theorem pyDecodeItems_docIn :
    ∀ xs : List PlainJson, itemsDistinctKeys xs → pyDecodeItems (docItemsIn st xs) = itemsToPy xs
  | [], _ => by rw [docItemsIn, pyDecodeItems, itemsToPy]
  | x :: xs, h => by
      rw [itemsDistinctKeys] at h
      rw [docItemsIn, pyDecodeItems, itemsToPy, pyDecode_docIn x h.1, pyDecodeItems_docIn xs h.2]

theorem pyDecodeMembers_docIn : ∀ ms : List (List Char × PlainJson), membersDistinctKeys ms →
    pyDecodeMembers (docMembersIn st ms) = membersToPy ms
  | [], _ => by rw [docMembersIn, pyDecodeMembers, membersToPy]
  | (k, x) :: ms, h => by
      rw [membersDistinctKeys] at h
      rw [docMembersIn, pyDecodeMembers, membersToPy, st.decode_items, pyDecode_docIn x h.1,
        pyDecodeMembers_docIn ms h.2]

end

mutual

/-- No constant is dumped, so the document is one of the standard grammar. -/
theorem standard_docIn : ∀ v : PlainJson, (v.docIn st).standard = true
  | .null | .bool _ | .int _ | .str _ => rfl
  | .arr xs => by rw [PlainJson.docIn, JsonDoc.standard, standardItems_docIn xs]
  | .obj ms => by rw [PlainJson.docIn, JsonDoc.standard, standardMembers_docIn ms]

theorem standardItems_docIn : ∀ xs : List PlainJson, standardItems (docItemsIn st xs) = true
  | [] => rfl
  | x :: xs => by
      rw [docItemsIn, standardItems, standard_docIn x, standardItems_docIn xs, Bool.and_self]

theorem standardMembers_docIn :
    ∀ ms : List (List Char × PlainJson), standardMembers (docMembersIn st ms) = true
  | [] => rfl
  | (k, x) :: ms => by
      rw [docMembersIn, standardMembers, standard_docIn x, standardMembers_docIn ms, Bool.and_self]

end

theorem names_docMembersIn (ms : List (List Char × PlainJson)) :
    (docMembersIn st ms).map (fun m => pyDecodeStr m.1) =
      (ms.map Prod.fst).map (List.map scalar) := by
  induction ms with
  | nil => rfl
  | cons m ms ih =>
      obtain ⟨k, x⟩ := m
      rw [docMembersIn, List.map_cons, ih, st.decode_items]
      rfl

mutual

/-- Distinct keys stay distinct names. -/
theorem distinctNames_docIn : ∀ v : PlainJson, v.DistinctKeys → (v.docIn st).DistinctNames
  | .null, _ | .bool _, _ | .int _, _ | .str _, _ => trivial
  | .arr xs, h => by
      rw [PlainJson.DistinctKeys] at h
      rw [PlainJson.docIn, JsonDoc.DistinctNames]
      exact itemsDistinctNames_docIn xs h
  | .obj ms, h => by
      rw [PlainJson.DistinctKeys] at h
      rw [PlainJson.docIn, JsonDoc.DistinctNames, names_docMembersIn]
      exact ⟨h.1.map fun _ _ heq => map_scalar_injective heq,
        membersDistinctNames_docIn ms h.2⟩

theorem itemsDistinctNames_docIn :
    ∀ xs : List PlainJson, itemsDistinctKeys xs → itemsDistinctNames (docItemsIn st xs)
  | [], _ => trivial
  | x :: xs, h => ⟨distinctNames_docIn x h.1, itemsDistinctNames_docIn xs h.2⟩

theorem membersDistinctNames_docIn : ∀ ms : List (List Char × PlainJson),
    membersDistinctKeys ms → membersDistinctNames (docMembersIn st ms)
  | [], _ => trivial
  | (_, x) :: ms, h => ⟨distinctNames_docIn x h.1, membersDistinctNames_docIn ms h.2⟩

end

end Decoding

/-! ## ASCII -/

/-- `\uXXXX`, in lower case. -/
def unitEscape (u : CodeUnit) : List Char :=
  ['\\', 'u', Nat.digitChar (u.val / 4096), Nat.digitChar (u.val / 256 % 16),
    Nat.digitChar (u.val / 16 % 16), Nat.digitChar (u.val % 16)]

/-- A character of a string, everything beyond `~` in code units. -/
def escapeAscii (c : Char) : List Char :=
  if c.toNat < 0x7f then escapeChar c else (utf16 (scalar c)).flatMap unitEscape

/-- The items that character is read back as. -/
def asciiItems (c : Char) : List StrItem :=
  if c.toNat < 0x7f then [charItem c] else (utf16 (scalar c)).map .unit

theorem parseString_unitEscape (u : CodeUnit) (rest : List Char) :
    parseString (unitEscape u ++ rest) = (parseString rest).map fun p => (.unit u :: p.1, p.2) := by
  have h1 := hexDigit?_digitChar (d := u.val / 4096) (by omega)
  have h2 := hexDigit?_digitChar (d := u.val / 256 % 16) (by omega)
  have h3 := hexDigit?_digitChar (d := u.val / 16 % 16) (by omega)
  have h4 := hexDigit?_digitChar (d := u.val % 16) (by omega)
  have hvalue : ((u.val / 4096 * 16 + u.val / 256 % 16) * 16 + u.val / 16 % 16) * 16 + u.val % 16 =
      u.val := by omega
  have hunit : hexUnit? (Nat.digitChar (u.val / 4096)) (Nat.digitChar (u.val / 256 % 16))
      (Nat.digitChar (u.val / 16 % 16)) (Nat.digitChar (u.val % 16)) = some u := by
    simp only [hexUnit?, h1, h2, h3, h4, Option.bind_eq_bind, Option.bind_some, hvalue]
    exact dif_pos u.isLt
  rw [unitEscape, List.cons_append, List.cons_append, parseString.eq_def]
  simp only [List.cons_append, List.nil_append, hunit, Option.bind_some]
  rfl

theorem parseString_unitEscapes (us : List CodeUnit) (rest : List Char) :
    parseString (us.flatMap unitEscape ++ rest) =
      (parseString rest).map fun p => (us.map StrItem.unit ++ p.1, p.2) := by
  induction us with
  | nil => simp
  | cons u us ih =>
      rw [List.flatMap_cons, List.append_assoc, parseString_unitEscape, ih, Option.map_map]
      rfl

theorem parseString_escapeAscii (c : Char) (rest : List Char) :
    parseString (escapeAscii c ++ rest) =
      (parseString rest).map fun p => (asciiItems c ++ p.1, p.2) := by
  unfold escapeAscii asciiItems
  split
  · exact parseString_escapeChar c rest
  · exact parseString_unitEscapes _ rest

theorem parseString_ascii (s rest : List Char) :
    parseString (s.flatMap escapeAscii ++ '"' :: rest) = some (s.flatMap asciiItems, rest) := by
  induction s with
  | nil => exact parseString_close rest
  | cons c s ih =>
      rw [List.flatMap_cons, List.append_assoc, parseString_escapeAscii, ih, List.flatMap_cons]
      rfl

/-- A unit that opens no pair stands for itself, whatever item comes after it. -/
theorem pyDecodeStr_unit {u : CodeUnit} (h : u.isHigh = false) (rest : List StrItem) :
    pyDecodeStr (.unit u :: rest) = u.codePoint :: pyDecodeStr rest := by
  rcases rest with _ | ⟨c | v, rest⟩
  · rfl
  · rfl
  · simp only [pyDecodeStr, h, Bool.false_and, Bool.false_eq_true, if_false]

theorem pyDecodeStr_charItem_cons {c : Char} (rest : List StrItem) :
    pyDecodeStr (charItem c :: rest) = scalar c :: pyDecodeStr rest := by
  unfold charItem
  split
  · next h =>
      refine (pyDecodeStr_unit ?_ rest).trans rfl
      simp only [CodeUnit.isHigh, Bool.and_eq_false_iff, decide_eq_false_iff_not]
      omega
  · rfl

/-- The escapes of a character are joined to that character, and to nothing around them. -/
theorem pyDecodeStr_asciiItems (c : Char) (rest : List StrItem) :
    pyDecodeStr (asciiItems c ++ rest) = scalar c :: pyDecodeStr rest := by
  have hjoin := joinUnits_scalar_append c []
  rw [List.append_nil] at hjoin
  unfold asciiItems
  split
  · exact pyDecodeStr_charItem_cons rest
  · have hc := c.valid
    simp only [UInt32.isValidChar, Nat.isValidChar] at hc
    have hval : (scalar c).val = c.toNat := rfl
    simp only [Char.toNat] at hval
    unfold utf16 at hjoin ⊢
    split at hjoin
    · next h =>
        -- in the basic plane one unit, outside the surrogates
        rw [dif_pos h]
        refine (pyDecodeStr_unit ?_ rest).trans rfl
        simp only [CodeUnit.isHigh, Bool.and_eq_false_iff, decide_eq_false_iff_not, not_le, not_lt]
        omega
    · next h =>
        -- beyond it a pair
        rw [dif_neg h]
        have hlt := (scalar c).isLt
        have hpair : ∀ hh hl, (CodeUnit.isHigh ⟨0xD800 + ((scalar c).val - 0x10000) / 0x400, hh⟩ &&
            CodeUnit.isLow ⟨0xDC00 + ((scalar c).val - 0x10000) % 0x400, hl⟩) = true := by
          intro hh hl
          simp only [CodeUnit.isHigh, CodeUnit.isLow, Bool.and_eq_true, decide_eq_true_eq]
          omega
        simp only [joinUnits, hpair, if_true, List.cons.injEq, and_true] at hjoin
        simp only [List.map_cons, List.map_nil, List.cons_append, List.nil_append, pyDecodeStr, hpair,
          if_true, hjoin]

theorem pyDecodeStr_ascii (s : List Char) : pyDecodeStr (s.flatMap asciiItems) = s.map scalar := by
  induction s with
  | nil => rfl
  | cons c s ih => rw [List.flatMap_cons, pyDecodeStr_asciiItems, ih, List.map_cons]

/-- `json.dumps` with its strings in ASCII, and nothing after commas and colons. -/
def DumpStyle.ascii : DumpStyle where
  body s := s.flatMap escapeAscii
  items s := s.flatMap asciiItems
  gap := []
  parse_body := parseString_ascii
  decode_items := pyDecodeStr_ascii
  skip_gap _ := rfl

/-! ## The characters of a dump -/

section Characters

variable {st : DumpStyle} {P : Char → Prop}

theorem forall_mem_printInt (h : ∀ c, '0' ≤ c → c ≤ '9' → P c) (hminus : P '-') (n : ℤ) :
    ∀ c ∈ printInt n, P c := by
  have hdigit : ∀ d < 10, '0' ≤ Nat.digitChar d ∧ Nat.digitChar d ≤ '9' := by decide
  have hnumeral : ∀ n, ∀ c ∈ numeral n, P c := by
    intro n c hc
    obtain ⟨d, hd, rfl⟩ := List.mem_map.1 hc
    obtain ⟨hlo, hhi⟩ := hdigit d (numeralDigits_lt hd)
    exact h _ hlo hhi
  unfold printInt
  split
  · exact List.forall_mem_cons.2 ⟨hminus, hnumeral _⟩
  · exact hnumeral _

/-- A property of punctuation, letters of the constants, digits, gaps and string bodies holds of
    every character of a dump. -/
theorem forall_mem_dumps (hint : ∀ n, ∀ c ∈ printInt n, P c)
    (hmarks : ∀ c ∈ ['"', ',', ':', '[', ']', '{', '}'], P c)
    (hletters : ∀ c ∈ ['a', 'e', 'f', 'l', 'n', 'r', 's', 't', 'u'], P c)
    (hgap : ∀ c ∈ st.gap, P c) (hbody : ∀ s, ∀ c ∈ st.body s, P c) (v : PlainJson) :
    ∀ c ∈ v.dumps st, P c := by
  simp only [List.forall_mem_cons, List.not_mem_nil, false_implies, implies_true, and_true]
    at hmarks hletters
  obtain ⟨hquote, hcomma, hcolon, hopen, hclose, hbrace, hunbrace⟩ := hmarks
  obtain ⟨ha, he, hf, hl, hn, hr, hs, ht, hu⟩ := hletters
  have hliteral : ∀ s, ∀ c ∈ st.literal s, P c := by
    intro s
    simp only [DumpStyle.literal, List.forall_mem_cons, List.forall_mem_append, List.not_mem_nil,
      false_implies, implies_true, and_true]
    exact ⟨hquote, hbody s, hquote⟩
  -- the rest of an array and of an object, by induction along the list
  have hitems : ∀ xs : List PlainJson, (∀ x ∈ xs, ∀ c ∈ x.dumps st, P c) →
      ∀ c ∈ dumpItems st xs, P c := by
    intro xs
    induction xs with
    | nil => exact fun _ => List.forall_mem_singleton.2 hclose
    | cons x xs ih =>
        intro h
        rw [List.forall_mem_cons] at h
        simp only [dumpItems, List.forall_mem_cons, List.forall_mem_append]
        exact ⟨hcomma, hgap, h.1, ih h.2⟩
  have hmembers : ∀ ms : List (List Char × PlainJson), (∀ m ∈ ms, ∀ c ∈ m.2.dumps st, P c) →
      ∀ c ∈ dumpMembers st ms, P c := by
    intro ms
    induction ms with
    | nil => exact fun _ => List.forall_mem_singleton.2 hunbrace
    | cons m ms ih =>
        intro h
        obtain ⟨k, x⟩ := m
        rw [List.forall_mem_cons] at h
        simp only [dumpMembers, List.forall_mem_cons, List.forall_mem_append]
        exact ⟨hcomma, hgap, hliteral k, hcolon, hgap, h.1, ih h.2⟩
  induction v with
  | null =>
      simp only [PlainJson.dumps, List.forall_mem_cons, List.not_mem_nil, false_implies,
        implies_true, and_true]
      exact ⟨hn, hu, hl, hl⟩
  | bool b =>
      cases b with
      | true =>
          simp only [PlainJson.dumps, List.forall_mem_cons, List.not_mem_nil, false_implies,
            implies_true, and_true]
          exact ⟨ht, hr, hu, he⟩
      | false =>
          simp only [PlainJson.dumps, List.forall_mem_cons, List.not_mem_nil, false_implies,
            implies_true, and_true]
          exact ⟨hf, ha, hl, hs, he⟩
  | int n => exact hint n
  | str s => exact hliteral s
  | arr xs ih =>
      rcases xs with _ | ⟨x, xs⟩
      · rw [PlainJson.dumps]
        exact List.forall_mem_cons.2 ⟨hopen, List.forall_mem_singleton.2 hclose⟩
      · rw [List.forall_mem_cons] at ih
        simp only [PlainJson.dumps, List.forall_mem_cons, List.forall_mem_append]
        exact ⟨hopen, ih.1, hitems xs ih.2⟩
  | obj ms ih =>
      rcases ms with _ | ⟨⟨k, x⟩, ms⟩
      · rw [PlainJson.dumps]
        exact List.forall_mem_cons.2 ⟨hbrace, List.forall_mem_singleton.2 hunbrace⟩
      · rw [List.forall_mem_cons] at ih
        simp only [PlainJson.dumps, List.forall_mem_cons, List.forall_mem_append]
        exact ⟨hbrace, hliteral k, hcolon, hgap, ih.1, hmembers ms ih.2⟩

end Characters

theorem isAscii_escapeAscii (c : Char) : ∀ d ∈ escapeAscii c, 0 < d.toNat ∧ d.toNat < 0x80 := by
  have hhex : ∀ n < 16, 0 < (Nat.digitChar n).toNat ∧ (Nat.digitChar n).toNat < 0x80 := by decide
  have hunit : ∀ u : CodeUnit, ∀ d ∈ unitEscape u, 0 < d.toNat ∧ d.toNat < 0x80 := by
    intro u
    simp only [unitEscape, List.forall_mem_cons, List.not_mem_nil, false_implies, implies_true,
      and_true]
    exact ⟨by decide, by decide, hhex _ (by omega), hhex _ (by omega), hhex _ (by omega),
      hhex _ (by omega)⟩
  unfold escapeAscii
  split
  · next hlt =>
      unfold escapeChar
      split_ifs with h1 h2 h3 h4 h5 h6 h7 h8
      all_goals simp only [List.forall_mem_cons, List.not_mem_nil, false_implies, implies_true,
        and_true]
      any_goals decide
      · exact ⟨by decide, by decide, by decide, by decide, hhex _ (by omega), hhex _ (by omega)⟩
      · omega
  · intro d hd
    obtain ⟨u, -, hu⟩ := List.mem_flatMap.1 hd
    exact hunit u d hu

/-- A dump in the style `ascii` is ASCII, without a zero byte. -/
theorem isAscii_dumps (v : PlainJson) : ∀ c ∈ v.dumps .ascii, 0 < c.toNat ∧ c.toNat < 0x80 := by
  have hdigit : ∀ c : Char, '0' ≤ c → c ≤ '9' → 0 < c.toNat ∧ c.toNat < 0x80 := by
    intro c hlo hhi
    have hlo' : (48 : ℕ) ≤ c.toNat := hlo
    have hhi' : c.toNat ≤ 57 := hhi
    omega
  refine forall_mem_dumps (forall_mem_printInt hdigit (by decide)) ?_ ?_ ?_ ?_ v
  · simp only [List.forall_mem_cons, List.not_mem_nil, false_implies, implies_true, and_true]
    decide
  · simp only [List.forall_mem_cons, List.not_mem_nil, false_implies, implies_true, and_true]
    decide
  · exact fun _ hc => absurd hc (List.not_mem_nil)
  · intro s c hc
    obtain ⟨d, -, hd⟩ := List.mem_flatMap.1 hc
    exact isAscii_escapeAscii d c hd

/-- `json.loads` of `json.dumps(value).encode()`, through the detection of its encoding. -/
theorem jsonDocument_dumps (v : PlainJson) :
    jsonDocument (ascii (String.ofList (v.dumps .ascii))) = some (v.docIn .ascii) := by
  rw [jsonDocument_ascii (isAscii_dumps v), parseDoc_dumps]

/-! ## Sorted keys -/

mutual

/-- The value with the members of every object in the order of their names, by code points. -/
def PlainJson.sortKeys : PlainJson → PlainJson
  | .arr xs => .arr (sortItems xs)
  | .obj ms => .obj (sortByKey (List.map scalar) (sortMembers ms))
  | v => v

/-- The items with their names sorted. -/
def sortItems : List PlainJson → List PlainJson
  | [] => []
  | x :: xs => x.sortKeys :: sortItems xs

/-- The members with the names of their values sorted. -/
def sortMembers : List (List Char × PlainJson) → List (List Char × PlainJson)
  | [] => []
  | (k, x) :: ms => (k, x.sortKeys) :: sortMembers ms

end

@[simp]
theorem sortKeys_str (s : List Char) : (PlainJson.str s).sortKeys = .str s := by
  simp [PlainJson.sortKeys]

theorem sortMembers_eq_map (ms : List (List Char × PlainJson)) :
    sortMembers ms = ms.map (Prod.map id PlainJson.sortKeys) := by
  induction ms with
  | nil => rfl
  | cons m ms ih => rw [sortMembers, ih, List.map_cons]; rfl

theorem distinctKeys_obj_of_perm {ms ns : List (List Char × PlainJson)} (hperm : ms.Perm ns)
    (h : (PlainJson.obj ms).DistinctKeys) : (PlainJson.obj ns).DistinctKeys := by
  rw [PlainJson.DistinctKeys, membersDistinctKeys_iff] at h ⊢
  exact ⟨(hperm.map _).nodup_iff.1 h.1, fun m hm => h.2 m (hperm.mem_iff.2 hm)⟩

mutual

/-- Sorting keeps names apart. -/
theorem distinctKeys_sortKeys : ∀ v : PlainJson, v.DistinctKeys → v.sortKeys.DistinctKeys
  | .null, _ => trivial
  | .bool _, _ => trivial
  | .int _, _ => trivial
  | .str _, _ => trivial
  | .arr xs, h => by
      rw [PlainJson.DistinctKeys] at h
      rw [PlainJson.sortKeys, PlainJson.DistinctKeys]
      exact itemsDistinctKeys_sortItems xs h
  | .obj ms, h => by
      rw [PlainJson.DistinctKeys] at h
      rw [PlainJson.sortKeys]
      refine distinctKeys_obj_of_perm (sortByKey_perm (List.map scalar) (sortMembers ms)).symm ?_
      rw [PlainJson.DistinctKeys]
      refine ⟨?_, membersDistinctKeys_sortMembers ms h.2⟩
      rw [sortMembers_eq_map, List.map_map]
      exact h.1

theorem itemsDistinctKeys_sortItems :
    ∀ xs : List PlainJson, itemsDistinctKeys xs → itemsDistinctKeys (sortItems xs)
  | [], _ => trivial
  | x :: xs, h => ⟨distinctKeys_sortKeys x h.1, itemsDistinctKeys_sortItems xs h.2⟩

theorem membersDistinctKeys_sortMembers : ∀ ms : List (List Char × PlainJson),
    membersDistinctKeys ms → membersDistinctKeys (sortMembers ms)
  | [], _ => trivial
  | (_, x) :: ms, h => ⟨distinctKeys_sortKeys x h.1, membersDistinctKeys_sortMembers ms h.2⟩

end

/-- Where a name stands among the members is of no account for what it leads to. -/
theorem lookup_sortKeys {ms : List (List Char × PlainJson)} {k : List Char} {v : PlainJson}
    (hnodup : (ms.map Prod.fst).Nodup) (h : (k, v) ∈ ms) :
    (membersToPy (sortByKey (List.map scalar) (sortMembers ms))).lookup (.str (k.map scalar)) =
      some v.sortKeys.toPy := by
  have hperm := sortByKey_perm (List.map scalar) (sortMembers ms)
  have hnames : ((sortMembers ms).map Prod.fst).Nodup := by
    rw [sortMembers_eq_map, List.map_map]
    exact hnodup
  have hmem : (k, v.sortKeys) ∈ sortMembers ms := by
    rw [sortMembers_eq_map]
    exact List.mem_map.2 ⟨(k, v), h, rfl⟩
  refine lookup_of_mem (nodup_membersToPy ((hperm.map _).nodup_iff.2 hnames)) ?_
  rw [membersToPy_eq_map]
  exact List.mem_map.2 ⟨(k, v.sortKeys), hperm.mem_iff.2 hmem, rfl⟩

end AstroPassport
