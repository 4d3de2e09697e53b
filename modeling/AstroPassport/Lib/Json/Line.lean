import AstroPassport.Lib.Json.Python

set_option autoImplicit false

/-! # Objects on a line

What one program prints for another: an object on a line of its own, in compact text or with a blank
after each comma and colon, as `json.dumps` writes it by default. Both are read back as the object,
whatever white space ends the line.

A line is read by `json.loads` from its bytes. What stands behind the object does not change how the
object is read, because the parser consumes nothing of it (`parseDoc_append`), and white space is
skipped at the end. The blanks of the second spelling are skipped where the parser looks for the
next token. A program that reads a line of bounded length needs to know how long one can get: the
last section bounds the bytes of a compact object by the lengths of its names and values, an escaped
string having at most six characters for each of its own (`length_quote_le`). -/

namespace AstroPassport

/-! ## A text with white space behind it -/

theorem parseDoc_append {text rest : List Char} {d : JsonDoc}
    (hhead : skipSpace (text ++ rest) = text ++ rest)
    (hvalue : parseValue ((text ++ rest).length + 1) (text ++ rest) = some (d, rest))
    (hrest : skipSpace rest = []) : parseDoc (text ++ rest) = some d := by
  rw [parseDoc, hhead, hvalue, Option.bind_some, if_pos hrest]

/-- An object ends with its brace, so no number can run into what follows it. -/
theorem parseValue_print_obj (ms : List (List Char × PlainJson)) (fuel : ℕ) (r : List Char)
    (hf : (PlainJson.obj ms).print.length ≤ fuel) :
    parseValue fuel ((PlainJson.obj ms).print ++ r) = some ((PlainJson.obj ms).doc, r) := by
  obtain ⟨fuel, rfl⟩ : ∃ f, fuel = f + 1 := by
    obtain ⟨c, cs, hv, -, -⟩ := (PlainJson.obj ms).print_head
    exact ⟨fuel - 1, by rw [hv, List.length_cons] at hf; omega⟩
  rcases ms with _ | ⟨⟨k, x⟩, ms⟩
  · rw [PlainJson.print, PlainJson.doc, docMembers]
    rfl
  · rw [PlainJson.print] at hf
    simp only [List.length_cons, List.length_append] at hf
    have hmembers := parseMembers_print k x ms fuel r (by omega)
    rw [PlainJson.print, PlainJson.doc, List.cons_append, List.append_assoc]
    rw [quote, List.cons_append] at hmembers ⊢
    rw [parseValue_open_obj, hmembers]
    rfl

/-! ## Blanks after commas and colons -/

/-- The members after the first, each behind its comma, and the closing brace. -/
def printSpacedMembers : List (List Char × PlainJson) → List Char
  | [] => ['}']
  | (k, x) :: ms => ',' :: ' ' :: (quote k ++ ':' :: ' ' :: (x.print ++ printSpacedMembers ms))

/-- The text of an object with the default separators. The values keep their compact text: it is
    theirs when they are neither arrays nor objects. -/
def printSpaced : List (List Char × PlainJson) → List Char
  | [] => ['{', '}']
  | (k, x) :: ms => '{' :: (quote k ++ ':' :: ' ' :: (x.print ++ printSpacedMembers ms))

theorem endsNumber_printSpacedMembers (ms : List (List Char × PlainJson)) (r : List Char) :
    EndsNumber (printSpacedMembers ms ++ r) := by
  rcases ms with _ | ⟨⟨k, x⟩, ms⟩ <;> simp [printSpacedMembers, EndsNumber]

theorem skipSpace_blank (cs : List Char) : skipSpace (' ' :: cs) = skipSpace cs := by
  simp [skipSpace, isJsonSpace]

theorem skipSpace_quote (k cs : List Char) : skipSpace (quote k ++ cs) = quote k ++ cs :=
  skipSpace_of_head (by decide)

theorem skipSpace_printSpacedMembers (ms : List (List Char × PlainJson)) (r : List Char) :
    skipSpace (printSpacedMembers ms ++ r) = printSpacedMembers ms ++ r := by
  rcases ms with _ | ⟨⟨k, x⟩, ms⟩ <;> exact skipSpace_of_head (by decide)

theorem parseMembers_printSpaced (ms : List (List Char × PlainJson)) :
    ∀ (k : List Char) (x : PlainJson) (fuel : ℕ) (r : List Char),
    (quote k).length + (x.print.length + (printSpacedMembers ms).length) < fuel →
    parseMembers fuel (quote k ++ ':' :: ' ' :: (x.print ++ (printSpacedMembers ms ++ r)))
      = some ((k.map charItem, x.doc) :: docMembers ms, r) := by
  -- one turn of the loop for each member
  induction ms with
  | nil =>
      intro k x fuel r hf
      obtain ⟨fuel, rfl⟩ : ∃ f, fuel = f + 1 := ⟨fuel - 1, by omega⟩
      have hx := parseValue_print x fuel (printSpacedMembers [] ++ r) (by omega)
        (endsNumber_printSpacedMembers [] r)
      have hcolon : ∀ cs, skipSpace (':' :: cs) = ':' :: cs := fun cs =>
        skipSpace_of_head (by decide)
      rw [quote, List.cons_append, List.append_assoc, List.singleton_append, parseMembers]
      simp only [parseString_quote, Option.bind_some, hcolon, skipSpace_blank, skipSpace_print, hx,
        skipSpace_printSpacedMembers]
      rfl
  | cons m ms ih =>
      intro k x fuel r hf
      obtain ⟨k', y⟩ := m
      obtain ⟨fuel, rfl⟩ : ∃ f, fuel = f + 1 := ⟨fuel - 1, by omega⟩
      have hx := parseValue_print x fuel (printSpacedMembers ((k', y) :: ms) ++ r) (by omega)
        (endsNumber_printSpacedMembers _ r)
      have hcolon : ∀ cs, skipSpace (':' :: cs) = ':' :: cs := fun cs =>
        skipSpace_of_head (by decide)
      simp only [printSpacedMembers, List.length_cons, List.length_append] at hf
      have hrest := ih k' y fuel r (by omega)
      rw [quote, List.cons_append, List.append_assoc, List.singleton_append, parseMembers]
      simp only [parseString_quote, Option.bind_some, hcolon, skipSpace_blank, skipSpace_print, hx,
        skipSpace_printSpacedMembers]
      simp only [printSpacedMembers, List.cons_append, List.append_assoc, skipSpace_blank,
        skipSpace_quote, hrest, Option.map_some, docMembers]

theorem parseValue_printSpaced (ms : List (List Char × PlainJson)) (fuel : ℕ) (r : List Char)
    (hf : (printSpaced ms).length ≤ fuel) :
    parseValue fuel (printSpaced ms ++ r) = some ((PlainJson.obj ms).doc, r) := by
  obtain ⟨fuel, rfl⟩ : ∃ f, fuel = f + 1 := by
    refine ⟨fuel - 1, ?_⟩
    rcases ms with _ | ⟨⟨k, x⟩, ms⟩ <;> simp only [printSpaced, List.length_cons] at hf <;> omega
  rcases ms with _ | ⟨⟨k, x⟩, ms⟩
  · rw [printSpaced, PlainJson.doc, docMembers]
    rfl
  · rw [printSpaced] at hf
    simp only [List.length_cons, List.length_append] at hf
    have hmembers := parseMembers_printSpaced ms k x fuel r (by omega)
    rw [printSpaced, PlainJson.doc]
    simp only [List.cons_append, List.append_assoc]
    rw [quote, List.cons_append] at hmembers ⊢
    rw [parseValue_open_obj, hmembers]
    rfl

/-! ## Reading a line -/

section Lines

variable {ms : List (List Char × PlainJson)} {rest : List Char}

theorem parseDoc_print_obj (hrest : skipSpace rest = []) :
    parseDoc ((PlainJson.obj ms).print ++ rest) = some (PlainJson.obj ms).doc := by
  have hlength : (PlainJson.obj ms).print.length ≤ ((PlainJson.obj ms).print ++ rest).length + 1 := by
    rw [List.length_append]
    omega
  exact parseDoc_append (skipSpace_print _ rest) (parseValue_print_obj ms _ rest hlength) hrest

theorem parseDoc_printSpaced (hrest : skipSpace rest = []) :
    parseDoc (printSpaced ms ++ rest) = some (PlainJson.obj ms).doc := by
  have hhead : skipSpace (printSpaced ms ++ rest) = printSpaced ms ++ rest := by
    rcases ms with _ | ⟨⟨k, x⟩, ms⟩ <;> exact skipSpace_of_head (by decide)
  have hlength : (printSpaced ms).length ≤ (printSpaced ms ++ rest).length + 1 := by
    rw [List.length_append]
    omega
  exact parseDoc_append hhead (parseValue_printSpaced ms _ rest hlength) hrest

/-- The bytes of a line whose text is a document are loaded as what the document decodes to. -/
theorem jsonLoads_utf8 {text : List Char} {d : JsonDoc} (h : parseDoc text = some d) :
    jsonLoads (utf8 text) = some (pyDecode d) := by
  rw [jsonLoads, utf8_eq, List.utf8Decode?_utf8Encode, Option.bind_some, List.toList_toArray, h,
    Option.map_some]

/-- A compact object is read back from its line. -/
theorem jsonLoads_print_obj (hrest : skipSpace rest = []) (h : (PlainJson.obj ms).DistinctKeys) :
    jsonLoads (utf8 ((PlainJson.obj ms).print ++ rest)) = some (PlainJson.obj ms).toPy := by
  rw [jsonLoads_utf8 (parseDoc_print_obj hrest), pyDecode_doc _ h]

/-- And so is one with blanks. -/
theorem jsonLoads_printSpaced (hrest : skipSpace rest = []) (h : (PlainJson.obj ms).DistinctKeys) :
    jsonLoads (utf8 (printSpaced ms ++ rest)) = some (PlainJson.obj ms).toPy := by
  rw [jsonLoads_utf8 (parseDoc_printSpaced hrest), pyDecode_doc _ h]

end Lines

/-! ## How long a line is -/

/-- A character takes at most six in a string literal. -/
theorem length_quote_le (s : List Char) : (quote s).length ≤ 6 * s.length + 2 := by
  have hescape : ∀ c, (escapeChar c).length ≤ 6 := by
    intro c
    unfold escapeChar
    split_ifs <;> simp
  have hbody : (s.flatMap escapeChar).length ≤ 6 * s.length := by
    induction s with
    | nil => simp
    | cons c s ih =>
        have := hescape c
        rw [List.flatMap_cons, List.length_append, List.length_cons]
        omega
  rw [quote, List.length_cons, List.length_append, List.length_singleton]
  omega

/-- What a member adds to the text of its object. -/
def memberLength (m : List Char × PlainJson) : ℕ := (quote m.1).length + m.2.print.length + 2

theorem length_printMembers (ms : List (List Char × PlainJson)) :
    (printMembers ms).length = (ms.map memberLength).sum + 1 := by
  induction ms with
  | nil => rfl
  | cons m ms ih =>
      obtain ⟨k, x⟩ := m
      simp only [printMembers, List.length_cons, List.length_append, ih, List.map_cons,
        List.sum_cons, memberLength]
      omega

theorem length_print_obj_le (ms : List (List Char × PlainJson)) :
    (PlainJson.obj ms).print.length ≤ (ms.map memberLength).sum + 2 := by
  rcases ms with _ | ⟨⟨k, x⟩, ms⟩
  · exact le_rfl
  · simp only [PlainJson.print, List.length_cons, List.length_append, length_printMembers,
      List.map_cons, List.sum_cons, memberLength]
    omega

theorem size_utf8_le (s : List Char) : (utf8 s).size ≤ 4 * s.length := by
  rw [utf8_eq]
  induction s with
  | nil => simp
  | cons c s ih =>
      have hc := c.utf8Size_le_four
      rw [List.utf8Encode_cons, ByteArray.size_append, List.utf8Encode_singleton, List.length_cons]
      simp only [List.size_toByteArray, String.length_utf8EncodeChar]
      omega

end AstroPassport
