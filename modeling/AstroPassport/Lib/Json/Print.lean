import AstroPassport.Lib.Json.Syntax

set_option autoImplicit false

/-! # Compact JSON text

`PlainJson` is JSON with integers for numbers and scalar strings, objects in a fixed member order;
`PlainJson.print` writes it with no insignificant whitespace and the fewest escapes. The printed
text parses to the document the value spells (`parseDoc_print`), so the parser recovers the value
and printing is injective: two values with one text are one value, member order included.

The induction is over values, with the parser's fuel bounded by the length of the text and any text
behind it that does not carry a number on (`EndsNumber`). Strings and numbers have their own lemmas:
a printed string is read character by character up to its closing quote, an escape for a control
character through its four digits, and a printed integer is a sign and a numeral that the next
character ends. What a printed value begins with is never white space nor a bracket, so the parser
takes the branch of its constructor (`print_head`). -/

namespace AstroPassport

/-- JSON whose numbers are integers and whose strings hold no surrogate. -/
inductive PlainJson where
  | null
  | bool (b : Bool)
  | int (n : ℤ)
  | str (s : List Char)
  | arr (items : List PlainJson)
  | obj (members : List (List Char × PlainJson))

section Induction

variable {P : PlainJson → Prop} (null : P .null) (bool : ∀ b, P (.bool b)) (int : ∀ n, P (.int n))
  (str : ∀ s, P (.str s)) (arr : ∀ xs, (∀ x ∈ xs, P x) → P (.arr xs))
  (obj : ∀ ms, (∀ m ∈ ms, P m.2) → P (.obj ms))

include null bool int str arr obj

/-- Induction over a value, with the hypothesis for every item and every member's value. -/
@[elab_as_elim, induction_eliminator]
theorem PlainJson.induction_on (v : PlainJson) : P v :=
  @PlainJson.rec P (fun xs => ∀ x ∈ xs, P x) (fun ms => ∀ m ∈ ms, P m.2) (fun m => P m.2)
    null bool int str arr obj
    (fun _ h => by cases h)
    (fun _ _ hx hxs => List.forall_mem_cons.mpr ⟨hx, hxs⟩)
    (fun _ h => by cases h)
    (fun _ _ hm hms => List.forall_mem_cons.mpr ⟨hm, hms⟩)
    (fun _ _ h => h) v

end Induction

/-! ## Printing -/

/-- The decimal spelling of an integer. -/
def printInt (n : ℤ) : List Char := if n < 0 then '-' :: numeral n.natAbs else numeral n.natAbs

/-- A character inside a string literal: the two-character escapes, `\u00XX` for the other control
    characters, and everything else as it is. -/
def escapeChar (c : Char) : List Char :=
  if c = '"' then ['\\', '"'] else if c = '\\' then ['\\', '\\']
  else if c = '\x08' then ['\\', 'b'] else if c = '\x0c' then ['\\', 'f']
  else if c = '\n' then ['\\', 'n'] else if c = '\r' then ['\\', 'r']
  else if c = '\t' then ['\\', 't']
  else if c.toNat < 0x20 then
    ['\\', 'u', '0', '0', Nat.digitChar (c.toNat / 16), Nat.digitChar (c.toNat % 16)]
  else [c]

/-- A string literal. -/
def quote (s : List Char) : List Char := '"' :: (s.flatMap escapeChar ++ ['"'])

mutual

/-- The compact text of a value. -/
def PlainJson.print : PlainJson → List Char
  | .null => ['n', 'u', 'l', 'l']
  | .bool true => ['t', 'r', 'u', 'e']
  | .bool false => ['f', 'a', 'l', 's', 'e']
  | .int n => printInt n
  | .str s => quote s
  | .arr [] => ['[', ']']
  | .arr (x :: xs) => '[' :: (x.print ++ printItems xs)
  | .obj [] => ['{', '}']
  | .obj ((k, x) :: ms) => '{' :: (quote k ++ ':' :: (x.print ++ printMembers ms))

/-- The items after the first, each behind its comma, and the closing bracket. -/
def printItems : List PlainJson → List Char
  | [] => [']']
  | x :: xs => ',' :: (x.print ++ printItems xs)

/-- The members after the first, each behind its comma, and the closing brace. -/
def printMembers : List (List Char × PlainJson) → List Char
  | [] => ['}']
  | (k, x) :: ms => ',' :: (quote k ++ ':' :: (x.print ++ printMembers ms))

end

/-- An array is its items between commas. -/
theorem print_arr (xs : List PlainJson) :
    (PlainJson.arr xs).print = '[' :: ([','].intercalate (xs.map PlainJson.print) ++ [']']) := by
  have htail : ∀ (x : PlainJson) (xs : List PlainJson), x.print ++ printItems xs
      = [','].intercalate ((x :: xs).map PlainJson.print) ++ [']'] := by
    intro x xs
    induction xs generalizing x with
    | nil => simp [printItems]
    | cons y ys ih => simp [printItems, ih y]
  cases xs with
  | nil => rfl
  | cons x xs => rw [PlainJson.print, htail]

/-- The text of one member. -/
def printMember (m : List Char × PlainJson) : List Char := quote m.1 ++ ':' :: m.2.print

/-- An object is its members between commas. -/
theorem print_obj (ms : List (List Char × PlainJson)) :
    (PlainJson.obj ms).print = '{' :: ([','].intercalate (ms.map printMember) ++ ['}']) := by
  have htail : ∀ (m : List Char × PlainJson) (ms : List (List Char × PlainJson)),
      quote m.1 ++ ':' :: (m.2.print ++ printMembers ms)
        = [','].intercalate ((m :: ms).map printMember) ++ ['}'] := by
    intro m ms
    induction ms generalizing m with
    | nil => simp [printMembers, printMember]
    | cons n ns ih => simp [printMembers, printMember, ih n]
  cases ms with
  | nil => rfl
  | cons m ms => rw [PlainJson.print, htail]

/-! ## The document a value spells -/

/-- The string item a printed character parses to: only the control characters without an escape of
    their own come back as code units. -/
def charItem (c : Char) : StrItem :=
  if h : c.toNat < 0x20 ∧ c ≠ '\x08' ∧ c ≠ '\x0c' ∧ c ≠ '\n' ∧ c ≠ '\r' ∧ c ≠ '\t'
  then .unit ⟨c.toNat, by omega⟩ else .chr c

/-- An integer as a literal with no fraction and no exponent. -/
def intLit (n : ℤ) : NumLit := ⟨decide (n < 0), n.natAbs, none, none⟩

mutual

/-- The document a value spells. -/
def PlainJson.doc : PlainJson → JsonDoc
  | .null => .null
  | .bool b => .bool b
  | .int n => .num (intLit n)
  | .str s => .str (s.map charItem)
  | .arr xs => .arr (docItems xs)
  | .obj ms => .obj (docMembers ms)

/-- The documents of the items. -/
def docItems : List PlainJson → List JsonDoc
  | [] => []
  | x :: xs => x.doc :: docItems xs

/-- The documents of the members, their names character by character. -/
def docMembers : List (List Char × PlainJson) → List (List StrItem × JsonDoc)
  | [] => []
  | (k, x) :: ms => (k.map charItem, x.doc) :: docMembers ms

end

/-! ## Strings -/

theorem hexUnit?_control {n : ℕ} (h : n < 0x20) :
    hexUnit? '0' '0' (Nat.digitChar (n / 16)) (Nat.digitChar (n % 16)) = some ⟨n, by omega⟩ := by
  have h0 : hexDigit? '0' = some 0 := by decide
  have h1 := hexDigit?_digitChar (d := n / 16) (by omega)
  have h2 := hexDigit?_digitChar (d := n % 16) (by omega)
  have hn : ((0 * 16 + 0) * 16 + n / 16) * 16 + n % 16 = n := by omega
  simp only [hexUnit?, h0, h1, h2, Option.bind_eq_bind, Option.bind_some, hn]
  rw [dif_pos (show n < 0x10000 by omega)]

theorem parseString_close (rest : List Char) : parseString ('"' :: rest) = some ([], rest) := by
  rw [parseString.eq_def]
  rfl

theorem parseString_raw {c : Char} (h1 : c ≠ '"') (h2 : c ≠ '\\') (h3 : ¬ c.toNat < 0x20)
    (rest : List Char) :
    parseString (c :: rest) = (parseString rest).map fun p => (.chr c :: p.1, p.2) := by
  rw [parseString.eq_def]
  simp only [h1, h2, h3, if_false]

/-- A printed character is read back as its item. -/
theorem parseString_escapeChar (c : Char) (rest : List Char) :
    parseString (escapeChar c ++ rest)
      = (parseString rest).map fun p => (charItem c :: p.1, p.2) := by
  unfold escapeChar
  split_ifs with h1 h2 h3 h4 h5 h6 h7 h8
  · subst h1; rfl
  · subst h2; rfl
  · subst h3; rfl
  · subst h4; rfl
  · subst h5; rfl
  · subst h6; rfl
  · subst h7; rfl
  · have hitem : charItem c = .unit ⟨c.toNat, by omega⟩ := dif_pos ⟨h8, h3, h4, h5, h6, h7⟩
    simp only [List.cons_append, List.nil_append, parseString, if_true, hexUnit?_control h8,
      Option.bind_some, hitem]
    simp
  · have hitem : charItem c = .chr c := dif_neg fun h => h8 h.1
    rw [hitem, List.singleton_append, parseString_raw h1 h2 h8]

/-- A printed string is read back as its items. -/
theorem parseString_quote (s rest : List Char) :
    parseString (s.flatMap escapeChar ++ '"' :: rest) = some (s.map charItem, rest) := by
  induction s with
  | nil => exact parseString_close rest
  | cons c s ih =>
      rw [List.flatMap_cons, List.append_assoc, parseString_escapeChar, ih]
      rfl

/-! ## Numbers -/

/-- What may follow a number in a printed text. -/
def EndsNumber (r : List Char) : Prop := ∀ c ∈ r.head?, c = ',' ∨ c = ']' ∨ c = '}'

theorem EndsNumber.stopsDigits {r : List Char} (h : EndsNumber r) : StopsDigits r := by
  intro c hc
  rcases h c hc with rfl | rfl | rfl <;> decide

theorem endsNumber_nil : EndsNumber [] := by simp [EndsNumber]

theorem endsNumber_printItems (xs : List PlainJson) (r : List Char) :
    EndsNumber (printItems xs ++ r) := by
  cases xs <;> simp [printItems, EndsNumber]

theorem endsNumber_printMembers (ms : List (List Char × PlainJson)) (r : List Char) :
    EndsNumber (printMembers ms ++ r) := by
  cases ms <;> simp [printMembers, EndsNumber]

theorem parseInt_numeral (n : ℕ) {r : List Char} (hr : StopsDigits r) :
    parseInt (numeral n ++ r) = some (n, r) := by
  unfold parseInt
  rw [spanDigits_numeral n hr]
  have hval := fromDigits_numeralDigits n
  by_cases hn : n = 0
  · subst hn
    rfl
  · cases h : numeralDigits n with
    | nil => exact absurd h (numeralDigits_ne_nil n)
    | cons d ds =>
        have hd := numeralDigits_head h hn
        rw [h] at hval
        cases d with
        | zero => exact absurd rfl hd
        | succ d => simp [hval]

theorem parseFrac_of_endsNumber {r : List Char} (h : EndsNumber r) : parseFrac r = (none, r) := by
  cases r with
  | nil => rfl
  | cons c r => rcases h c rfl with rfl | rfl | rfl <;> rfl

theorem parseExp_of_endsNumber {r : List Char} (h : EndsNumber r) : parseExp r = (none, r) := by
  cases r with
  | nil => rfl
  | cons c r => rcases h c rfl with rfl | rfl | rfl <;> rfl

/-- The first character of a numeral is a digit. -/
theorem numeral_head (n : ℕ) : ∃ d < 10, ∃ cs, numeral n = Nat.digitChar d :: cs := by
  unfold numeral
  cases h : numeralDigits n with
  | nil => exact absurd h (numeralDigits_ne_nil n)
  | cons d ds => exact ⟨d, numeralDigits_lt (h ▸ List.mem_cons_self ..), _, rfl⟩

theorem digitChar_ne {d : ℕ} (h : d < 10) {c : Char} (hc : digit? c = none) :
    Nat.digitChar d ≠ c := by
  rintro rfl
  simp [digit?_digitChar h] at hc

theorem parseNumber_printInt (n : ℤ) {r : List Char} (hr : EndsNumber r) :
    parseNumber (printInt n ++ r) = some (intLit n, r) := by
  obtain ⟨d, hd, cs, hcs⟩ := numeral_head n.natAbs
  have hminus : Nat.digitChar d ≠ '-' := digitChar_ne hd (by decide)
  unfold printInt parseNumber intLit
  split
  · next hneg =>
      simp [parseInt_numeral _ hr.stopsDigits, parseFrac_of_endsNumber hr,
        parseExp_of_endsNumber hr, hneg]
  · next hneg =>
      have hhead : (numeral n.natAbs ++ r).head? ≠ some '-' := by simp [hcs, hminus]
      have hbeq : ((numeral n.natAbs ++ r).head? == some '-') = false := beq_false_of_ne hhead
      simp only [if_neg hhead, hbeq, parseInt_numeral _ hr.stopsDigits, Option.map_some,
        parseFrac_of_endsNumber hr, parseExp_of_endsNumber hr, decide_eq_false hneg]

/-- A printed number sends the value parser to the number parser. -/
theorem parseValue_printInt (fuel : ℕ) (n : ℤ) {r : List Char} (hr : EndsNumber r) :
    parseValue (fuel + 1) (printInt n ++ r) = some (.num (intLit n), r) := by
  have hnum := parseNumber_printInt n hr
  obtain ⟨d, hd, cs, hcs⟩ := numeral_head n.natAbs
  -- a digit or a minus begins neither a text, a container nor a word
  have key : ∀ c rest, printInt n ++ r = c :: rest →
      (c = Nat.digitChar d ∨ c = '-' ∧ rest.head? ≠ some 'I') →
      parseValue (fuel + 1) (c :: rest) = (parseNumber (c :: rest)).map fun p => (.num p.1, p.2) := by
    intro c rest _ hc
    rcases hc with rfl | ⟨rfl, hI⟩
    · have hne : ∀ {e : Char}, digit? e = none → Nat.digitChar d ≠ e := fun he => digitChar_ne hd he
      simp [parseValue, hne (e := '"') (by decide), hne (e := '[') (by decide),
        hne (e := '{') (by decide), hne (e := 'n') (by decide), hne (e := 't') (by decide),
        hne (e := 'f') (by decide), hne (e := 'N') (by decide), hne (e := 'I') (by decide),
        hne (e := '-') (by decide)]
    · simp [parseValue, hI]
  unfold printInt at hnum key ⊢
  split at hnum
  · next hneg =>
      simp only [hneg, if_true, List.cons_append] at key hnum ⊢
      rw [key '-' _ rfl (Or.inr ⟨rfl, ?_⟩), hnum]
      · rfl
      · simp [hcs, digitChar_ne hd (c := 'I') (by decide)]
  · next hneg =>
      simp only [hneg, if_false] at key ⊢
      rw [hcs, List.cons_append] at key hnum ⊢
      rw [key _ _ rfl (Or.inl rfl), hnum]
      rfl

/-! ## Values -/

theorem printInt_head (n : ℤ) :
    ∃ c cs, printInt n = c :: cs ∧ isJsonSpace c = false ∧ c ≠ ']' := by
  obtain ⟨d, hd, cs, hcs⟩ := numeral_head n.natAbs
  unfold printInt
  split
  · exact ⟨'-', _, rfl, by decide, by decide⟩
  · refine ⟨_, cs, hcs, ?_, digitChar_ne hd (by decide)⟩
    have hall : ∀ d < 10, isJsonSpace (Nat.digitChar d) = false := by decide
    exact hall d hd

/-- A printed value starts with neither whitespace nor a closing bracket. -/
theorem PlainJson.print_head (v : PlainJson) :
    ∃ c cs, v.print = c :: cs ∧ isJsonSpace c = false ∧ c ≠ ']' := by
  cases v with
  | null => exact ⟨'n', _, rfl, by decide, by decide⟩
  | bool b => cases b <;> exact ⟨_, _, rfl, by decide, by decide⟩
  | int n => simpa only [PlainJson.print] using printInt_head n
  | str s => exact ⟨'"', _, by rw [PlainJson.print, quote], by decide, by decide⟩
  | arr xs => cases xs <;> exact ⟨'[', _, by rw [PlainJson.print], by decide, by decide⟩
  | obj ms =>
      rcases ms with _ | ⟨⟨k, x⟩, ms⟩ <;>
        exact ⟨'{', _, by rw [PlainJson.print], by decide, by decide⟩

theorem skipSpace_of_head {c : Char} {cs : List Char} (h : isJsonSpace c = false) :
    skipSpace (c :: cs) = c :: cs := by simp [skipSpace, h]

theorem skipSpace_print (v : PlainJson) (r : List Char) :
    skipSpace (v.print ++ r) = v.print ++ r := by
  obtain ⟨c, cs, hv, hc, _⟩ := v.print_head
  rw [hv, List.cons_append, skipSpace_of_head hc]

theorem skipSpace_printItems (xs : List PlainJson) (r : List Char) :
    skipSpace (printItems xs ++ r) = printItems xs ++ r := by
  cases xs <;> exact skipSpace_of_head (by decide)

theorem skipSpace_printMembers (ms : List (List Char × PlainJson)) (r : List Char) :
    skipSpace (printMembers ms ++ r) = printMembers ms ++ r := by
  cases ms with
  | nil => exact skipSpace_of_head (by decide)
  | cons m ms =>
      obtain ⟨k, x⟩ := m
      exact skipSpace_of_head (by decide)

theorem length_printItems_pos (xs : List PlainJson) : 0 < (printItems xs).length := by
  cases xs <;> simp [printItems]

theorem length_printMembers_pos (ms : List (List Char × PlainJson)) :
    0 < (printMembers ms).length := by
  rcases ms with _ | ⟨⟨k, x⟩, ms⟩ <;> simp [printMembers]

/-- A non-empty array whose items parse, parses. -/
theorem parseValue_open_arr {fuel : ℕ} {c : Char} {cs : List Char} (hc : isJsonSpace c = false)
    (hne : c ≠ ']') :
    parseValue (fuel + 1) ('[' :: c :: cs)
      = (parseItems fuel (c :: cs)).map fun p => (.arr p.1, p.2) := by
  rw [parseValue.eq_def]
  simp only [skipSpace_of_head hc]
  split
  · next h => cases h
  · simp only [Char.reduceEq, if_false, if_true]
    split
    · next h =>
        cases h
        exact absurd rfl hne
    · rfl

/-- A non-empty object whose members parse, parses. -/
theorem parseValue_open_obj {fuel : ℕ} {cs : List Char} :
    parseValue (fuel + 1) ('{' :: '"' :: cs)
      = (parseMembers fuel ('"' :: cs)).map fun p => (.obj p.1, p.2) := by
  rw [parseValue.eq_def]
  rfl

mutual

/-- A printed value, whatever follows it, parses to its document. -/
theorem parseValue_print (v : PlainJson) (fuel : ℕ) (r : List Char)
    (hf : v.print.length ≤ fuel) (hr : EndsNumber r) :
    parseValue fuel (v.print ++ r) = some (v.doc, r) := by
  -- no value prints as the empty text, so there is fuel for one turn
  obtain ⟨fuel, rfl⟩ : ∃ f, fuel = f + 1 := by
    obtain ⟨c, cs, hv, -, -⟩ := v.print_head
    exact ⟨fuel - 1, by rw [hv, List.length_cons] at hf; omega⟩
  match v with
  | .null => rw [PlainJson.print, PlainJson.doc]; rfl
  | .bool true => rw [PlainJson.print, PlainJson.doc]; rfl
  | .bool false => rw [PlainJson.print, PlainJson.doc]; rfl
  | .int n =>
      rw [PlainJson.print, PlainJson.doc]
      exact parseValue_printInt fuel n hr
  | .str s =>
      rw [PlainJson.print, PlainJson.doc, quote, List.cons_append, List.append_assoc,
        List.singleton_append, parseValue.eq_def]
      simp only [if_true, parseString_quote, Option.map_some]
  | .arr [] => rw [PlainJson.print, PlainJson.doc, docItems]; rfl
  | .arr (x :: xs) =>
      rw [PlainJson.print] at hf
      simp only [List.length_cons, List.length_append] at hf
      obtain ⟨c, cs, hx, hc, hne⟩ := x.print_head
      have hitems := parseItems_print x xs fuel r (by omega)
      rw [PlainJson.print, PlainJson.doc, List.cons_append, List.append_assoc]
      rw [hx, List.cons_append] at hitems ⊢
      rw [parseValue_open_arr hc hne, hitems]
      rfl
  | .obj [] => rw [PlainJson.print, PlainJson.doc, docMembers]; rfl
  | .obj ((k, x) :: ms) =>
      rw [PlainJson.print] at hf
      simp only [List.length_cons, List.length_append] at hf
      have hmembers := parseMembers_print k x ms fuel r (by omega)
      rw [PlainJson.print, PlainJson.doc, List.cons_append, List.append_assoc]
      rw [quote, List.cons_append] at hmembers ⊢
      rw [parseValue_open_obj, hmembers]
      rfl
termination_by fuel

theorem parseItems_print (x : PlainJson) (xs : List PlainJson) (fuel : ℕ) (r : List Char)
    (hf : x.print.length + (printItems xs).length ≤ fuel) :
    parseItems fuel (x.print ++ (printItems xs ++ r)) = some (x.doc :: docItems xs, r) := by
  have hpos := length_printItems_pos xs
  obtain ⟨fuel, rfl⟩ : ∃ f, fuel = f + 1 := ⟨fuel - 1, by omega⟩
  have hx := parseValue_print x fuel (printItems xs ++ r) (by omega) (endsNumber_printItems xs r)
  rw [parseItems, hx, Option.bind_some, skipSpace_printItems]
  match xs with
  | [] => simp [printItems, docItems]
  | y :: ys =>
      simp only [printItems, List.length_cons, List.length_append] at hf
      have hrest := parseItems_print y ys fuel r (by omega)
      simp only [printItems, List.cons_append, List.append_assoc, skipSpace_print, hrest,
        Option.map_some, docItems]
termination_by fuel

theorem parseMembers_print (k : List Char) (x : PlainJson) (ms : List (List Char × PlainJson))
    (fuel : ℕ) (r : List Char)
    (hf : (quote k).length + (x.print.length + (printMembers ms).length) < fuel) :
    parseMembers fuel (quote k ++ ((':' :: (x.print ++ printMembers ms)) ++ r))
      = some ((k.map charItem, x.doc) :: docMembers ms, r) := by
  have hpos := length_printMembers_pos ms
  obtain ⟨fuel, rfl⟩ : ∃ f, fuel = f + 1 := ⟨fuel - 1, by omega⟩
  have hx := parseValue_print x fuel (printMembers ms ++ r) (by omega)
    (endsNumber_printMembers ms r)
  have hcolon : ∀ cs, skipSpace (':' :: cs) = ':' :: cs := fun cs =>
    skipSpace_of_head (by decide)
  rw [quote, List.cons_append, List.append_assoc, List.singleton_append, parseMembers]
  simp only [parseString_quote, Option.bind_some, List.cons_append, hcolon, List.append_assoc,
    skipSpace_print, hx, skipSpace_printMembers]
  match ms with
  | [] => simp [printMembers, docMembers]
  | (k', y) :: ms =>
      simp only [printMembers, List.length_cons, List.length_append] at hf
      have hrest := parseMembers_print k' y ms fuel r (by omega)
      have hquote : ∀ cs, skipSpace (quote k' ++ cs) = quote k' ++ cs := fun cs =>
        skipSpace_of_head (by decide)
      simp only [List.cons_append, List.append_assoc] at hrest
      simp only [printMembers, List.cons_append, List.append_assoc, hquote, hrest,
        Option.map_some, docMembers]
termination_by fuel

end

/-- **Round trip.** The compact text of a value parses to the document it spells. -/
theorem parseDoc_print (v : PlainJson) : parseDoc v.print = some v.doc := by
  have hspace := skipSpace_print v []
  have hval := parseValue_print v (v.print.length + 1) [] (by omega) endsNumber_nil
  rw [List.append_nil] at hspace hval
  rw [parseDoc, hspace, hval, Option.bind_some]
  rfl

/-! ## A document spells one value -/

theorem charItem_injective : Function.Injective charItem := by
  intro c d h
  unfold charItem at h
  split at h <;> split at h
  · simp only [StrItem.unit.injEq, Fin.mk.injEq] at h
    exact Char.toNat_inj.mp h
  · cases h
  · cases h
  · exact StrItem.chr.inj h

theorem intLit_injective : Function.Injective intLit := by
  intro m n h
  simp only [intLit, NumLit.mk.injEq, and_true, decide_eq_decide] at h
  omega

mutual

theorem PlainJson.doc_injective : ∀ v w : PlainJson, v.doc = w.doc → v = w
  | .null, w, h => by cases w <;> simp_all [PlainJson.doc]
  | .bool b, w, h => by cases w <;> simp_all [PlainJson.doc]
  | .int n, w, h => by
      cases w <;> simp only [PlainJson.doc, JsonDoc.num.injEq, reduceCtorEq] at h
      rw [intLit_injective h]
  | .str s, w, h => by
      cases w <;> simp only [PlainJson.doc, JsonDoc.str.injEq, reduceCtorEq] at h
      rw [charItem_injective.list_map h]
  | .arr xs, w, h => by
      cases w <;> simp only [PlainJson.doc, JsonDoc.arr.injEq, reduceCtorEq] at h
      rw [docItems_injective xs _ h]
  | .obj ms, w, h => by
      cases w <;> simp only [PlainJson.doc, JsonDoc.obj.injEq, reduceCtorEq] at h
      rw [docMembers_injective ms _ h]

theorem docItems_injective : ∀ xs ys : List PlainJson, docItems xs = docItems ys → xs = ys
  | [], ys, h => by cases ys <;> simp_all [docItems]
  | x :: xs, ys, h => by
      cases ys with
      | nil => simp [docItems] at h
      | cons y ys =>
          simp only [docItems, List.cons.injEq] at h
          rw [PlainJson.doc_injective x y h.1, docItems_injective xs ys h.2]

theorem docMembers_injective :
    ∀ ms ns : List (List Char × PlainJson), docMembers ms = docMembers ns → ms = ns
  | [], ns, h => by rcases ns with _ | ⟨⟨k, x⟩, ns⟩ <;> simp_all [docMembers]
  | (k, x) :: ms, ns, h => by
      rcases ns with _ | ⟨⟨l, y⟩, ns⟩
      · simp [docMembers] at h
      · simp only [docMembers, List.cons.injEq, Prod.mk.injEq] at h
        rw [charItem_injective.list_map h.1.1, PlainJson.doc_injective x y h.1.2,
          docMembers_injective ms ns h.2]

end

/-- The compact text determines the value. -/
theorem PlainJson.print_injective : Function.Injective PlainJson.print := by
  intro v w h
  have hdoc : some v.doc = some w.doc := by rw [← parseDoc_print v, h, parseDoc_print w]
  exact PlainJson.doc_injective v w (Option.some.inj hdoc)

end AstroPassport
