import AstroPassport.Lib.Digits
import AstroPassport.Lib.Unicode
import Mathlib.Data.Rat.Cast.Defs

set_option autoImplicit false

/-! # JSON documents

The syntax tree of a JSON text and the parser that reads it. What decoders do differently (number
types, joining of escaped surrogates, repeated member names) is left in the tree: a number keeps the
parts of its literal, a string keeps each `\u` escape apart from the characters around it, an object
keeps every member in order. The constants `NaN`, `Infinity` and `-Infinity`, which some decoders
read as well, have a constructor of their own; `JsonDoc.standard` says that none occurs.

The parser is recursive on fuel: a value needs one unit, an array and an object one more for each
item. It reads the text from the left, with the white space of JSON between tokens and nothing after
the value but more of it. What it accepts beyond the grammar of the standard is the three constants
only, and what it does not limit is the length of a numeral and the depth of nesting. -/

namespace AstroPassport

/-- A number literal: sign, integer part, digits after the point, exponent. -/
structure NumLit where
  neg : Bool
  int : ℕ
  frac : Option (List ℕ)
  exp : Option ℤ
  deriving DecidableEq

/-- The magnitude a literal denotes. -/
def NumLit.magnitude (l : NumLit) : ℚ :=
  (l.int + fromDigits (l.frac.getD []) / 10 ^ (l.frac.getD []).length) * 10 ^ l.exp.getD 0

/-- One item of a string literal: a character, written raw or with a short escape, or a code unit
    written `\uXXXX`. -/
inductive StrItem where
  | chr (c : Char)
  | unit (u : CodeUnit)
  deriving DecidableEq

/-- The constants outside the JSON grammar that lenient decoders read. -/
inductive JsonConst where
  | nan
  | infinity
  | negInfinity
  deriving DecidableEq

/-- A JSON document. -/
inductive JsonDoc where
  | null
  | bool (b : Bool)
  | const (c : JsonConst)
  | num (l : NumLit)
  | str (s : List StrItem)
  | arr (items : List JsonDoc)
  | obj (members : List (List StrItem × JsonDoc))

section Induction

variable {P : JsonDoc → Prop} (null : P .null) (bool : ∀ b, P (.bool b)) (const : ∀ c, P (.const c))
  (num : ∀ l, P (.num l)) (str : ∀ s, P (.str s)) (arr : ∀ xs, (∀ x ∈ xs, P x) → P (.arr xs))
  (obj : ∀ ms, (∀ m ∈ ms, P m.2) → P (.obj ms))

include null bool const num str arr obj

/-- Induction over a document, with the hypothesis for every item and every member's value. -/
@[elab_as_elim, induction_eliminator]
theorem JsonDoc.induction_on (d : JsonDoc) : P d :=
  @JsonDoc.rec P (fun xs => ∀ x ∈ xs, P x) (fun ms => ∀ m ∈ ms, P m.2) (fun m => P m.2)
    null bool const num str arr obj
    (fun _ h => by cases h)
    (fun _ _ hx hxs => List.forall_mem_cons.mpr ⟨hx, hxs⟩)
    (fun _ h => by cases h)
    (fun _ _ hm hms => List.forall_mem_cons.mpr ⟨hm, hms⟩)
    (fun _ _ h => h) d

end Induction

/-! ## Documents of the standard grammar -/

mutual

/-- No constant outside the JSON grammar occurs. -/
def JsonDoc.standard : JsonDoc → Bool
  | .const _ => false
  | .arr items => standardItems items
  | .obj members => standardMembers members
  | _ => true

/-- No constant outside the standard below the items. -/
def standardItems : List JsonDoc → Bool
  | [] => true
  | d :: ds => d.standard && standardItems ds

/-- No constant outside the standard below the members. -/
def standardMembers : List (List StrItem × JsonDoc) → Bool
  | [] => true
  | (_, d) :: ms => d.standard && standardMembers ms

end

theorem standardItems_iff {ds : List JsonDoc} :
    standardItems ds = true ↔ ∀ d ∈ ds, d.standard = true := by
  induction ds with
  | nil => simp [standardItems]
  | cons d ds ih => rw [standardItems, Bool.and_eq_true, ih, List.forall_mem_cons]

theorem standardMembers_iff {ms : List (List StrItem × JsonDoc)} :
    standardMembers ms = true ↔ ∀ m ∈ ms, m.2.standard = true := by
  induction ms with
  | nil => simp [standardMembers]
  | cons m ms ih =>
      obtain ⟨k, d⟩ := m
      rw [standardMembers, Bool.and_eq_true, ih, List.forall_mem_cons]

/-! ## Tokens -/

/-- The white space of JSON. -/
def isJsonSpace (c : Char) : Bool := c == ' ' || c == '\t' || c == '\n' || c == '\r'

/-- Skip insignificant whitespace. -/
def skipSpace : List Char → List Char
  | [] => []
  | c :: cs => if isJsonSpace c then skipSpace cs else c :: cs

/-- The code unit of four hexadecimal digits. -/
def hexUnit? (a b c d : Char) : Option CodeUnit := do
  let a ← hexDigit? a
  let b ← hexDigit? b
  let c ← hexDigit? c
  let d ← hexDigit? d
  let n := ((a * 16 + b) * 16 + c) * 16 + d
  if h : n < 0x10000 then some ⟨n, h⟩ else none

/-- The character of a two-character escape. -/
def shortEscape? (c : Char) : Option Char :=
  if c = '"' then some '"' else if c = '\\' then some '\\' else if c = '/' then some '/'
  else if c = 'b' then some '\x08' else if c = 'f' then some '\x0c' else if c = 'n' then some '\n'
  else if c = 'r' then some '\r' else if c = 't' then some '\t' else none

/-- A string literal after its opening quote. -/
def parseString : List Char → Option (List StrItem × List Char)
  | [] => none
  | c :: cs =>
    if c = '"' then some ([], cs)
    else if c = '\\' then
      match cs with
      | 'u' :: h1 :: h2 :: h3 :: h4 :: rest =>
        (hexUnit? h1 h2 h3 h4).bind fun u =>
          (parseString rest).map fun p => (.unit u :: p.1, p.2)
      | e :: rest =>
        (shortEscape? e).bind fun d => (parseString rest).map fun p => (.chr d :: p.1, p.2)
      | [] => none
    else if c.toNat < 0x20 then none
    else (parseString cs).map fun p => (.chr c :: p.1, p.2)

/-- The integer part of a number: `0`, or digits not starting with `0`. -/
def parseInt (cs : List Char) : Option (ℕ × List Char) :=
  match spanDigits cs with
  | ([], _) => none
  | (0 :: _, _) => some (0, cs.tail)
  | (ds, rest) => some (fromDigits ds, rest)

/-- The digits after a point; a point with no digit after it is left in the text. -/
def parseFrac : List Char → Option (List ℕ) × List Char
  | '.' :: cs =>
    match spanDigits cs with
    | ([], _) => (none, '.' :: cs)
    | (ds, rest) => (some ds, rest)
  | cs => (none, cs)

/-- The exponent; an exponent mark with no digit after it is left in the text. -/
def parseExp (cs : List Char) : Option ℤ × List Char :=
  match cs with
  | c :: rest =>
    if c = 'e' ∨ c = 'E' then
      let neg := rest.head? == some '-'
      let rest := if rest.head? = some '-' ∨ rest.head? = some '+' then rest.tail else rest
      match spanDigits rest with
      | ([], _) => (none, cs)
      | (ds, rest) => (some (if neg then -(fromDigits ds : ℤ) else fromDigits ds), rest)
    else (none, cs)
  | [] => (none, [])

/-- A number literal. -/
def parseNumber (cs : List Char) : Option (NumLit × List Char) :=
  let neg := cs.head? == some '-'
  let cs := if cs.head? = some '-' then cs.tail else cs
  (parseInt cs).map fun i =>
    let f := parseFrac i.2
    let e := parseExp f.2
    (⟨neg, i.1, f.1, e.1⟩, e.2)

/-! ## Documents -/

mutual

/-- One value at the front of a text that starts with no whitespace. The fuel bounds the number of
    values on the path to a leaf; the length of the text is always enough. -/
def parseValue : ℕ → List Char → Option (JsonDoc × List Char)
  | 0, _ => none
  | _ + 1, [] => none
  | fuel + 1, c :: cs =>
    if c = '"' then (parseString cs).map fun p => (.str p.1, p.2)
    else if c = '[' then
      match skipSpace cs with
      | ']' :: rest => some (.arr [], rest)
      | cs => (parseItems fuel cs).map fun p => (.arr p.1, p.2)
    else if c = '{' then
      match skipSpace cs with
      | '}' :: rest => some (.obj [], rest)
      | cs => (parseMembers fuel cs).map fun p => (.obj p.1, p.2)
    else if c = 'n' then
      match cs with
      | 'u' :: 'l' :: 'l' :: rest => some (.null, rest)
      | _ => none
    else if c = 't' then
      match cs with
      | 'r' :: 'u' :: 'e' :: rest => some (.bool true, rest)
      | _ => none
    else if c = 'f' then
      match cs with
      | 'a' :: 'l' :: 's' :: 'e' :: rest => some (.bool false, rest)
      | _ => none
    else if c = 'N' then
      match cs with
      | 'a' :: 'N' :: rest => some (.const .nan, rest)
      | _ => none
    else if c = 'I' then
      match cs with
      | 'n' :: 'f' :: 'i' :: 'n' :: 'i' :: 't' :: 'y' :: rest => some (.const .infinity, rest)
      | _ => none
    else if c = '-' ∧ cs.head? = some 'I' then
      match cs with
      | 'I' :: 'n' :: 'f' :: 'i' :: 'n' :: 'i' :: 't' :: 'y' :: rest =>
        some (.const .negInfinity, rest)
      | _ => none
    else (parseNumber (c :: cs)).map fun p => (.num p.1, p.2)

/-- The items of a non-empty array, up to and with its closing bracket. -/
def parseItems : ℕ → List Char → Option (List JsonDoc × List Char)
  | 0, _ => none
  | fuel + 1, cs =>
    (parseValue fuel cs).bind fun p =>
      match skipSpace p.2 with
      | ']' :: rest => some ([p.1], rest)
      | ',' :: rest => (parseItems fuel (skipSpace rest)).map fun q => (p.1 :: q.1, q.2)
      | _ => none

/-- The members of a non-empty object, up to and with its closing brace. -/
def parseMembers : ℕ → List Char → Option (List (List StrItem × JsonDoc) × List Char)
  | 0, _ => none
  | fuel + 1, cs =>
    match cs with
    | '"' :: cs =>
      (parseString cs).bind fun k =>
        match skipSpace k.2 with
        | ':' :: rest =>
          (parseValue fuel (skipSpace rest)).bind fun p =>
            match skipSpace p.2 with
            | '}' :: rest => some ([(k.1, p.1)], rest)
            | ',' :: rest =>
              (parseMembers fuel (skipSpace rest)).map fun q => ((k.1, p.1) :: q.1, q.2)
            | _ => none
        | _ => none
    | _ => none

end

/-- A whole text as one document, whitespace allowed around it. -/
def parseDoc (text : List Char) : Option JsonDoc :=
  (parseValue (text.length + 1) (skipSpace text)).bind fun p =>
    if skipSpace p.2 = [] then some p.1 else none

end AstroPassport
