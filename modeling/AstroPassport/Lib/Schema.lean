import AstroPassport.Lib.Binary64
import AstroPassport.Lib.Checked
import AstroPassport.Lib.Dict

set_option autoImplicit false

/-! # Models of JSON values

A model reads a JSON value into a value of a type and writes such a value back; what it reads is
valid, and what is valid it reads back (`Codec`). A record model is put together from its members in
order, `Fields`, each read by its name, with a check of the whole record at the end. Every member is
read even when an earlier one was refused, so that an exception of a later one still escapes, and no
member outside the model is let through.

The two laws are fields of the structure, so a model is built with its round trip and no model
without one can be written down. A check after the members (`after`) and one of the raw value before
them (`before`) are models again. For each part there is a lemma for when reading it succeeds and
one for when a value is valid; these are in the simp set, so that the validity of a record unfolds
to that of its members. The last section says which parts let nothing but a `ValueError` out. -/

namespace AstroPassport

/-- A decoded JSON value; an object has each name once. -/
inductive JsonValue where
  | null
  | bool (b : Bool)
  | int (n : ℤ)
  | float (x : Binary64)
  | str (s : String)
  | arr (items : List JsonValue)
  | obj (members : List (String × JsonValue))

/-- A model of JSON values; `decode` is its validation of a value, `encode` its dump. -/
structure Codec (α : Type) where
  decode : JsonValue → Checked α
  encode : α → JsonValue
  valid : α → Bool
  decode_encode : ∀ {a}, valid a = true → decode (encode a) = .ok a
  valid_of_decode : ∀ {v a}, decode v = .ok a → valid a = true

namespace Codec

variable {α β σ : Type}

/-! ## Scalars -/

/-- A strict `str` with a condition. -/
def text (p : String → Bool) : Codec String where
  decode
    | .str s => (Checked.ok s).whenever (p s)
    | _ => .valueError
  encode := .str
  valid := p
  decode_encode h := by simp [h]
  valid_of_decode {v a} h := by
    cases v <;> simp at h
    exact h.1 ▸ h.2

/-- A strict `int` with a condition; a `bool` is none. -/
def integer (p : ℤ → Bool) : Codec ℤ where
  decode
    | .int n => (Checked.ok n).whenever (p n)
    | _ => .valueError
  encode := .int
  valid := p
  decode_encode h := by simp [h]
  valid_of_decode {v a} h := by
    cases v <;> simp at h
    exact h.1 ▸ h.2

/-- A float in strict mode; an integer is taken as the nearest float. -/
def number (p : Binary64 → Bool) : Codec Binary64 where
  decode
    | .float x => (Checked.ok x).whenever (p x)
    | .int n => (Checked.ok (.ofRat n)).whenever (p (.ofRat n))
    | _ => .valueError
  encode := .float
  valid := p
  decode_encode h := by simp [h]
  valid_of_decode {v a} h := by
    cases v <;> simp at h
    all_goals exact h.1 ▸ h.2

/-- One given string. -/
def literal (s : String) : Codec Unit where
  decode
    | .str t => Checked.require (t == s)
    | _ => .valueError
  encode _ := .str s
  valid _ := true
  decode_encode _ := by simp
  valid_of_decode _ := rfl

/-- One given integer. -/
def intLiteral (n : ℤ) : Codec Unit where
  decode
    | .int m => Checked.require (m == n)
    | _ => .valueError
  encode _ := .int n
  valid _ := true
  decode_encode _ := by simp
  valid_of_decode _ := rfl

/-- One of several given strings, which stand for the values of an enumeration. -/
def choice (values : List α) (name : α → String) (hall : ∀ a, a ∈ values)
    (hname : ∀ a b, name a = name b → a = b) : Codec α where
  decode
    | .str s => Checked.ofOption (values.find? fun a => name a == s)
    | _ => .valueError
  encode a := .str (name a)
  valid _ := true
  decode_encode {a} _ := by
    rw [Checked.ofOption_eq_ok]
    rcases hfind : values.find? (fun b => name b == name a) with _ | b
    · exact absurd (List.find?_eq_none.mp hfind a (hall a)) (by simp)
    · have hb : name b = name a := by simpa using List.find?_some hfind
      rw [hname _ _ hb]
  valid_of_decode _ := rfl

/-- A model with a check of what it read, a validator of mode `after`. -/
def after (c : Codec α) (check : α → Checked Unit) : Codec α where
  decode v := (c.decode v).bind fun a => (check a).map fun _ => a
  encode := c.encode
  valid a := c.valid a && check a == .ok ()
  decode_encode {a} h := by
    rw [Bool.and_eq_true, beq_iff_eq] at h
    rw [c.decode_encode h.1]
    exact Checked.map_eq_ok.2 ⟨(), h.2, rfl⟩
  valid_of_decode {v a} h := by
    obtain ⟨_, hread, h⟩ := Checked.bind_eq_ok.1 h
    obtain ⟨⟨⟩, hcheck, rfl⟩ := Checked.map_eq_ok.1 h
    rw [c.valid_of_decode hread, hcheck]
    rfl

theorem after_eq_ok {c : Codec α} {check : α → Checked Unit} {v : JsonValue} {a : α} :
    (c.after check).decode v = .ok a ↔ c.decode v = .ok a ∧ check a = .ok () := by
  show ((c.decode v).bind fun a => (check a).map fun _ => a) = .ok a ↔ _
  constructor
  · intro h
    obtain ⟨_, hread, h⟩ := Checked.bind_eq_ok.1 h
    obtain ⟨⟨⟩, hcheck, rfl⟩ := Checked.map_eq_ok.1 h
    exact ⟨hread, hcheck⟩
  · rintro ⟨hread, hcheck⟩
    rw [hread]
    exact Checked.map_eq_ok.2 ⟨(), hcheck, rfl⟩

theorem after_decode {c : Codec α} {check : α → Checked Unit} {v : JsonValue} {a : α}
    (hread : c.decode v = .ok a) (hcheck : check a = .ok ()) : (c.after check).decode v = .ok a :=
  after_eq_ok.2 ⟨hread, hcheck⟩

@[simp]
theorem after_valid {c : Codec α} {check : α → Checked Unit} {a : α} :
    (c.after check).valid a = true ↔ c.valid a = true ∧ check a = .ok () := by
  show (c.valid a && check a == .ok ()) = true ↔ _
  rw [Bool.and_eq_true, beq_iff_eq]

/-- A model with a check of the value in front of it, a validator of mode `before`. -/
def before (c : Codec α) (check : JsonValue → Checked Unit)
    (hcheck : ∀ a, check (c.encode a) = .ok ()) : Codec α where
  decode v := (check v).bind fun _ => c.decode v
  encode := c.encode
  valid := c.valid
  decode_encode {a} h := by
    rw [hcheck a]
    exact c.decode_encode h
  valid_of_decode {v a} h := by
    obtain ⟨_, -, hread⟩ := Checked.bind_eq_ok.1 h
    exact c.valid_of_decode hread

theorem before_eq_ok {c : Codec α} {check : JsonValue → Checked Unit}
    {hcheck : ∀ a, check (c.encode a) = .ok ()} {v : JsonValue} {a : α} :
    (c.before check hcheck).decode v = .ok a ↔ check v = .ok () ∧ c.decode v = .ok a := by
  show (check v).bind (fun _ => c.decode v) = .ok a ↔ _
  constructor
  · intro h
    obtain ⟨⟨⟩, hpassed, hread⟩ := Checked.bind_eq_ok.1 h
    exact ⟨hpassed, hread⟩
  · rintro ⟨hpassed, hread⟩
    exact Checked.bind_eq_ok.2 ⟨(), hpassed, hread⟩

@[simp]
theorem before_valid {c : Codec α} {check : JsonValue → Checked Unit}
    {hcheck : ∀ a, check (c.encode a) = .ok ()} {a : α} :
    (c.before check hcheck).valid a = c.valid a := rfl

@[simp]
theorem text_valid {p : String → Bool} {s : String} : (text p).valid s = p s := rfl

@[simp]
theorem integer_valid {p : ℤ → Bool} {n : ℤ} : (integer p).valid n = p n := rfl

@[simp]
theorem number_valid {p : Binary64 → Bool} {x : Binary64} : (number p).valid x = p x := rfl

@[simp]
theorem literal_valid {s : String} {u : Unit} : (literal s).valid u = true := rfl

@[simp]
theorem intLiteral_valid {n : ℤ} {u : Unit} : (intLiteral n).valid u = true := rfl

/-! ## Compounds -/

/-- `null`, or a value of a model that does not write `null` itself. -/
def nullable (c : Codec α) (hc : ∀ a, c.encode a ≠ .null) : Codec (Option α) where
  decode
    | .null => .ok none
    | v => (c.decode v).map some
  encode
    | none => .null
    | some a => c.encode a
  valid o := o.all c.valid
  decode_encode {o} h := by
    rcases o with _ | a
    · rfl
    · have hread := c.decode_encode h
      simp only
      split
      · next hnull => exact absurd hnull (hc a)
      · rw [hread]
        rfl
  valid_of_decode {v o} h := by
    split at h
    · cases h
      rfl
    · obtain ⟨a, ha, rfl⟩ := Checked.map_eq_ok.1 h
      exact c.valid_of_decode ha

/-- The string of a JSON string. -/
def str? : JsonValue → Option String
  | .str s => some s
  | _ => none

/-- A tuple of any length of strings. -/
def strings (p : List String → Bool) : Codec (List String) where
  decode
    | .arr items => (Checked.ofOption (items.mapM str?)).bind fun ss => (Checked.ok ss).whenever (p ss)
    | _ => .valueError
  encode ss := .arr (ss.map .str)
  valid := p
  decode_encode {ss} h := by
    have hmap : (ss.map JsonValue.str).mapM str? = some ss := by
      have hpure : ss.mapM (fun s => some s) = some (ss.map fun s => s) := List.mapM_pure
      rw [List.map_id'] at hpure
      rw [List.mapM_map]
      exact hpure
    simp only [hmap]
    simp [Checked.ofOption, Checked.bind, h]
  valid_of_decode {v ss} h := by
    cases v with
    | arr items =>
        obtain ⟨_, -, h⟩ := Checked.bind_eq_ok.1 h
        obtain ⟨heq, hp⟩ := Checked.whenever_eq_ok.1 h
        cases heq
        exact hp
    | _ => cases h

/-- A tuple of two. -/
def pair (c : Codec α) (d : Codec β) : Codec (α × β) where
  decode
    | .arr (v :: w :: rest) => ((c.decode v).both (d.decode w)).whenever rest.isEmpty
    | .arr [v] => ((c.decode v).both .valueError)
    | _ => .valueError
  encode p := .arr [c.encode p.1, d.encode p.2]
  valid p := c.valid p.1 && d.valid p.2
  decode_encode {p} h := by
    rw [Bool.and_eq_true] at h
    simp [c.decode_encode h.1, d.decode_encode h.2]
  valid_of_decode {v p} h := by
    split at h
    · simp only [Checked.whenever_eq_ok, Checked.both_eq_ok] at h
      rw [c.valid_of_decode h.1.1, d.valid_of_decode h.1.2]
      rfl
    · simp at h
    · cases h

@[simp]
theorem nullable_valid {c : Codec α} {hc : ∀ a, c.encode a ≠ .null} {o : Option α} :
    (nullable c hc).valid o = o.all c.valid := rfl

@[simp]
theorem strings_valid {p : List String → Bool} {ss : List String} :
    (strings p).valid ss = p ss := rfl

@[simp]
theorem pair_valid {c : Codec α} {d : Codec β} {p : α × β} :
    (pair c d).valid p = (c.valid p.1 && d.valid p.2) := rfl

end Codec

/-! ## Records -/

/-- The members of a record, read off those of an object in any order. -/
structure Fields (σ α : Type) where
  names : List String
  decode : List (String × JsonValue) → Checked α
  members : σ → List (String × JsonValue)
  get : σ → α
  valid : σ → Bool
  map_fst_members : ∀ s, (members s).map Prod.fst = names
  decode_of_lookup : ∀ {s ms}, valid s = true → (∀ m ∈ members s, ms.lookup m.1 = some m.2) →
    decode ms = .ok (get s)
  valid_of_decode : ∀ {s ms}, decode ms = .ok (get s) → valid s = true

/-- A required member. -/
def Codec.member {α : Type} (c : Codec α) (name : String) (ms : List (String × JsonValue)) :
    Checked α :=
  match ms.lookup name with
  | some v => c.decode v
  | none => .valueError

theorem Codec.member_of_lookup {α : Type} {c : Codec α} {name : String} {v : JsonValue}
    {ms : List (String × JsonValue)} (h : ms.lookup name = some v) :
    c.member name ms = c.decode v := by
  rw [member, h]

theorem Codec.member_eq_ok {α : Type} {c : Codec α} {name : String} {ms : List (String × JsonValue)}
    {a : α} : c.member name ms = .ok a ↔ ∃ v, ms.lookup name = some v ∧ c.decode v = .ok a := by
  unfold member
  split
  · next v hv => simp [hv]
  · next hv => simp [hv]

theorem Codec.member_intLiteral_eq_ok {n : ℤ} {name : String} {ms : List (String × JsonValue)} :
    (intLiteral n).member name ms = .ok () ↔ ms.lookup name = some (.int n) := by
  rw [member_eq_ok]
  refine ⟨?_, fun hv => ⟨_, hv, (intLiteral n).decode_encode rfl⟩⟩
  rintro ⟨v, hv, hread⟩
  cases v <;> simp [intLiteral] at hread
  exact hread ▸ hv

theorem Codec.member_text_eq_ok {p : String → Bool} {name s : String}
    {ms : List (String × JsonValue)} :
    (text p).member name ms = .ok s ↔ ms.lookup name = some (.str s) ∧ p s = true := by
  rw [member_eq_ok]
  constructor
  · rintro ⟨v, hv, hread⟩
    cases v <;> simp [text] at hread
    obtain ⟨rfl, hp⟩ := hread
    exact ⟨hv, hp⟩
  · rintro ⟨hv, hp⟩
    exact ⟨_, hv, (text p).decode_encode hp⟩

namespace Fields

variable {α β σ : Type}

/-- No further member. -/
def done : Fields σ Unit where
  names := []
  decode _ := .ok ()
  members _ := []
  get _ := ()
  valid _ := true
  map_fst_members _ := rfl
  decode_of_lookup _ _ := rfl
  valid_of_decode _ := rfl

/-- A member in front of others. -/
def field (name : String) (c : Codec β) (proj : σ → β) (rest : Fields σ α) : Fields σ (β × α) where
  names := name :: rest.names
  decode ms := (c.member name ms).both (rest.decode ms)
  members s := (name, c.encode (proj s)) :: rest.members s
  get s := (proj s, rest.get s)
  valid s := c.valid (proj s) && rest.valid s
  map_fst_members s := by rw [List.map_cons, rest.map_fst_members]
  decode_of_lookup {s ms} h hms := by
    rw [Bool.and_eq_true] at h
    have hhead := hms _ (List.mem_cons_self ..)
    have htail := rest.decode_of_lookup h.2 fun m hm => hms m (List.mem_cons_of_mem _ hm)
    rw [Checked.both_eq_ok, Codec.member_of_lookup hhead]
    exact ⟨c.decode_encode h.1, htail⟩
  valid_of_decode {s ms} h := by
    rw [Checked.both_eq_ok] at h
    obtain ⟨hhead, htail⟩ := h
    unfold Codec.member at hhead
    split at hhead
    · rw [c.valid_of_decode hhead, rest.valid_of_decode htail]
      rfl
    · cases hhead

/-- A member of one possible value in front of others. -/
def constant (name : String) (c : Codec Unit) (rest : Fields σ α) : Fields σ α where
  names := name :: rest.names
  decode ms := ((c.member name ms).both (rest.decode ms)).map Prod.snd
  members s := (name, c.encode ()) :: rest.members s
  get := rest.get
  valid s := c.valid () && rest.valid s
  map_fst_members s := by rw [List.map_cons, rest.map_fst_members]
  decode_of_lookup {s ms} h hms := by
    have hread := (field name c (fun _ : σ => ()) rest).decode_of_lookup h hms
    exact Checked.map_eq_ok.2 ⟨_, hread, rfl⟩
  valid_of_decode {s ms} h := by
    obtain ⟨⟨_, a⟩, hread, rfl⟩ := Checked.map_eq_ok.1 h
    exact (field name c (fun _ : σ => ()) rest).valid_of_decode hread

/-- A string literal in front of others. -/
def literal (name value : String) (rest : Fields σ α) : Fields σ α :=
  constant name (.literal value) rest

@[simp]
theorem done_valid {s : σ} : (done : Fields σ Unit).valid s = true := rfl

@[simp]
theorem field_valid {name : String} {c : Codec β} {proj : σ → β} {rest : Fields σ α} {s : σ} :
    (field name c proj rest).valid s = (c.valid (proj s) && rest.valid s) := rfl

@[simp]
theorem constant_valid {name : String} {c : Codec Unit} {rest : Fields σ α} {s : σ} :
    (constant name c rest).valid s = (c.valid () && rest.valid s) := rfl

@[simp]
theorem literal_valid {name value : String} {rest : Fields σ α} {s : σ} :
    (literal name value rest).valid s = rest.valid s := rfl

theorem field_eq_ok {name : String} {c : Codec β} {proj : σ → β} {rest : Fields σ α}
    {ms : List (String × JsonValue)} {p : β × α} :
    (field name c proj rest).decode ms = .ok p ↔
      c.member name ms = .ok p.1 ∧ rest.decode ms = .ok p.2 := Checked.both_eq_ok

theorem constant_eq_ok {name : String} {c : Codec Unit} {rest : Fields σ α}
    {ms : List (String × JsonValue)} {a : α} :
    (constant name c rest).decode ms = .ok a ↔
      c.member name ms = .ok () ∧ rest.decode ms = .ok a := by
  show ((c.member name ms).both (rest.decode ms)).map Prod.snd = .ok a ↔ _
  simp only [Checked.map_eq_ok, Checked.both_eq_ok]
  constructor
  · rintro ⟨⟨_, _⟩, ⟨hread, hrest⟩, rfl⟩
    exact ⟨hread, hrest⟩
  · rintro ⟨hread, hrest⟩
    exact ⟨((), a), ⟨hread, hrest⟩, rfl⟩

theorem literal_eq_ok {name value : String} {rest : Fields σ α} {ms : List (String × JsonValue)}
    {a : α} : (literal name value rest).decode ms = .ok a ↔
      ms.lookup name = some (.str value) ∧ rest.decode ms = .ok a := by
  rw [literal, constant_eq_ok, Codec.member_eq_ok]
  refine and_congr_left' ⟨?_, fun hv => ⟨_, hv, (Codec.literal value).decode_encode rfl⟩⟩
  rintro ⟨v, hv, hread⟩
  cases v <;> simp [Codec.literal] at hread
  exact hread ▸ hv

/-- A member that its model reads as the record has it. -/
theorem field_decode {name : String} {c : Codec β} {proj : σ → β} {rest : Fields σ α}
    {ms : List (String × JsonValue)} {v : JsonValue} {s : σ} (hlookup : ms.lookup name = some v)
    (hread : c.decode v = .ok (proj s)) (hrest : rest.decode ms = .ok (rest.get s)) :
    (field name c proj rest).decode ms = .ok ((field name c proj rest).get s) := by
  show (c.member name ms).both (rest.decode ms) = .ok (proj s, rest.get s)
  rw [Checked.both_eq_ok, Codec.member_of_lookup hlookup]
  exact ⟨hread, hrest⟩

theorem literal_decode {name value : String} {rest : Fields σ α} {ms : List (String × JsonValue)}
    {s : σ} (hlookup : ms.lookup name = some (.str value))
    (hrest : rest.decode ms = .ok (rest.get s)) :
    (literal name value rest).decode ms = .ok ((literal name value rest).get s) :=
  literal_eq_ok.2 ⟨hlookup, hrest⟩

end Fields

/-! ## Objects -/

section Object

variable {α σ : Type} {F : Fields σ α} {make : α → σ}

/-- The validation of an object by its members and its names. -/
def decodeObject (F : Fields σ α) (make : α → σ) : JsonValue → Checked σ
  | .obj ms => ((F.decode ms).whenever (ms.all fun m => decide (m.1 ∈ F.names))).map make
  | _ => .valueError

theorem decodeObject_eq_ok {v : JsonValue} {s : σ} :
    decodeObject F make v = .ok s ↔ ∃ ms a, v = .obj ms ∧ F.decode ms = .ok a ∧
      (∀ m ∈ ms, m.1 ∈ F.names) ∧ make a = s := by
  cases v with
  | obj ms =>
      simp only [decodeObject, Checked.map_eq_ok, Checked.whenever_eq_ok, List.all_eq_true,
        decide_eq_true_eq, JsonValue.obj.injEq]
      constructor
      · rintro ⟨a, ⟨hread, hnames⟩, rfl⟩
        exact ⟨ms, a, rfl, hread, hnames, rfl⟩
      · rintro ⟨_, a, rfl, hread, hnames, rfl⟩
        exact ⟨a, ⟨hread, hnames⟩, rfl⟩
  | _ => simp [decodeObject]

/-- A record without further members. -/
def Codec.object (F : Fields σ α) (make : α → σ) (hnames : F.names.Nodup)
    (make_get : ∀ s, make (F.get s) = s) (get_make : ∀ a, F.get (make a) = a) : Codec σ where
  decode := decodeObject F make
  encode s := .obj (F.members s)
  valid := F.valid
  decode_encode {s} h := by
    have hkeys := F.map_fst_members s
    have hread : F.decode (F.members s) = .ok (F.get s) :=
      F.decode_of_lookup h fun _ hm => lookup_of_mem (hkeys ▸ hnames) hm
    rw [decodeObject_eq_ok]
    exact ⟨_, _, rfl, hread, fun m hm => hkeys ▸ List.mem_map_of_mem hm, make_get s⟩
  valid_of_decode {v s} h := by
    obtain ⟨ms, a, rfl, hread, -, rfl⟩ := decodeObject_eq_ok.1 h
    rw [← get_make a] at hread
    exact F.valid_of_decode hread

variable {hnames : F.names.Nodup} {make_get : ∀ s, make (F.get s) = s}
  {get_make : ∀ a, F.get (make a) = a}

theorem Codec.object_eq_ok {v : JsonValue} {s : σ} :
    (Codec.object F make hnames make_get get_make).decode v = .ok s ↔ ∃ ms a, v = .obj ms ∧
      F.decode ms = .ok a ∧ (∀ m ∈ ms, m.1 ∈ F.names) ∧ make a = s := decodeObject_eq_ok

/-- An object with the members of a record, in any order, is read as the record. -/
theorem Codec.object_decode {ms : List (String × JsonValue)} {s : σ}
    (hread : F.decode ms = .ok (F.get s)) (hkeys : ∀ m ∈ ms, m.1 ∈ F.names) :
    (Codec.object F make hnames make_get get_make).decode (.obj ms) = .ok s :=
  decodeObject_eq_ok.2 ⟨ms, _, rfl, hread, hkeys, make_get s⟩

@[simp]
theorem Codec.object_valid {s : σ} :
    (Codec.object F make hnames make_get get_make).valid s = F.valid s := rfl

end Object

/-! ## Models that only a `ValueError` leaves -/

/-- Whatever it validates, no other exception leaves the model. -/
def Codec.Total {α : Type} (c : Codec α) : Prop := ∀ v, (c.decode v).Contained

namespace Codec

variable {α β σ : Type}

theorem total_text (p : String → Bool) : (text p).Total := by
  intro v
  cases v <;> simp [text]

theorem total_integer (p : ℤ → Bool) : (integer p).Total := by
  intro v
  cases v <;> simp [integer]

theorem total_number (p : Binary64 → Bool) : (number p).Total := by
  intro v
  cases v <;> simp [number]

theorem total_literal (s : String) : (literal s).Total := by
  intro v
  cases v <;> simp [literal]

theorem total_intLiteral (n : ℤ) : (intLiteral n).Total := by
  intro v
  cases v <;> simp [intLiteral]

theorem total_choice {values : List α} {name : α → String} {hall : ∀ a, a ∈ values}
    {hname : ∀ a b, name a = name b → a = b} : (choice values name hall hname).Total := by
  intro v
  cases v <;> simp [choice]

theorem total_strings (p : List String → Bool) : (strings p).Total := by
  intro v
  cases v <;> simp [strings]

theorem Total.nullable {c : Codec α} (h : c.Total) (hc : ∀ a, c.encode a ≠ .null) :
    (Codec.nullable c hc).Total := by
  intro v
  have hv := h v
  cases v <;> simp_all [Codec.nullable]

theorem Total.pair {c : Codec α} {d : Codec β} (hc : c.Total) (hd : d.Total) :
    (Codec.pair c d).Total := by
  intro v
  show Checked.Contained (match v with
    | .arr (v :: w :: rest) => ((c.decode v).both (d.decode w)).whenever rest.isEmpty
    | .arr [v] => (c.decode v).both .valueError
    | _ => .valueError)
  split
  · simp [hc _, hd _]
  · simp [hc _]
  · simp

/-- The check of a model runs on what the model read. -/
theorem contained_after {c : Codec α} {check : α → Checked Unit} {v : JsonValue} :
    ((c.after check).decode v).Contained ↔
      (c.decode v).Contained ∧ ∀ a, c.decode v = .ok a → (check a).Contained := by
  show ((c.decode v).bind fun a => (check a).map fun _ => a).Contained ↔ _
  simp

theorem Total.after {c : Codec α} (h : c.Total) {check : α → Checked Unit}
    (hcheck : ∀ a, (check a).Contained) : (c.after check).Total :=
  fun v => contained_after.2 ⟨h v, fun a _ => hcheck a⟩

theorem contained_before {c : Codec α} {check : JsonValue → Checked Unit}
    {hcheck : ∀ a, check (c.encode a) = .ok ()} {v : JsonValue} :
    ((c.before check hcheck).decode v).Contained ↔
      (check v).Contained ∧ (check v = .ok () → (c.decode v).Contained) := by
  show ((check v).bind fun _ => c.decode v).Contained ↔ _
  rw [Checked.contained_bind]
  exact and_congr_right' ⟨fun h => h (), fun h _ => h⟩

/-- A missing member is a `ValueError`. -/
theorem contained_member {c : Codec α} {name : String} {ms : List (String × JsonValue)} :
    (c.member name ms).Contained ↔ ∀ v, ms.lookup name = some v → (c.decode v).Contained := by
  unfold member
  split
  · next v hv => simp [hv]
  · next hv => simp [hv]

theorem Total.member {c : Codec α} (h : c.Total) (name : String) (ms : List (String × JsonValue)) :
    (c.member name ms).Contained := contained_member.2 fun v _ => h v

end Codec

namespace Fields

variable {α β σ : Type} {ms : List (String × JsonValue)}

@[simp]
theorem contained_done : ((done : Fields σ Unit).decode ms).Contained := Checked.contained_ok ()

@[simp]
theorem contained_field {name : String} {c : Codec β} {proj : σ → β} {rest : Fields σ α} :
    ((field name c proj rest).decode ms).Contained ↔
      (c.member name ms).Contained ∧ (rest.decode ms).Contained := Checked.contained_both

@[simp]
theorem contained_constant {name : String} {c : Codec Unit} {rest : Fields σ α} :
    ((constant name c rest).decode ms).Contained ↔
      (c.member name ms).Contained ∧ (rest.decode ms).Contained := by
  show (((c.member name ms).both (rest.decode ms)).map Prod.snd).Contained ↔ _
  rw [Checked.contained_map, Checked.contained_both]

@[simp]
theorem contained_literal {name value : String} {rest : Fields σ α} :
    ((literal name value rest).decode ms).Contained ↔ (rest.decode ms).Contained := by
  unfold literal
  rw [contained_constant]
  exact and_iff_right ((Codec.total_literal value).member name ms)

end Fields

section Object

variable {α σ : Type} {F : Fields σ α} {make : α → σ} {hnames : F.names.Nodup}
  {make_get : ∀ s, make (F.get s) = s} {get_make : ∀ a, F.get (make a) = a}

theorem contained_decodeObject {v : JsonValue} :
    (decodeObject F make v).Contained ↔ ∀ ms, v = .obj ms → (F.decode ms).Contained := by
  cases v <;> simp [decodeObject]

theorem Codec.total_object (h : ∀ ms, (F.decode ms).Contained) :
    (Codec.object F make hnames make_get get_make).Total :=
  fun _ => contained_decodeObject.2 fun ms _ => h ms

end Object

end AstroPassport
