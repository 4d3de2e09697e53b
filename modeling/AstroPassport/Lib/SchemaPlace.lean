import AstroPassport.Lib.JsonPlace

set_option autoImplicit false

/-! # Where models look

A model built from the parts of `Codec` and `Fields` looks into a value at fixed places only, so it
reads values alike that differ in the order of members, and what it lets through has its leaves at
these places and nothing else (`Codec.Placed`). One lemma for each part puts the places of a model
together from those of its members.

The property has two sides, which are needed together: values that are the same up to the order of
members are read alike, and a value that is read has its leaves at the listed places, with nothing
beside them. A scalar model has one place, the value itself; a record has the places of each member
below its name; an array of two has those of its items below their indices. A nullable model has its
place whether or not the value is there. A check of the whole record changes none of this, since it
sees the record and not the value. -/

namespace AstroPassport

open JsonValue

/-- A model without regard to the order of members, whose values have their leaves at some
    places. -/
structure Codec.Placed {α : Type} (c : Codec α) (places : List (List JsonStep)) : Prop where
  respects : ∀ {v w}, Same v w → c.decode v = c.decode w
  covers : ∀ {v a}, c.decode v = .ok a → Covers places v

/-- The same of the members of a record. -/
structure Fields.Placed {σ α : Type} (F : Fields σ α)
    (members : List (String × List (List JsonStep))) : Prop where
  names : members.map Prod.fst = F.names
  respects : ∀ {ms ns}, SameMembers ms ns → F.decode ms = F.decode ns
  covers : ∀ {ms a}, F.decode ms = .ok a →
    ∀ m ∈ members, ∃ x, ms.lookup m.1 = some x ∧ Covers m.2 x

variable {α β σ : Type}

/-! ## Members that are the same -/

theorem JsonValue.SameMembers.lookup {ms ns : List (String × JsonValue)} (h : SameMembers ms ns)
    {k : String} {x : JsonValue} (hx : ms.lookup k = some x) :
    ∃ y, ns.lookup k = some y ∧ Same x y := Same.child (s := .key k) h hx

theorem JsonValue.SameMembers.lookup_eq_none {ms ns : List (String × JsonValue)}
    (h : SameMembers ms ns) {k : String} (hk : ms.lookup k = none) : ns.lookup k = none :=
  Same.child_eq_none (s := .key k) h hk

/-- A name of one object is a name of the other. -/
theorem JsonValue.SameMembers.mem_names {ms ns : List (String × JsonValue)} (h : SameMembers ms ns)
    {m : String × JsonValue} (hm : m ∈ ms) : ∃ n ∈ ns, n.1 = m.1 := by
  have hsome : (ms.lookup m.1).isSome = true := List.lookup_isSome_iff.mpr ⟨m, hm, beq_self_eq_true _⟩
  obtain ⟨x, hx⟩ := Option.isSome_iff_exists.mp hsome
  obtain ⟨y, hy, -⟩ := h.lookup hx
  exact ⟨(m.1, y), mem_of_lookup hy, rfl⟩

namespace Codec

theorem Placed.member {c : Codec α} {places : List (List JsonStep)} (h : c.Placed places)
    (name : String) {ms ns : List (String × JsonValue)} (hsame : SameMembers ms ns) :
    c.member name ms = c.member name ns := by
  unfold Codec.member
  rcases hx : ms.lookup name with _ | x
  · rw [hsame.lookup_eq_none hx]
  · obtain ⟨y, hy, hxy⟩ := hsame.lookup hx
    rw [hy]
    exact h.respects hxy

/-! ## Scalars -/

/-- A model of scalars only. -/
theorem placed_of_scalar {c : Codec α} (h : ∀ v, v.isScalar = false → c.decode v = .valueError) :
    c.Placed [[]] where
  respects {v w} hsame := by
    rcases hv : v.isScalar with _ | _
    · have hw : w.isScalar = false := by
        by_contra hw
        rw [hsame.symm.eq_of_isScalar (Bool.eq_true_of_not_eq_false hw)] at hv
        exact hw hv
      rw [h v hv, h w hw]
    · rw [hsame.eq_of_isScalar hv]
  covers {v a} hread := by
    refine covers_plain ?_
    rcases hv : v.isScalar with _ | _
    · rw [h v hv] at hread
      cases hread
    · cases v <;> first | rfl | cases hv

theorem placed_text (p : String → Bool) : (text p).Placed [[]] :=
  placed_of_scalar fun v hv => by cases v <;> first | rfl | cases hv

theorem placed_integer (p : ℤ → Bool) : (integer p).Placed [[]] :=
  placed_of_scalar fun v hv => by cases v <;> first | rfl | cases hv

theorem placed_number (p : Binary64 → Bool) : (number p).Placed [[]] :=
  placed_of_scalar fun v hv => by cases v <;> first | rfl | cases hv

theorem placed_literal (s : String) : (literal s).Placed [[]] :=
  placed_of_scalar fun v hv => by cases v <;> first | rfl | cases hv

theorem placed_intLiteral (n : ℤ) : (intLiteral n).Placed [[]] :=
  placed_of_scalar fun v hv => by cases v <;> first | rfl | cases hv

theorem placed_choice {values : List α} {name : α → String} {hall : ∀ a, a ∈ values}
    {hname : ∀ a b, name a = name b → a = b} : (choice values name hall hname).Placed [[]] :=
  placed_of_scalar fun v hv => by cases v <;> first | rfl | cases hv

theorem Placed.after {c : Codec α} {places : List (List JsonStep)} (h : c.Placed places)
    (check : α → Checked Unit) : (c.after check).Placed places where
  respects {v w} hsame := by
    show (c.decode v).bind _ = (c.decode w).bind _
    rw [h.respects hsame]
  covers hread := h.covers (after_eq_ok.1 hread).1

/-! ## Compounds -/

theorem nullable_decode {c : Codec α} {hc : ∀ a, c.encode a ≠ .null} {v : JsonValue}
    (hv : v ≠ .null) : (nullable c hc).decode v = (c.decode v).map some := by
  cases v with
  | null => exact absurd rfl hv
  | _ => rfl

theorem Placed.nullable {c : Codec α} {places : List (List JsonStep)} (h : c.Placed places)
    (hplain : places = [[]]) (hc : ∀ a, c.encode a ≠ .null) :
    (Codec.nullable c hc).Placed places where
  respects {v w} hsame := by
    by_cases hv : v = .null
    · rw [hsame.eq_of_isScalar (by rw [hv]; rfl)]
    · have hw : w ≠ .null := fun hw => hv (hsame.symm.eq_of_isScalar (by rw [hw]; rfl) ▸ hw)
      rw [nullable_decode hv, nullable_decode hw, h.respects hsame]
  covers {v o} hread := by
    by_cases hv : v = .null
    · rw [hplain, hv]
      exact covers_plain rfl
    · rw [nullable_decode hv] at hread
      obtain ⟨a, ha, -⟩ := Checked.map_eq_ok.1 hread
      exact h.covers ha

theorem str?_eq_of_same {v w : JsonValue} (h : Same v w) : str? v = str? w := by
  have hhead := h.head_eq
  cases v <;> cases w <;> simp_all [head, str?]

theorem isScalar_of_str? {v : JsonValue} {s : String} (h : str? v = some s) : v.isScalar = true := by
  cases v <;> first | rfl | cases h

theorem mapM_str?_eq_of_same {xs ys : List JsonValue} (h : List.Forall₂ Same xs ys) :
    xs.mapM str? = ys.mapM str? := by
  induction h with
  | nil => rfl
  | cons hxy _ ih => rw [List.mapM_cons, List.mapM_cons, str?_eq_of_same hxy, ih]

theorem isScalar_of_mapM_str? {xs : List JsonValue} {ss : List String}
    (h : xs.mapM str? = some ss) : ∀ x ∈ xs, x.isScalar = true := by
  induction xs generalizing ss with
  | nil => exact fun _ hx => by cases hx
  | cons x xs ih =>
      rw [List.mapM_cons] at h
      obtain ⟨s, hs, h⟩ := Option.bind_eq_some_iff.mp h
      obtain ⟨ss, hss, -⟩ := Option.bind_eq_some_iff.mp h
      exact List.forall_mem_cons.mpr ⟨isScalar_of_str? hs, ih hss⟩

theorem placed_strings (p : List String → Bool) : (strings p).Placed [[]] where
  respects {v w} hsame := by
    cases v with
    | arr xs =>
        obtain ⟨ys, rfl, hitems⟩ := hsame.arr
        show (Checked.ofOption (xs.mapM str?)).bind _ = (Checked.ofOption (ys.mapM str?)).bind _
        rw [mapM_str?_eq_of_same hitems]
    | obj ms =>
        obtain ⟨ns, rfl, -⟩ := hsame.obj
        rfl
    | _ => rw [hsame.eq_of_isScalar rfl]
  covers {v ss} hread := by
    cases v with
    | arr xs =>
        obtain ⟨_, hitems, -⟩ := Checked.bind_eq_ok.1 hread
        have hscalars := isScalar_of_mapM_str? (Checked.ofOption_eq_ok.1 hitems)
        exact covers_plain (List.all_eq_true.mpr hscalars)
    | _ => cases hread

theorem pair_eq_ok {c : Codec α} {d : Codec β} {v : JsonValue} {p : α × β} :
    (pair c d).decode v = .ok p ↔
      ∃ x y, v = .arr [x, y] ∧ c.decode x = .ok p.1 ∧ d.decode y = .ok p.2 := by
  constructor
  · intro h
    rcases v with _ | _ | _ | _ | _ | (_ | ⟨x, _ | ⟨y, rest⟩⟩) | _
    case arr.cons.cons =>
      obtain ⟨hboth, hrest⟩ := Checked.whenever_eq_ok.1 h
      rw [List.isEmpty_iff.mp hrest]
      exact ⟨x, y, rfl, Checked.both_eq_ok.1 hboth⟩
    case arr.cons.nil =>
      obtain ⟨-, hmissing⟩ := Checked.both_eq_ok.1 h
      cases hmissing
    all_goals cases h
  · rintro ⟨x, y, rfl, hx, hy⟩
    exact Checked.whenever_eq_ok.2 ⟨Checked.both_eq_ok.2 ⟨hx, hy⟩, rfl⟩

/-- An array of two has its leaves where its items have them. -/
theorem covers_pair {left right : List (List JsonStep)} {x y : JsonValue} (hx : Covers left x)
    (hy : Covers right y) :
    Covers (left.map (.index 0 :: ·) ++ right.map (.index 1 :: ·)) (.arr [x, y]) where
  leaf p hp := by
    rcases List.mem_append.mp hp with hp | hp
    · obtain ⟨q, hq, rfl⟩ := List.mem_map.mp hp
      exact hx.leaf q hq
    · obtain ⟨q, hq, rfl⟩ := List.mem_map.mp hp
      exact hy.leaf q hq
  onWay q hq := by
    -- a way into the first item goes on inside it
    have hfirst : ∀ t, (x.get t).isSome = true → ∃ p ∈ left.map (.index 0 :: ·) ++
        right.map (.index 1 :: ·), .index 0 :: t <+: p ∨ p <+: .index 0 :: t := by
      intro t ht
      obtain ⟨p, hp, hway⟩ := hx.onWay t ht
      refine ⟨_, List.mem_append_left _ (List.mem_map_of_mem hp), ?_⟩
      exact hway.imp (List.prefix_cons_inj _).mpr (List.prefix_cons_inj _).mpr
    rcases q with _ | ⟨_ | i, t⟩
    · obtain ⟨p, hp, -⟩ := hfirst [] rfl
      exact ⟨p, hp, .inl List.nil_prefix⟩
    · cases hq
    · rcases i with _ | _ | i
      · exact hfirst t hq
      · obtain ⟨p, hp, hway⟩ := hy.onWay t hq
        refine ⟨_, List.mem_append_right _ (List.mem_map_of_mem hp), ?_⟩
        exact hway.imp (List.prefix_cons_inj _).mpr (List.prefix_cons_inj _).mpr
      · cases hq

theorem Placed.pair {c : Codec α} {d : Codec β} {left right : List (List JsonStep)}
    (hc : c.Placed left) (hd : d.Placed right) :
    (Codec.pair c d).Placed (left.map (.index 0 :: ·) ++ right.map (.index 1 :: ·)) where
  respects {v w} hsame := by
    cases v with
    | arr xs =>
        obtain ⟨ys, rfl, hitems⟩ := hsame.arr
        rcases hitems with _ | ⟨hx, hitems⟩
        · rfl
        · rcases hitems with _ | ⟨hy, hrest⟩
          · exact congrArg (Checked.both · (.valueError : Checked β)) (hc.respects hx)
          · -- further items are looked at only for whether there are any
            show ((c.decode _).both (d.decode _)).whenever _ =
              ((c.decode _).both (d.decode _)).whenever _
            rw [hc.respects hx, hd.respects hy]
            rcases hrest with _ | _ <;> rfl
    | obj ms =>
        obtain ⟨ns, rfl, -⟩ := hsame.obj
        rfl
    | _ => rw [hsame.eq_of_isScalar rfl]
  covers {v p} hread := by
    obtain ⟨x, y, rfl, hx, hy⟩ := pair_eq_ok.1 hread
    exact covers_pair (hc.covers hx) (hd.covers hy)

end Codec

namespace Fields

variable {F : Fields σ α} {members : List (String × List (List JsonStep))}

theorem placed_done : (done : Fields σ Unit).Placed [] where
  names := rfl
  respects _ := rfl
  covers _ m hm := by cases hm

theorem Placed.field {name : String} {c : Codec β} {places : List (List JsonStep)}
    (hc : c.Placed places) (proj : σ → β) (h : F.Placed members) :
    (Fields.field name c proj F).Placed ((name, places) :: members) where
  names := congrArg (name :: ·) h.names
  respects {ms ns} hsame := by
    show (c.member name ms).both (F.decode ms) = (c.member name ns).both (F.decode ns)
    rw [hc.member name hsame, h.respects hsame]
  covers {ms a} hread := by
    obtain ⟨hhead, htail⟩ := field_eq_ok.1 hread
    obtain ⟨x, hx, hvalue⟩ := Codec.member_eq_ok.1 hhead
    exact List.forall_mem_cons.mpr ⟨⟨x, hx, hc.covers hvalue⟩, h.covers htail⟩

theorem Placed.constant {name : String} {c : Codec Unit} {places : List (List JsonStep)}
    (hc : c.Placed places) (h : F.Placed members) :
    (Fields.constant name c F).Placed ((name, places) :: members) where
  names := congrArg (name :: ·) h.names
  respects {ms ns} hsame := by
    show ((c.member name ms).both (F.decode ms)).map _ = ((c.member name ns).both (F.decode ns)).map _
    rw [hc.member name hsame, h.respects hsame]
  covers {ms a} hread := by
    obtain ⟨hhead, htail⟩ := constant_eq_ok.1 hread
    obtain ⟨x, hx, hvalue⟩ := Codec.member_eq_ok.1 hhead
    exact List.forall_mem_cons.mpr ⟨⟨x, hx, hc.covers hvalue⟩, h.covers htail⟩

theorem Placed.literal {name value : String} (h : F.Placed members) :
    (Fields.literal name value F).Placed ((name, [[]]) :: members) :=
  Placed.constant (Codec.placed_literal value) h

end Fields

/-- A record has its leaves where its members have them. -/
theorem Codec.placed_object {F : Fields σ α} {make : α → σ} {hnames : F.names.Nodup}
    {make_get : ∀ s, make (F.get s) = s} {get_make : ∀ a, F.get (make a) = a}
    {first : String × List (List JsonStep)} {members : List (String × List (List JsonStep))}
    (h : F.Placed (first :: members)) :
    (Codec.object F make hnames make_get get_make).Placed (under (first :: members)) where
  respects {v w} hsame := by
    cases v with
    | obj ms =>
        obtain ⟨ns, rfl, hmembers⟩ := hsame.obj
        -- the same names occur on both sides, so the check of extra names answers alike
        have hall : (ms.all fun m => decide (m.1 ∈ F.names)) =
            ns.all fun n => decide (n.1 ∈ F.names) := by
          rw [Bool.eq_iff_iff]
          simp only [List.all_eq_true, decide_eq_true_eq]
          constructor
          · intro hms n hn
            obtain ⟨m, hm, hmn⟩ := JsonValue.SameMembers.mem_names (Same.symm hmembers) hn
            exact hmn ▸ hms m hm
          · intro hns m hm
            obtain ⟨n, hn, hnm⟩ := hmembers.mem_names hm
            exact hnm ▸ hns n hn
        show ((F.decode ms).whenever _).map make = ((F.decode ns).whenever _).map make
        rw [h.respects hmembers, hall]
    | arr xs =>
        obtain ⟨ys, rfl, -⟩ := hsame.arr
        rfl
    | _ => rw [hsame.eq_of_isScalar rfl]
  covers {v s} hread := by
    obtain ⟨ms, a, rfl, hfields, hkeys, -⟩ := Codec.object_eq_ok.1 hread
    exact covers_obj (List.cons_ne_nil _ _) (h.names ▸ hkeys) (h.covers hfields)

end AstroPassport
