import AstroPassport.Lib.Json.Syntax

set_option autoImplicit false

/-! # What the parser consumes

A parser of a value leaves an end of what it was given, and less of it, and the fuel it needs is
bounded by what it consumed (`parseValue_of_le`). So two runs on one text with enough fuel each
agree, whatever stands around the text of the value.

The parser of documents is recursive on fuel, one unit for each nesting and each further item, and a
run that is out of fuel has no result. `Frugal` is the property that makes this harmless: what is
consumed is at least one character, and a run with as much fuel as was consumed has the same result.
The three parsers have it together, by induction on the fuel (`frugal`), from one lemma for each of
them about a single turn (`parseValue_arr_eq_some`, `parseValue_obj_eq_some`, `parseItems_eq_some`,
`parseMembers_eq_some`). These four are also how other proofs look into the parser; none of them
unfolds it. -/

namespace AstroPassport

/-! ## Tokens -/

theorem skipSpace_suffix (cs : List Char) : skipSpace cs <:+ cs := by
  induction cs with
  | nil => exact List.suffix_rfl
  | cons c cs ih =>
      rw [skipSpace]
      split
      · exact ih.trans (List.suffix_cons ..)
      · exact List.suffix_rfl

theorem length_skipSpace_le (cs : List Char) : (skipSpace cs).length ≤ cs.length :=
  (skipSpace_suffix cs).length_le

/-- A strict end of a text. -/
def Leaves (cs rest : List Char) : Prop := rest <:+ cs.tail ∧ cs ≠ []

theorem Leaves.suffix {cs rest : List Char} (h : Leaves cs rest) : rest <:+ cs :=
  h.1.trans (List.tail_suffix cs)

theorem Leaves.length_lt {cs rest : List Char} (h : Leaves cs rest) : rest.length < cs.length := by
  have hle := h.1.length_le
  have hpos := List.length_pos_of_ne_nil h.2
  rw [List.length_tail] at hle
  omega

theorem leaves_cons {c : Char} {cs rest : List Char} (h : rest <:+ cs) : Leaves (c :: cs) rest :=
  ⟨h, List.cons_ne_nil c cs⟩

theorem Leaves.of_suffix {cs mid rest : List Char} (h : Leaves mid rest) (hmid : mid <:+ cs) :
    Leaves cs rest := by
  cases cs with
  | nil => exact absurd (List.suffix_nil.mp hmid) h.2
  | cons c cs =>
      rcases List.suffix_cons_iff.mp hmid with rfl | hmid
      · exact h
      · exact leaves_cons (h.suffix.trans hmid)

theorem Leaves.trans_suffix {cs mid rest : List Char} (h : Leaves cs mid) (hrest : rest <:+ mid) :
    Leaves cs rest := ⟨hrest.trans h.1, h.2⟩

theorem leaves_parseString {cs rest : List Char} {s : List StrItem}
    (h : parseString cs = some (s, rest)) : Leaves cs rest := by
  fun_induction parseString cs generalizing s rest with
  | case1 => cases h
  | case2 cs =>
      cases h
      exact leaves_cons List.suffix_rfl
  | case3 _ _ _ _ cs _ ih =>
      obtain ⟨u, -, h⟩ := Option.bind_eq_some_iff.mp h
      obtain ⟨⟨t, r⟩, ht, heq⟩ := Option.map_eq_some_iff.mp h
      cases heq
      exact (ih ht).of_suffix ⟨['\\', 'u', _, _, _, _], rfl⟩
  | case4 e cs _ _ ih =>
      obtain ⟨d, -, h⟩ := Option.bind_eq_some_iff.mp h
      obtain ⟨⟨t, r⟩, ht, heq⟩ := Option.map_eq_some_iff.mp h
      cases heq
      exact (ih ht).of_suffix ⟨['\\', e], rfl⟩
  | case5 => cases h
  | case6 => cases h
  | case7 c cs _ _ _ ih =>
      obtain ⟨⟨t, r⟩, ht, heq⟩ := Option.map_eq_some_iff.mp h
      cases heq
      exact leaves_cons (ih ht).suffix

theorem suffix_of_spanDigits {cs rest : List Char} {ds : List ℕ}
    (h : spanDigits cs = (ds, rest)) : rest <:+ cs := ⟨_, (eq_of_spanDigits h).1.symm⟩

theorem leaves_parseInt {cs rest : List Char} {n : ℕ} (h : parseInt cs = some (n, rest)) :
    Leaves cs rest := by
  unfold parseInt at h
  split at h
  · cases h
  · next hspan =>
      cases h
      refine ⟨List.suffix_rfl, ?_⟩
      rintro rfl
      cases hspan
  · next ds _ hne _ hspan =>
      cases h
      obtain ⟨d, ds, rfl⟩ := List.exists_cons_of_ne_nil hne
      rw [(eq_of_spanDigits hspan).1]
      exact leaves_cons (List.suffix_append ..)

theorem parseFrac_suffix (cs : List Char) : (parseFrac cs).2 <:+ cs := by
  unfold parseFrac
  split
  · split
    · exact List.suffix_rfl
    · next hspan => exact (suffix_of_spanDigits hspan).trans (List.suffix_cons ..)
  · exact List.suffix_rfl

theorem parseExp_suffix (cs : List Char) : (parseExp cs).2 <:+ cs := by
  unfold parseExp
  split
  · next c rest =>
      split
      · have hsign : (if rest.head? = some '-' ∨ rest.head? = some '+' then rest.tail else rest) <:+
            c :: rest := by
          split
          · exact (List.tail_suffix rest).trans (List.suffix_cons ..)
          · exact List.suffix_cons ..
        simp only
        split
        · exact List.suffix_rfl
        · next hspan => exact (suffix_of_spanDigits hspan).trans hsign
      · exact List.suffix_rfl
  · exact List.suffix_rfl

theorem leaves_parseNumber {cs rest : List Char} {l : NumLit}
    (h : parseNumber cs = some (l, rest)) : Leaves cs rest := by
  obtain ⟨⟨n, r⟩, hint, heq⟩ := Option.map_eq_some_iff.mp h
  cases heq
  have hsign : (if cs.head? = some '-' then cs.tail else cs) <:+ cs := by
    split
    · exact List.tail_suffix cs
    · exact List.suffix_rfl
  exact ((leaves_parseInt hint).of_suffix hsign).trans_suffix
    ((parseExp_suffix _).trans (parseFrac_suffix _))

/-! ## Values -/

attribute [local simp] parseValue parseItems parseMembers

/-- A value that is no array and no object takes one unit of fuel. -/
theorem parseValue_scalar (f g : ℕ) {c : Char} (cs : List Char) (harr : c ≠ '[') (hobj : c ≠ '{') :
    parseValue (f + 1) (c :: cs) = parseValue (g + 1) (c :: cs) := by
  simp [harr, hobj]

theorem leaves_parseValue_scalar {f : ℕ} {c : Char} {cs rest : List Char} {d : JsonDoc}
    (harr : c ≠ '[') (hobj : c ≠ '{') (h : parseValue (f + 1) (c :: cs) = some (d, rest)) :
    Leaves (c :: cs) rest := by
  simp only [parseValue, harr, hobj, if_false] at h
  split at h
  · obtain ⟨⟨s, r⟩, hs, heq⟩ := Option.map_eq_some_iff.mp h
    cases heq
    exact leaves_cons (leaves_parseString hs).suffix
  · -- the words, and last a number
    iterate 6
      split at h
      · split at h
        · cases h
          exact leaves_cons (by simp [List.suffix_cons_iff])
        · cases h
    obtain ⟨⟨l, r⟩, hl, heq⟩ := Option.map_eq_some_iff.mp h
    cases heq
    exact leaves_parseNumber hl

theorem head?_ne_of_forall {c : Char} {cs : List Char} (h : ∀ rest, cs = c :: rest → False) :
    cs.head? ≠ some c := by
  rintro hhead
  obtain ⟨rest, rfl⟩ := List.head?_eq_some_iff.mp hhead
  exact h rest rfl

/-- An array, by what stands after its bracket. -/
theorem parseValue_arr_eq_some {f : ℕ} {cs rest : List Char} {d : JsonDoc} :
    parseValue (f + 1) ('[' :: cs) = some (d, rest) ↔
      (skipSpace cs = ']' :: rest ∧ d = .arr []) ∨
        ((skipSpace cs).head? ≠ some ']' ∧
          ∃ items, parseItems f (skipSpace cs) = some (items, rest) ∧ d = .arr items) := by
  have hquote : ¬ '[' = '"' := by decide
  simp only [parseValue, hquote, if_true, if_false]
  split
  · next r heq =>
      simp only [heq, Option.some.injEq, Prod.mk.injEq, List.cons.injEq, true_and, List.head?_cons,
        ne_eq, not_true_eq_false, false_and, or_false]
      exact ⟨fun h => ⟨h.2, h.1.symm⟩, fun h => ⟨h.2.symm, h.1⟩⟩
  · next heq =>
      have hhead := head?_ne_of_forall heq
      simp only [Option.map_eq_some_iff, Prod.mk.injEq, Prod.exists, hhead, ne_eq,
        not_false_eq_true, true_and]
      constructor
      · rintro ⟨items, r, hitems, rfl, rfl⟩
        exact .inr ⟨items, hitems, rfl⟩
      · rintro (⟨hcs, -⟩ | ⟨items, hitems, rfl⟩)
        · exact absurd hcs (heq rest)
        · exact ⟨items, rest, hitems, rfl, rfl⟩

/-- An object, by what stands after its brace. -/
theorem parseValue_obj_eq_some {f : ℕ} {cs rest : List Char} {d : JsonDoc} :
    parseValue (f + 1) ('{' :: cs) = some (d, rest) ↔
      (skipSpace cs = '}' :: rest ∧ d = .obj []) ∨
        ((skipSpace cs).head? ≠ some '}' ∧
          ∃ ms, parseMembers f (skipSpace cs) = some (ms, rest) ∧ d = .obj ms) := by
  have hquote : ¬ '{' = '"' := by decide
  have harr : ¬ '{' = '[' := by decide
  simp only [parseValue, hquote, harr, if_true, if_false]
  split
  · next r heq =>
      simp only [heq, Option.some.injEq, Prod.mk.injEq, List.cons.injEq, true_and, List.head?_cons,
        ne_eq, not_true_eq_false, false_and, or_false]
      exact ⟨fun h => ⟨h.2, h.1.symm⟩, fun h => ⟨h.2.symm, h.1⟩⟩
  · next heq =>
      have hhead := head?_ne_of_forall heq
      simp only [Option.map_eq_some_iff, Prod.mk.injEq, Prod.exists, hhead, ne_eq,
        not_false_eq_true, true_and]
      constructor
      · rintro ⟨ms, r, hms, rfl, rfl⟩
        exact .inr ⟨ms, hms, rfl⟩
      · rintro (⟨hcs, -⟩ | ⟨ms, hms, rfl⟩)
        · exact absurd hcs (heq rest)
        · exact ⟨ms, rest, hms, rfl, rfl⟩

/-- The items of an array: a value, and a bracket or a comma and more. -/
theorem parseItems_eq_some {f : ℕ} {cs rest : List Char} {items : List JsonDoc} :
    parseItems (f + 1) cs = some (items, rest) ↔ ∃ d r, parseValue f cs = some (d, r) ∧
      ((skipSpace r = ']' :: rest ∧ items = [d]) ∨
        ∃ after ds, skipSpace r = ',' :: after ∧
          parseItems f (skipSpace after) = some (ds, rest) ∧ items = d :: ds) := by
  simp only [parseItems, Option.bind_eq_some_iff, Prod.exists]
  refine exists_congr fun d => exists_congr fun r => and_congr_right fun _ => ?_
  split
  · next heq =>
      simp only [heq, Option.some.injEq, Prod.mk.injEq, List.cons.injEq, true_and, Char.reduceEq,
        false_and, exists_const, or_false]
      exact ⟨fun h => ⟨h.2, h.1.symm⟩, fun h => ⟨h.2.symm, h.1⟩⟩
  · next after heq =>
      simp only [heq, List.cons.injEq, Char.reduceEq, false_and, true_and, false_or,
        Option.map_eq_some_iff, Prod.mk.injEq, Prod.exists]
      constructor
      · rintro ⟨ds, r', hds, rfl, rfl⟩
        exact ⟨after, ds, rfl, hds, rfl⟩
      · rintro ⟨_, ds, rfl, hds, rfl⟩
        exact ⟨ds, rest, hds, rfl, rfl⟩
  · next hclose hcomma =>
      simp only [reduceCtorEq, false_iff, not_or, not_and, not_exists]
      exact ⟨fun h => absurd h (hclose rest), fun after _ h => absurd h (hcomma after)⟩

/-- The members of an object: a name, a colon and a value, and a brace or a comma and more. -/
theorem parseMembers_eq_some {f : ℕ} {cs rest : List Char} {ms : List (List StrItem × JsonDoc)} :
    parseMembers (f + 1) cs = some (ms, rest) ↔ ∃ name k r value d r', cs = '"' :: name ∧
      parseString name = some (k, r) ∧ skipSpace r = ':' :: value ∧
      parseValue f (skipSpace value) = some (d, r') ∧
      ((skipSpace r' = '}' :: rest ∧ ms = [(k, d)]) ∨
        ∃ after ns, skipSpace r' = ',' :: after ∧
          parseMembers f (skipSpace after) = some (ns, rest) ∧ ms = (k, d) :: ns) := by
  constructor
  · intro h
    simp only [parseMembers] at h
    split at h
    · next name =>
        obtain ⟨⟨k, r⟩, hk, h⟩ := Option.bind_eq_some_iff.mp h
        split at h
        · next value hvalue =>
            obtain ⟨⟨d, r'⟩, hd, h⟩ := Option.bind_eq_some_iff.mp h
            refine ⟨name, k, r, value, d, r', rfl, hk, hvalue, hd, ?_⟩
            split at h
            · next hclose =>
                cases h
                exact .inl ⟨hclose, rfl⟩
            · next after hcomma =>
                obtain ⟨⟨ns, r''⟩, hns, heq⟩ := Option.map_eq_some_iff.mp h
                cases heq
                exact .inr ⟨after, ns, hcomma, hns, rfl⟩
            · cases h
        · cases h
    · cases h
  · rintro ⟨name, k, r, value, d, r', rfl, hk, hvalue, hd, hrest⟩
    rcases hrest with ⟨hclose, rfl⟩ | ⟨after, ns, hcomma, hns, rfl⟩
    · simp [hk, hvalue, hd, hclose]
    · simp [hk, hvalue, hd, hcomma, hns]

/-! ## Fuel -/

/-- A parser that leaves a strict end of what it is given and needs no more fuel than what it
    consumes. -/
def Frugal {α : Type} (parse : ℕ → List Char → Option (α × List Char)) (f : ℕ) : Prop :=
  ∀ cs a rest, parse f cs = some (a, rest) →
    Leaves cs rest ∧ ∀ g, cs.length ≤ g + rest.length → parse g cs = some (a, rest)

theorem Leaves.of_skipSpace {c : Char} {cs mid rest : List Char} (hmid : skipSpace mid = c :: rest)
    (h : mid <:+ cs) : Leaves cs rest :=
  (leaves_cons List.suffix_rfl).of_suffix (hmid ▸ (skipSpace_suffix mid).trans h)

theorem frugal_step_items {f : ℕ} (hvalue : Frugal parseValue f) (hitems : Frugal parseItems f) :
    Frugal parseItems (f + 1) := by
  intro cs items rest h
  obtain ⟨d, r, hd, hrest⟩ := parseItems_eq_some.1 h
  obtain ⟨hleaves, hfuel⟩ := hvalue _ _ _ hd
  have hlt := hleaves.length_lt
  have hskip := length_skipSpace_le r
  rcases hrest with ⟨hclose, rfl⟩ | ⟨after, ds, hcomma, hds, rfl⟩
  · rw [hclose, List.length_cons] at hskip
    refine ⟨.of_skipSpace hclose hleaves.suffix, fun g hg => ?_⟩
    obtain ⟨g, rfl⟩ := Nat.exists_eq_succ_of_ne_zero (n := g) (by omega)
    exact parseItems_eq_some.2 ⟨d, r, hfuel g (by omega), .inl ⟨hclose, rfl⟩⟩
  · obtain ⟨hleaves', hfuel'⟩ := hitems _ _ _ hds
    have hlt' := hleaves'.length_lt
    have hskip' := length_skipSpace_le after
    rw [hcomma, List.length_cons] at hskip
    refine ⟨?_, fun g hg => ?_⟩
    · exact hleaves'.of_suffix
        ((skipSpace_suffix after).trans (Leaves.of_skipSpace hcomma hleaves.suffix).suffix)
    · obtain ⟨g, rfl⟩ := Nat.exists_eq_succ_of_ne_zero (n := g) (by omega)
      exact parseItems_eq_some.2
        ⟨d, r, hfuel g (by omega), .inr ⟨after, ds, hcomma, hfuel' g (by omega), rfl⟩⟩

theorem frugal_step_members {f : ℕ} (hvalue : Frugal parseValue f)
    (hmembers : Frugal parseMembers f) : Frugal parseMembers (f + 1) := by
  intro cs ms rest h
  obtain ⟨name, k, r, value, d, r', rfl, hk, hcolon, hd, hrest⟩ := parseMembers_eq_some.1 h
  obtain ⟨hleaves, hfuel⟩ := hvalue _ _ _ hd
  have hname := leaves_parseString hk
  -- name, colon and value: what is left is a suffix at each turn
  have hr' : r' <:+ '"' :: name :=
    hleaves.suffix.trans ((skipSpace_suffix value).trans
      ((Leaves.of_skipSpace hcolon hname.suffix).suffix.trans (List.suffix_cons ..)))
  have hlt := hleaves.length_lt
  have hnamelt := hname.length_lt
  have hskip := length_skipSpace_le r
  have hskipValue := length_skipSpace_le value
  have hskip' := length_skipSpace_le r'
  rw [hcolon, List.length_cons] at hskip
  -- the object ends, or a comma and further members
  rcases hrest with ⟨hclose, rfl⟩ | ⟨after, ns, hcomma, hns, rfl⟩
  · rw [hclose, List.length_cons] at hskip'
    refine ⟨.of_skipSpace hclose hr', fun g hg => ?_⟩
    rw [List.length_cons] at hg
    obtain ⟨g, rfl⟩ := Nat.exists_eq_succ_of_ne_zero (n := g) (by omega)
    exact parseMembers_eq_some.2
      ⟨name, k, r, value, d, r', rfl, hk, hcolon, hfuel g (by omega), .inl ⟨hclose, rfl⟩⟩
  · obtain ⟨hleaves', hfuel'⟩ := hmembers _ _ _ hns
    have hlt' := hleaves'.length_lt
    have hskipAfter := length_skipSpace_le after
    rw [hcomma, List.length_cons] at hskip'
    refine ⟨?_, fun g hg => ?_⟩
    · exact hleaves'.of_suffix ((skipSpace_suffix after).trans (Leaves.of_skipSpace hcomma hr').suffix)
    · rw [List.length_cons] at hg
      obtain ⟨g, rfl⟩ := Nat.exists_eq_succ_of_ne_zero (n := g) (by omega)
      exact parseMembers_eq_some.2
        ⟨name, k, r, value, d, r', rfl, hk, hcolon, hfuel g (by omega),
          .inr ⟨after, ns, hcomma, hfuel' g (by omega), rfl⟩⟩

theorem frugal_step_value {f : ℕ} (hitems : Frugal parseItems f)
    (hmembers : Frugal parseMembers f) : Frugal parseValue (f + 1) := by
  intro cs d rest h
  cases cs with
  | nil => cases h
  | cons c cs =>
      -- whatever the value, something was consumed, so there is fuel for its first character
      have hstep : ∀ {g}, Leaves (c :: cs) rest → (c :: cs).length ≤ g + rest.length →
          ∃ g', g = g' + 1 ∧ cs.length ≤ g' + rest.length := by
        intro g hleaves hg
        have hlt := hleaves.length_lt
        rw [List.length_cons] at hlt hg
        exact ⟨g - 1, by omega, by omega⟩
      have hskip := length_skipSpace_le cs
      by_cases harr : c = '['
      · subst harr
        rcases parseValue_arr_eq_some.1 h with ⟨hclose, rfl⟩ | ⟨hopen, items, hds, rfl⟩
        · have hleaves : Leaves ('[' :: cs) rest := .of_skipSpace hclose (List.suffix_cons ..)
          refine ⟨hleaves, fun g hg => ?_⟩
          obtain ⟨g, rfl, -⟩ := hstep hleaves hg
          exact parseValue_arr_eq_some.2 (.inl ⟨hclose, rfl⟩)
        · obtain ⟨hbelow, hfuel⟩ := hitems _ _ _ hds
          have hleaves := hbelow.of_suffix ((skipSpace_suffix cs).trans (List.suffix_cons '[' cs))
          refine ⟨hleaves, fun g hg => ?_⟩
          obtain ⟨g, rfl, hg⟩ := hstep hleaves hg
          exact parseValue_arr_eq_some.2 (.inr ⟨hopen, items, hfuel g (by omega), rfl⟩)
      · by_cases hobj : c = '{'
        · subst hobj
          rcases parseValue_obj_eq_some.1 h with ⟨hclose, rfl⟩ | ⟨hopen, ms, hms, rfl⟩
          · have hleaves : Leaves ('{' :: cs) rest := .of_skipSpace hclose (List.suffix_cons ..)
            refine ⟨hleaves, fun g hg => ?_⟩
            obtain ⟨g, rfl, -⟩ := hstep hleaves hg
            exact parseValue_obj_eq_some.2 (.inl ⟨hclose, rfl⟩)
          · obtain ⟨hbelow, hfuel⟩ := hmembers _ _ _ hms
            have hleaves := hbelow.of_suffix ((skipSpace_suffix cs).trans (List.suffix_cons '{' cs))
            refine ⟨hleaves, fun g hg => ?_⟩
            obtain ⟨g, rfl, hg⟩ := hstep hleaves hg
            exact parseValue_obj_eq_some.2 (.inr ⟨hopen, ms, hfuel g (by omega), rfl⟩)
        · have hleaves := leaves_parseValue_scalar harr hobj h
          refine ⟨hleaves, fun g hg => ?_⟩
          obtain ⟨g, rfl, -⟩ := hstep hleaves hg
          rw [parseValue_scalar g f cs harr hobj, h]

/-- All three parsers, at every fuel. -/
theorem frugal (f : ℕ) : Frugal parseValue f ∧ Frugal parseItems f ∧ Frugal parseMembers f := by
  induction f with
  | zero =>
      refine ⟨fun cs d rest h => ?_, fun cs items rest h => ?_, fun cs ms rest h => ?_⟩
      all_goals cases h
  | succ f ih =>
      obtain ⟨hvalue, hitems, hmembers⟩ := ih
      exact ⟨frugal_step_value hitems hmembers, frugal_step_items hvalue hitems,
        frugal_step_members hvalue hmembers⟩

theorem leaves_parseValue {f : ℕ} {cs rest : List Char} {d : JsonDoc}
    (h : parseValue f cs = some (d, rest)) : Leaves cs rest :=
  ((frugal f).1 _ _ _ h).1

/-- A run of the parser on a value, with fuel for what it consumes. -/
theorem parseValue_of_le {f g : ℕ} {cs rest : List Char} {d : JsonDoc}
    (h : parseValue f cs = some (d, rest)) (hg : cs.length ≤ g + rest.length) :
    parseValue g cs = some (d, rest) :=
  ((frugal f).1 _ _ _ h).2 g hg

theorem parseItems_of_le {f g : ℕ} {cs rest : List Char} {items : List JsonDoc}
    (h : parseItems f cs = some (items, rest)) (hg : cs.length ≤ g + rest.length) :
    parseItems g cs = some (items, rest) :=
  ((frugal f).2.1 _ _ _ h).2 g hg

/-- Two runs on one text agree. -/
theorem parseValue_unique {f g : ℕ} {cs rest rest' : List Char} {d d' : JsonDoc}
    (h : parseValue f cs = some (d, rest)) (h' : parseValue g cs = some (d', rest')) :
    d = d' ∧ rest = rest' := by
  have hlarge := parseValue_of_le (g := cs.length) h (by omega)
  rw [parseValue_of_le (g := cs.length) h' (by omega)] at hlarge
  cases hlarge
  exact ⟨rfl, rfl⟩

end AstroPassport
