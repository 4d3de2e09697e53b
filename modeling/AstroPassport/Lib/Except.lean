import AstroPassport.Lib.Dict

set_option autoImplicit false

/-! # Computations that succeed

When a sequence of fallible steps succeeds, every step did; `bind_eq_ok` and `map_eq_ok` take such a
sequence apart, and `bind_eq_error` one that failed. What a computation may raise is `RaisesOnly`,
which goes through a sequence step by step. Two lists are compared through the results of a step run
on each of their elements (`forall₂_result_eq_iff`), and `collectDistinct` is the loop that collects
members under converted keys and refuses a key it already has.

Nothing here knows what the exceptions are. A check without a value (`check_bind_eq_ok`,
`forM_eq_ok`) passes or raises, and a sequence of checks passes when each does. For lists there is
the relation between the elements and the results (`mapM_eq_ok` and the lemmas after it), in which
no order of evaluation is left. `RaisesOnly.cases` turns a statement about exceptions back into the
two outcomes a computation can have. -/

namespace AstroPassport

variable {ε α β γ : Type}

@[simp]
theorem bind_eq_ok {x : Except ε α} {f : α → Except ε β} {b : β} :
    (x >>= f) = .ok b ↔ ∃ a, x = .ok a ∧ f a = .ok b := by
  cases x <;> simp [bind, Except.bind]

/-- A first step that is known to succeed. -/
theorem bind_of_eq_ok {x : Except ε α} {a : α} {f : α → Except ε β} (h : x = .ok a) :
    (x >>= f) = f a := by
  rw [h]
  rfl

@[simp]
theorem map_eq_ok {x : Except ε α} {f : α → β} {b : β} :
    x.map f = .ok b ↔ ∃ a, x = .ok a ∧ f a = b := by
  cases x <;> simp [Except.map]

@[simp]
theorem mapError_eq_ok {ε' : Type} {x : Except ε α} {f : ε → ε'} {a : α} :
    x.mapError f = .ok a ↔ x = .ok a := by
  cases x <;> simp [Except.mapError]

theorem bind_eq_error {x : Except ε α} {f : α → Except ε β} {e : ε} :
    (x >>= f) = .error e ↔ x = .error e ∨ ∃ a, x = .ok a ∧ f a = .error e := by
  cases x <;> simp [bind, Except.bind]

/-- A first step that only checks. -/
theorem check_bind_eq_ok {x : Except ε Unit} {f : Unit → Except ε β} {b : β} :
    (x >>= f) = .ok b ↔ x = .ok () ∧ f () = .ok b := by
  rw [bind_eq_ok]
  exact ⟨fun ⟨_, hx, hf⟩ => ⟨hx, hf⟩, fun ⟨hx, hf⟩ => ⟨(), hx, hf⟩⟩

/-- A loop of checks succeeds when each of them does. -/
theorem forM_eq_ok {xs : List α} {f : α → Except ε Unit} {u : Unit} :
    xs.forM f = .ok u ↔ ∀ x ∈ xs, f x = .ok () := by
  induction xs with
  | nil => exact ⟨fun _ => nofun, fun _ => rfl⟩
  | cons x xs ih =>
      rw [List.forM, check_bind_eq_ok, List.forall_mem_cons, ← ih]

/-! ## What a computation may raise -/

/-- Whatever is raised has a property. -/
def RaisesOnly (P : ε → Prop) (x : Except ε α) : Prop := ∀ e, x = .error e → P e

section RaisesOnly

variable {P : ε → Prop} {x : Except ε α}

@[simp]
theorem raisesOnly_ok (a : α) : RaisesOnly P (.ok a) := fun _ h => by cases h

@[simp]
theorem raisesOnly_pure (a : α) : RaisesOnly P (pure a : Except ε α) := raisesOnly_ok a

@[simp]
theorem raisesOnly_error {e : ε} : RaisesOnly P (.error e : Except ε α) ↔ P e := by
  refine ⟨fun h => h e rfl, fun h e' heq => ?_⟩
  cases heq
  exact h

theorem RaisesOnly.bind {f : α → Except ε β} (hx : RaisesOnly P x)
    (hf : ∀ a, x = .ok a → RaisesOnly P (f a)) : RaisesOnly P (x >>= f) := by
  intro e h
  rcases bind_eq_error.1 h with hfirst | ⟨a, ha, hrest⟩
  · exact hx e hfirst
  · exact hf a ha e hrest

/-- A step that is known to succeed raises nothing. -/
theorem RaisesOnly.bind_of_ok {a : α} {f : α → Except ε β} (hx : x = .ok a)
    (hf : RaisesOnly P (f a)) : RaisesOnly P (x >>= f) := by
  rwa [bind_of_eq_ok hx]

theorem RaisesOnly.mapError {ε' : Type} {Q : ε' → Prop} {f : ε → ε'} (hx : RaisesOnly P x)
    (hf : ∀ e, P e → Q (f e)) : RaisesOnly Q (x.mapError f) := by
  rcases x with e | a
  · exact raisesOnly_error.2 (hf e (raisesOnly_error.1 hx))
  · exact raisesOnly_ok a

/-- A computation has a result, or raises what it may. -/
theorem RaisesOnly.cases (hx : RaisesOnly P x) : (∃ a, x = .ok a) ∨ ∃ e, x = .error e ∧ P e := by
  rcases x with e | a
  · exact .inr ⟨e, rfl, raisesOnly_error.1 hx⟩
  · exact .inl ⟨a, rfl⟩

end RaisesOnly

/-! ## Lists of results -/

/-- When single steps with equal results are `S`-related elements, so it is for lists. -/
theorem forall₂_result_eq_iff {R : α → γ → Prop} {R' : β → γ → Prop} {S : α → β → Prop}
    {xs : List α} {ys : List β} {ns ms : List γ}
    (hS : ∀ x ∈ xs, ∀ y n m, R x n → R' y m → (n = m ↔ S x y))
    (hxs : List.Forall₂ R xs ns) (hys : List.Forall₂ R' ys ms) :
    ns = ms ↔ List.Forall₂ S xs ys := by
  induction hxs generalizing ys ms with
  | nil => cases hys <;> simp
  | cons hx hxs ih =>
      cases hys with
      | nil => simp
      | cons hy hys =>
          have hhead := hS _ (List.mem_cons_self ..) _ _ _ hx hy
          have htail := ih (fun x hx => hS x (List.mem_cons_of_mem _ hx)) hys
          rw [List.cons.injEq, List.forall₂_cons, hhead, htail]

/-- A step run on each element of a list. -/
theorem mapM_eq_some {f : α → Option β} {xs : List α} {ys : List β} :
    xs.mapM f = some ys ↔ List.Forall₂ (fun x y => f x = some y) xs ys := by
  induction xs generalizing ys with
  | nil => simp [eq_comm]
  | cons x xs ih =>
      simp only [List.mapM_cons, Option.bind_eq_bind, Option.bind_eq_some_iff, Option.pure_def,
        Option.some.injEq, ih, List.forall₂_cons_left_iff]
      constructor
      · rintro ⟨y, hy, ys, hys, rfl⟩
        exact ⟨y, ys, hy, hys, rfl⟩
      · rintro ⟨y, ys, hy, hys, rfl⟩
        exact ⟨y, hy, ys, hys, rfl⟩

/-- The same for a step that says why it fails. -/
theorem mapM_eq_ok {f : α → Except ε β} {xs : List α} {ys : List β} :
    xs.mapM f = .ok ys ↔ List.Forall₂ (fun x y => f x = .ok y) xs ys := by
  induction xs generalizing ys with
  | nil => simp [pure, Except.pure, eq_comm]
  | cons x xs ih =>
      simp only [List.mapM_cons, bind_eq_ok, ih, List.forall₂_cons_left_iff]
      constructor
      · rintro ⟨y, hy, ys', hys, h⟩
        cases h
        exact ⟨y, ys', hy, hys, rfl⟩
      · rintro ⟨y, ys', hy, hys, rfl⟩
        exact ⟨y, hy, ys', hys, rfl⟩

/-- When every element has a result, the list of them has a list of results. -/
theorem exists_forall₂ {R : α → γ → Prop} {xs : List α} (h : ∀ x ∈ xs, ∃ n, R x n) :
    ∃ ns, List.Forall₂ R xs ns := by
  induction xs with
  | nil => exact ⟨[], .nil⟩
  | cons x xs ih =>
      obtain ⟨n, hn⟩ := h x (List.mem_cons_self ..)
      obtain ⟨ns, hns⟩ := ih fun y hy => h y (List.mem_cons_of_mem _ hy)
      exact ⟨n :: ns, .cons hn hns⟩

/-- And when the list has a list of results, every element has one. -/
theorem exists_of_forall₂ {R : α → γ → Prop} {xs : List α} {ns : List γ}
    (h : List.Forall₂ R xs ns) : ∀ x ∈ xs, ∃ n ∈ ns, R x n := by
  induction h with
  | nil => simp
  | cons hx _ ih =>
      intro x hx'
      rcases List.mem_cons.mp hx' with rfl | hmem
      · exact ⟨_, List.mem_cons_self .., hx⟩
      · obtain ⟨n, hn, hr⟩ := ih x hmem
        exact ⟨n, List.mem_cons_of_mem _ hn, hr⟩

/-- Results carry over from one step to another element by element. -/
theorem exists_forall₂_map_eq {δ : Type} {R : α → β → Prop} {R' : α → γ → Prop} {f : γ → δ}
    {g : β → δ} {xs : List α} {ns : List β}
    (h : ∀ x ∈ xs, ∀ n, R x n → ∃ n', R' x n' ∧ f n' = g n) (hns : List.Forall₂ R xs ns) :
    ∃ ns', List.Forall₂ R' xs ns' ∧ ns'.map f = ns.map g := by
  induction hns with
  | nil => exact ⟨[], .nil, rfl⟩
  | cons hx _ ih =>
      obtain ⟨n', hn', hf⟩ := h _ (List.mem_cons_self ..) _ hx
      obtain ⟨ns', hns', hmap⟩ := ih fun x hx => h x (List.mem_cons_of_mem _ hx)
      exact ⟨n' :: ns', .cons hn' hns', by rw [List.map_cons, List.map_cons, hf, hmap]⟩

/-! ## Members under distinct keys -/

/-- Collect members onto `out`: convert the key, refuse one that was collected before, and only then
    look at the result the value stands for. -/
def collectDistinct {κ μ : Type} [DecidableEq μ] (key : κ → Except ε μ) (collision : ε)
    (out : List (μ × β)) : List (κ × Except ε β) → Except ε (List (μ × β))
  | [] => .ok out
  | (k, r) :: ms => do
    let k ← key k
    if k ∈ out.map Prod.fst then .error collision
    else do
      let v ← r
      collectDistinct key collision (out ++ [(k, v)]) ms

/-- The loop succeeds exactly when every member does and no converted key comes twice. -/
theorem collectDistinct_eq_ok {κ μ : Type} [DecidableEq μ] {key : κ → Except ε μ} {collision : ε}
    {out r : List (μ × β)} {ms : List (κ × Except ε β)} (hout : (out.map Prod.fst).Nodup) :
    collectDistinct key collision out ms = .ok r ↔
      ∃ ns, r = out ++ ns ∧ List.Forall₂ (fun m n => key m.1 = .ok n.1 ∧ m.2 = .ok n.2) ms ns ∧
        (r.map Prod.fst).Nodup := by
  induction ms generalizing out with
  | nil =>
      simp only [collectDistinct, Except.ok.injEq, List.forall₂_nil_left_iff]
      constructor
      · rintro rfl
        exact ⟨[], by simp, rfl, hout⟩
      · rintro ⟨ns, rfl, rfl, -⟩
        simp
  | cons m ms ih =>
      obtain ⟨k₀, v₀⟩ := m
      simp only [collectDistinct, bind_eq_ok, List.forall₂_cons_left_iff]
      constructor
      · rintro ⟨k, hk, h⟩
        split at h
        · cases h
        · next hfresh =>
            obtain ⟨v, hv, h⟩ := bind_eq_ok.1 h
            have hout' : ((out ++ [(k, v)]).map Prod.fst).Nodup :=
              nodup_names_snoc.2 ⟨hout, hfresh⟩
            obtain ⟨ns, rfl, hns, hnodup⟩ := (ih hout').mp h
            exact ⟨(k, v) :: ns, by simp, ⟨(k, v), ns, ⟨hk, hv⟩, hns, rfl⟩, hnodup⟩
      · rintro ⟨ns, rfl, ⟨⟨k, v⟩, ns', ⟨hk, hv⟩, hns, rfl⟩, hnodup⟩
        -- the pair moves from the front of the rest to the end of what is kept
        have hsplit : out ++ (k, v) :: ns' = (out ++ [(k, v)]) ++ ns' := by simp
        have hout' : ((out ++ [(k, v)]).map Prod.fst).Nodup := by
          rw [hsplit, List.map_append] at hnodup
          exact hnodup.of_append_left
        refine ⟨k, hk, ?_⟩
        rw [if_neg (nodup_names_snoc.1 hout').2]
        exact bind_eq_ok.2 ⟨v, hv, (ih hout').mpr ⟨ns', hsplit, hns, hnodup⟩⟩

/-- Started on nothing, the loop collects exactly the converted members. -/
theorem collectDistinct_nil_eq_ok {κ μ : Type} [DecidableEq μ] {key : κ → Except ε μ}
    {collision : ε} {ns : List (μ × β)} {ms : List (κ × Except ε β)} :
    collectDistinct key collision [] ms = .ok ns ↔
      List.Forall₂ (fun m n => key m.1 = .ok n.1 ∧ m.2 = .ok n.2) ms ns ∧
        (ns.map Prod.fst).Nodup := by
  have hnil : (([] : List (μ × β)).map Prod.fst).Nodup := List.nodup_nil
  rw [collectDistinct_eq_ok hnil]
  simp only [List.nil_append, exists_eq_left']

end AstroPassport
