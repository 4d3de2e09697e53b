import AstroPassport.Lib.Except
import Mathlib.Data.Finset.Card
import Mathlib.Data.Finset.SDiff
import Mathlib.Logic.Relation

set_option autoImplicit false

/-! # A worklist over a graph given by its successors

The loop takes the key on top of the list of pending keys, asks for its successors, and puts the
ones it has not seen before on the list, until nothing is pending. `next` may raise. The loop runs
on fuel, one unit a key; `outstanding` is a bound on the keys it can still take, so with that much
fuel it ends (`exhaust_total`), and where it ends in a value the keys it has seen are those that can
be reached (`exhaust_mem_iff`).

The bound comes from a finite list of keys that successors are taken from: every key is met once, so
each turn leaves one less outstanding. What has been seen is described by an invariant on the state
of the loop: the start is seen, what is seen can be reached, and a seen key that is no longer
pending has all its successors seen (`Invariant`). At the end nothing is pending, and the seen keys
are closed under successors. -/

namespace AstroPassport

/-- The keys seen so far, and those of them whose successors have not been asked for. -/
structure Worklist (κ : Type) where
  seen : List κ
  pending : List κ

namespace Worklist

section

variable {ε κ : Type} [DecidableEq κ]

/-- One successor: seen and pending, unless it has been seen before. -/
def meet (w : Worklist κ) (k : κ) : Worklist κ :=
  if k ∈ w.seen then w else ⟨k :: w.seen, k :: w.pending⟩

/-- All successors of a key, in their order. -/
def visit (w : Worklist κ) (ks : List κ) : Worklist κ := ks.foldl meet w

/-- The loop; out of fuel it is unfinished. -/
def exhaust (next : κ → Except ε (List κ)) (unfinished : ε) : ℕ → Worklist κ → Except ε (List κ)
  | _, ⟨seen, []⟩ => .ok seen
  | 0, ⟨_, _ :: _⟩ => .error unfinished
  | n + 1, ⟨seen, k :: pending⟩ => do
    let ks ← next k
    exhaust next unfinished n (visit ⟨seen, pending⟩ ks)

/-- `b` is a successor of `a`. -/
def Edge (next : κ → Except ε (List κ)) (a b : κ) : Prop := ∃ ks, next a = .ok ks ∧ b ∈ ks

/-! ## One key -/

theorem mem_meet_seen {w : Worklist κ} {k x : κ} : x ∈ (w.meet k).seen ↔ x = k ∨ x ∈ w.seen := by
  unfold meet
  split_ifs with h
  · refine ⟨.inr, ?_⟩
    rintro (rfl | hx)
    · exact h
    · exact hx
  · simp

theorem mem_meet_pending {w : Worklist κ} {k x : κ} (hx : x ∈ (w.meet k).pending) :
    x = k ∨ x ∈ w.pending := by
  unfold meet at hx
  split_ifs at hx
  · exact .inr hx
  · exact List.mem_cons.mp hx

theorem pending_subset_meet {w : Worklist κ} {k x : κ} (hx : x ∈ w.pending) :
    x ∈ (w.meet k).pending := by
  unfold meet
  split_ifs
  · exact hx
  · exact List.mem_cons_of_mem k hx

/-- What is met for the first time becomes pending. -/
theorem mem_meet_pending_of_new {w : Worklist κ} {k : κ} (h : k ∉ w.seen) :
    k ∈ (w.meet k).pending := by
  simp [meet, h]

@[simp]
theorem visit_nil (w : Worklist κ) : w.visit [] = w := rfl

@[simp]
theorem visit_cons (w : Worklist κ) (k : κ) (ks : List κ) :
    w.visit (k :: ks) = (w.meet k).visit ks := rfl

theorem mem_visit_seen {w : Worklist κ} {ks : List κ} {x : κ} :
    x ∈ (w.visit ks).seen ↔ x ∈ ks ∨ x ∈ w.seen := by
  induction ks generalizing w with
  | nil => simp
  | cons k ks ih =>
      rw [visit_cons, ih, mem_meet_seen, List.mem_cons]
      tauto

theorem pending_subset_visit {w : Worklist κ} {ks : List κ} {x : κ} (hx : x ∈ w.pending) :
    x ∈ (w.visit ks).pending := by
  induction ks generalizing w with
  | nil => exact hx
  | cons k ks ih => exact ih (pending_subset_meet hx)

theorem mem_visit_pending {w : Worklist κ} {ks : List κ} {x : κ} (hx : x ∈ (w.visit ks).pending) :
    x ∈ ks ∨ x ∈ w.pending := by
  induction ks generalizing w with
  | nil => exact .inr hx
  | cons k ks ih =>
      rcases ih hx with h | h
      · exact .inl (List.mem_cons_of_mem k h)
      · rcases mem_meet_pending h with rfl | h
        · exact .inl List.mem_cons_self
        · exact .inr h

/-- Whatever is seen after the visit was seen before it or has become pending. -/
theorem seen_or_pending_of_visit {w : Worklist κ} {ks : List κ} {x : κ}
    (hx : x ∈ (w.visit ks).seen) : x ∈ w.seen ∨ x ∈ (w.visit ks).pending := by
  induction ks generalizing w with
  | nil => exact .inl hx
  | cons k ks ih =>
      rcases ih hx with h | h
      · rcases mem_meet_seen.1 h with rfl | h
        · by_cases hold : x ∈ w.seen
          · exact .inl hold
          · rw [visit_cons]
            exact .inr (pending_subset_visit (mem_meet_pending_of_new hold))
        · exact .inl h
      · exact .inr h

/-! ## Termination -/

/-- The keys the loop may still take: those pending, and those of the universe not yet seen. -/
def outstanding (U : Finset κ) (w : Worklist κ) : ℕ :=
  (U \ w.seen.toFinset).card + w.pending.length

/-- A key that is met moves from the unseen to the pending. -/
theorem outstanding_meet {U : Finset κ} {w : Worklist κ} {k : κ} (hk : k ∈ U) :
    outstanding U (w.meet k) = outstanding U w := by
  unfold meet
  split_ifs with h
  · rfl
  · have hmem : k ∈ U \ w.seen.toFinset := by simp [hk, h]
    have hcard : (U \ (k :: w.seen).toFinset).card + 1 = (U \ w.seen.toFinset).card := by
      rw [List.toFinset_cons, Finset.sdiff_insert, Finset.card_erase_add_one hmem]
    simp only [outstanding, List.length_cons]
    omega

theorem outstanding_visit {U : Finset κ} {w : Worklist κ} {ks : List κ} (hks : ∀ k ∈ ks, k ∈ U) :
    outstanding U (w.visit ks) = outstanding U w := by
  induction ks generalizing w with
  | nil => rfl
  | cons k ks ih =>
      rw [visit_cons, ih fun x hx => hks x (List.mem_cons_of_mem k hx),
        outstanding_meet (hks k List.mem_cons_self)]

variable {next : κ → Except ε (List κ)} {unfinished : ε}

/-- With fuel for what is outstanding the loop ends: it returns, or `next` raises at a key. -/
theorem exhaust_total {U : Finset κ} (hU : ∀ k ∈ U, ∀ ks, next k = .ok ks → ∀ x ∈ ks, x ∈ U)
    {n : ℕ} {w : Worklist κ} (hw : ∀ k ∈ w.pending, k ∈ U) (hn : outstanding U w ≤ n) :
    (∃ seen, exhaust next unfinished n w = .ok seen) ∨
      ∃ k ∈ U, ∃ e, next k = .error e ∧ exhaust next unfinished n w = .error e := by
  induction n generalizing w with
  | zero =>
      obtain ⟨seen, pending⟩ := w
      have hnil : pending = [] := by
        apply List.eq_nil_of_length_eq_zero
        simp only [outstanding] at hn
        omega
      subst hnil
      exact .inl ⟨seen, rfl⟩
  | succ n ih =>
      obtain ⟨seen, _ | ⟨k, pending⟩⟩ := w
      · exact .inl ⟨seen, rfl⟩
      · have hk : k ∈ U := hw k List.mem_cons_self
        cases hnext : next k with
        | error e => exact .inr ⟨k, hk, e, hnext, by simp [exhaust, hnext, bind, Except.bind]⟩
        | ok ks =>
            have hks := hU k hk ks hnext
            -- visiting one key takes it out of what is outstanding
            have hless : outstanding U (visit ⟨seen, pending⟩ ks) ≤ n := by
              rw [outstanding_visit hks]
              simp only [outstanding, List.length_cons] at hn ⊢
              omega
            have hrest : ∀ x ∈ (visit ⟨seen, pending⟩ ks).pending, x ∈ U := by
              intro x hx
              rcases mem_visit_pending hx with h | h
              · exact hks x h
              · exact hw x (List.mem_cons_of_mem k h)
            simpa [exhaust, hnext, bind, Except.bind] using ih hrest hless

/-- More fuel changes nothing in a loop that has ended. -/
theorem exhaust_of_le {n m : ℕ} {w : Worklist κ} {seen : List κ}
    (h : exhaust next unfinished n w = .ok seen) (hle : n ≤ m) :
    exhaust next unfinished m w = .ok seen := by
  induction n generalizing m w with
  | zero =>
      obtain ⟨seen', _ | ⟨k, pending⟩⟩ := w
      · cases m <;> exact h
      · cases h
  | succ n ih =>
      obtain ⟨m, rfl⟩ : ∃ m', m = m' + 1 := ⟨m - 1, by omega⟩
      obtain ⟨seen', _ | ⟨k, pending⟩⟩ := w
      · exact h
      · obtain ⟨ks, hnext, hrest⟩ := bind_eq_ok.1 h
        exact bind_eq_ok.2 ⟨ks, hnext, ih hrest (by omega)⟩

/-! ## What has been seen -/

/-- The invariant of the loop: what has been seen can be reached, and its successors have been seen
    unless it is still pending. -/
structure Invariant (next : κ → Except ε (List κ)) (roots : List κ) (w : Worklist κ) : Prop where
  roots_seen : ∀ r ∈ roots, r ∈ w.seen
  reached : ∀ x ∈ w.seen, ∃ r ∈ roots, Relation.ReflTransGen (Edge next) r x
  pending_seen : ∀ x ∈ w.pending, x ∈ w.seen
  closed : ∀ x ∈ w.seen, x ∈ w.pending ∨ ∀ y, Edge next x y → y ∈ w.seen

omit [DecidableEq κ] in
theorem Invariant.init (roots : List κ) : Invariant next roots ⟨roots, roots⟩ where
  roots_seen _ h := h
  reached x h := ⟨x, h, .refl⟩
  pending_seen _ h := h
  closed _ h := .inl h

/-- The invariant after one key. -/
theorem Invariant.step {roots seen pending ks : List κ} {k : κ}
    (h : Invariant next roots ⟨seen, k :: pending⟩) (hnext : next k = .ok ks) :
    Invariant next roots (visit ⟨seen, pending⟩ ks) := by
  have hk : k ∈ seen := h.pending_seen k List.mem_cons_self
  refine ⟨?_, ?_, ?_, ?_⟩
  · intro r hr
    exact mem_visit_seen.2 (.inr (h.roots_seen r hr))
  · intro x hx
    rcases mem_visit_seen.1 hx with hx | hx
    · obtain ⟨r, hr, hpath⟩ := h.reached k hk
      exact ⟨r, hr, hpath.tail ⟨ks, hnext, hx⟩⟩
    · exact h.reached x hx
  · intro x hx
    refine mem_visit_seen.2 ?_
    rcases mem_visit_pending hx with hx | hx
    · exact .inl hx
    · exact .inr (h.pending_seen x (List.mem_cons_of_mem k hx))
  · intro x hx
    rcases seen_or_pending_of_visit hx with hold | hnew
    · rcases h.closed x hold with hpend | hclosed
      · rcases List.mem_cons.mp hpend with rfl | hpend
        -- the key just taken: its successors are the ones that were visited
        · refine .inr fun y hy => ?_
          obtain ⟨ks', hnext', hy⟩ := hy
          cases hnext.symm.trans hnext'
          exact mem_visit_seen.2 (.inl hy)
        · exact .inl (pending_subset_visit hpend)
      · exact .inr fun y hy => mem_visit_seen.2 (.inr (hclosed y hy))
    · exact .inl hnew

theorem Invariant.of_exhaust {roots seen : List κ} {n : ℕ} {w : Worklist κ}
    (h : exhaust next unfinished n w = .ok seen) (hw : Invariant next roots w) :
    Invariant next roots ⟨seen, []⟩ := by
  induction n generalizing w with
  | zero =>
      obtain ⟨seen', _ | ⟨k, pending⟩⟩ := w
      · cases h
        exact hw
      · cases h
  | succ n ih =>
      obtain ⟨seen', _ | ⟨k, pending⟩⟩ := w
      · cases h
        exact hw
      · obtain ⟨ks, hnext, hrest⟩ := bind_eq_ok.1 h
        exact ih hrest (hw.step hnext)

/-- The keys seen in the end are those that can be reached from the roots. -/
theorem exhaust_mem_iff {roots seen : List κ} {n : ℕ}
    (h : exhaust next unfinished n ⟨roots, roots⟩ = .ok seen) {x : κ} :
    x ∈ seen ↔ ∃ r ∈ roots, Relation.ReflTransGen (Edge next) r x := by
  have hinv := Invariant.of_exhaust h (Invariant.init roots)
  refine ⟨hinv.reached x, ?_⟩
  rintro ⟨r, hr, hpath⟩
  induction hpath with
  | refl => exact hinv.roots_seen r hr
  | tail _ hedge ih =>
      rcases hinv.closed _ ih with hnone | hclosed
      · cases hnone
      · exact hclosed _ hedge

end

end Worklist

end AstroPassport
