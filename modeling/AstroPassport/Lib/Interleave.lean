import AstroPassport.Lib.Transition
import Mathlib.Logic.Function.Basic

set_option autoImplicit false

/-! # Processes on a shared state

Any number of processes take steps in any order; a step sees the shared state and the state of its
own process and may change both. What a process relies on is `Own`, a property of the shared state
and its own; that two processes do not stand in each other's way is `Apart`. If a step keeps its own
side and that of every process apart from it (`Respects`), both hold along every run
(`Respects.reachable`), and whatever each step does to the shared state a run does
(`Respects.shared`).

So a system of any number of processes is verified by looking at one step of one process, once for
itself and once in the eyes of another. Nothing is said about fairness or termination. The processes
are numbered, an event names the one that takes its step, and an event may find that its process has
no such step, in which case the run is none. -/

namespace AstroPassport

/-- A shared state and the states of the processes. -/
structure Concurrent (σ ℓ : Type*) where
  shared : σ
  procs : ℕ → ℓ

variable {σ ℓ ι : Type*}

/-- One step of one process. -/
def interleave (step : σ → ℓ → ι → Option (σ × ℓ)) (s : Concurrent σ ℓ) (e : ℕ × ι) :
    Option (Concurrent σ ℓ) :=
  (step s.shared (s.procs e.1) e.2).map fun r => ⟨r.1, Function.update s.procs e.1 r.2⟩

/-- Every process has its side, and no two stand in each other's way. -/
structure Harmony (Own : σ → ℓ → Prop) (Apart : ℓ → ℓ → Prop) (s : Concurrent σ ℓ) : Prop where
  own : ∀ p, Own s.shared (s.procs p)
  apart : ∀ p q, p ≠ q → Apart (s.procs p) (s.procs q)

/-- A step keeps its own side and the side of whoever is apart, and stays apart. -/
structure Respects (step : σ → ℓ → ι → Option (σ × ℓ)) (Own : σ → ℓ → Prop)
    (Apart : ℓ → ℓ → Prop) : Prop where
  symm : ∀ a b, Apart a b → Apart b a
  own : ∀ s a i s' a', step s a i = some (s', a') → Own s a → Own s' a'
  other : ∀ s a i s' a' b, step s a i = some (s', a') → Own s a → Own s b → Apart a b →
    Own s' b ∧ Apart a' b

variable {step : σ → ℓ → ι → Option (σ × ℓ)} {Own : σ → ℓ → Prop} {Apart : ℓ → ℓ → Prop}

theorem interleave_eq_some {s s' : Concurrent σ ℓ} {e : ℕ × ι} :
    interleave step s e = some s' ↔
      ∃ t a, step s.shared (s.procs e.1) e.2 = some (t, a) ∧
        s' = ⟨t, Function.update s.procs e.1 a⟩ := by
  unfold interleave
  rw [Option.map_eq_some_iff]
  constructor
  · intro h
    obtain ⟨⟨t, a⟩, hstep, rfl⟩ := h
    exact ⟨t, a, hstep, rfl⟩
  · intro h
    obtain ⟨t, a, hstep, rfl⟩ := h
    exact ⟨(t, a), hstep, rfl⟩

theorem Harmony.of_step (hstep : Respects step Own Apart) {s s' : Concurrent σ ℓ} {e : ℕ × ι}
    (h : interleave step s e = some s') (hs : Harmony Own Apart s) : Harmony Own Apart s' := by
  obtain ⟨t, a, hmove, rfl⟩ := interleave_eq_some.1 h
  obtain ⟨p, i⟩ := e
  -- what every other process keeps while `p` moves
  have hother : ∀ q, q ≠ p → Own t (s.procs q) ∧ Apart a (s.procs q) := by
    intro q hq
    exact hstep.other _ _ _ _ _ _ hmove (hs.own p) (hs.own q) (hs.apart p q hq.symm)
  refine ⟨fun q => ?_, fun q r hqr => ?_⟩
  · show Own t (Function.update s.procs p a q)
    by_cases hq : q = p
    · subst hq
      rw [Function.update_self]
      exact hstep.own _ _ _ _ _ hmove (hs.own q)
    · rw [Function.update_of_ne hq]
      exact (hother q hq).1
  · show Apart (Function.update s.procs p a q) (Function.update s.procs p a r)
    by_cases hq : q = p
    · subst hq
      rw [Function.update_self, Function.update_of_ne (Ne.symm hqr)]
      exact (hother r (Ne.symm hqr)).2
    · rw [Function.update_of_ne hq]
      by_cases hr : r = p
      · subst hr
        rw [Function.update_self]
        exact hstep.symm _ _ (hother q hq).2
      · rw [Function.update_of_ne hr]
        exact hs.apart q r hqr

theorem Respects.reachable (hstep : Respects step Own Apart) {s s' : Concurrent σ ℓ}
    (h : Reachable (interleave step) s s') (hs : Harmony Own Apart s) : Harmony Own Apart s' :=
  h.invariant hs fun _ _ _ hmove => Harmony.of_step hstep hmove

/-- What each step does to the shared state, a run does. -/
theorem Respects.shared (hstep : Respects step Own Apart) {G : σ → σ → Prop}
    (hrefl : ∀ s, G s s) (htrans : ∀ s t u, G s t → G t u → G s u)
    (hG : ∀ s a i s' a', step s a i = some (s', a') → Own s a → G s s') {s s' : Concurrent σ ℓ}
    (h : Reachable (interleave step) s s') (hs : Harmony Own Apart s) : G s.shared s'.shared := by
  have hboth : Harmony Own Apart s' ∧ G s.shared s'.shared := by
    refine h.invariant (I := fun t => Harmony Own Apart t ∧ G s.shared t.shared)
      ⟨hs, hrefl _⟩ fun t e u hmove ht => ⟨ht.1.of_step hstep hmove, ?_⟩
    obtain ⟨v, a, hlocal, rfl⟩ := interleave_eq_some.1 hmove
    exact htrans _ _ _ ht.2 (hG _ _ _ _ _ hlocal (ht.1.own e.1))
  exact hboth.2

end AstroPassport
