import Mathlib.Tactic.Common

set_option autoImplicit false

/-! # Runs of a transition system

A system is a step function on states that an event either moves or does not apply to; a run is a
list of events, each of which applies. An invariant is proved for one step and holds along every run
(`run_invariant`). A log that grows at its end is described entry by entry, each entry against what
came before it (`forall_split_snoc`).

A state is reachable when some run from the initial one leads to it, and an invariant that holds at
the start holds there (`Reachable.invariant`). Everything a system can do is in its step function,
so interleavings, failures and answers from outside are events, and a statement about all reachable
states is one about all of them in any order. -/

namespace AstroPassport

variable {σ α : Type*}

/-- The state after a list of events, when each of them applies where it is taken. -/
def run (step : σ → α → Option σ) : σ → List α → Option σ
  | s, [] => some s
  | s, a :: as => (step s a).bind fun s' => run step s' as

variable {step : σ → α → Option σ}

@[simp]
theorem run_nil (s : σ) : run step s [] = some s := rfl

theorem run_cons_eq_some {s s' : σ} {a : α} {as : List α} :
    run step s (a :: as) = some s' ↔ ∃ t, step s a = some t ∧ run step t as = some s' := by
  rw [run, Option.bind_eq_some_iff]

/-- What one step preserves, every run preserves. -/
theorem run_invariant {I : σ → Prop} (hstep : ∀ s a s', step s a = some s' → I s → I s')
    {s s' : σ} {as : List α} (hrun : run step s as = some s') (hs : I s) : I s' := by
  induction as generalizing s with
  | nil =>
      cases hrun
      exact hs
  | cons a as ih =>
      obtain ⟨t, ht, hrest⟩ := run_cons_eq_some.1 hrun
      exact ih hrest (hstep s a t ht hs)

/-- A state some run leads to. -/
def Reachable (step : σ → α → Option σ) (init s : σ) : Prop := ∃ as, run step init as = some s

/-- An invariant of the steps that holds at the start holds wherever the system can get. -/
theorem Reachable.invariant {I : σ → Prop} {init s : σ} (h : Reachable step init s)
    (hinit : I init) (hstep : ∀ s a s', step s a = some s' → I s → I s') : I s := by
  obtain ⟨as, hrun⟩ := h
  exact run_invariant hstep hrun hinit

/-! ## Logs -/

/-- Every entry of a log stands in a relation to the log before it: what a new entry adds. -/
theorem forall_split_snoc {P : List α → α → Prop} {log : List α} {e : α} :
    (∀ pre x post, log ++ [e] = pre ++ x :: post → P pre x) ↔
      (∀ pre x post, log = pre ++ x :: post → P pre x) ∧ P log e := by
  constructor
  · intro h
    refine ⟨fun pre x post hsplit => h pre x (post ++ [e]) (by simp [hsplit]), ?_⟩
    exact h log e [] rfl
  · rintro ⟨hold, hnew⟩ pre x post hsplit
    rcases List.eq_nil_or_concat post with rfl | ⟨post', y, rfl⟩
    · obtain ⟨rfl, hx⟩ := List.append_inj' hsplit rfl
      cases hx
      exact hnew
    · have hassoc : log ++ [e] = (pre ++ x :: post') ++ [y] := by simpa using hsplit
      exact hold pre x post' (List.append_inj' hassoc rfl).1

end AstroPassport
