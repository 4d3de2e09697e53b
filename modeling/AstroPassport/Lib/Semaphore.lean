import Mathlib.Tactic.Common
import Mathlib.Data.List.Count
import Mathlib.Order.Nat

set_option autoImplicit false

/-! # Bounded semaphores and who holds their tokens

A bounded semaphore carries its bound in its type, so a release past it has no result to give. The
holders of its tokens are the entries of a table: what is free and what is held adds up to the bound
(`Accounts`). One entry changing at a time either keeps the account, takes a token or gives one
back, and two accounts over one table nest: when every holder of the inner semaphore holds the outer
one too, an outer holder that wants an inner token finds one (`Accounts.tryAcquire_of_nested`).

Who holds a token is a predicate on entries, so the same rules serve any program whose state is a
list of activities, each at some point of its code. From the account it follows that a holder can
always release (`release_of_held`) and that a token is free exactly when fewer hold one than the
bound allows. A step of a program is verified by saying which of the rules it is. -/

namespace AstroPassport

variable {α : Type*}

/-- A semaphore that is never above the count it was made with. -/
structure BoundedSemaphore (bound : ℕ) where
  value : ℕ
  value_le : value ≤ bound
  deriving DecidableEq, Repr

namespace BoundedSemaphore

variable {bound : ℕ}

/-- A new semaphore: every token is free. -/
def new (bound : ℕ) : BoundedSemaphore bound := ⟨bound, le_rfl⟩

@[simp]
theorem value_new (bound : ℕ) : (new bound).value = bound := rfl

/-- Take a token without waiting; nothing when none is free. -/
def tryAcquire (s : BoundedSemaphore bound) : Option (BoundedSemaphore bound) :=
  if s.value = 0 then none else some ⟨s.value - 1, (Nat.sub_le _ _).trans s.value_le⟩

/-- Give a token back; nothing when that would be one more than there ever were. -/
def release (s : BoundedSemaphore bound) : Option (BoundedSemaphore bound) :=
  if h : s.value < bound then some ⟨s.value + 1, h⟩ else none

theorem tryAcquire_eq_none {s : BoundedSemaphore bound} : s.tryAcquire = none ↔ s.value = 0 := by
  simp [tryAcquire]

theorem value_of_tryAcquire {s t : BoundedSemaphore bound} (h : s.tryAcquire = some t) :
    t.value + 1 = s.value := by
  by_cases hzero : s.value = 0
  · simp [tryAcquire, hzero] at h
  · simp only [tryAcquire, hzero, if_false, Option.some.injEq] at h
    subst h
    show s.value - 1 + 1 = s.value
    omega

theorem release_eq_none {s : BoundedSemaphore bound} : s.release = none ↔ s.value = bound := by
  have hle := s.value_le
  by_cases hlt : s.value < bound
  · simp [release, hlt, hlt.ne]
  · simp only [release, hlt, dite_false, true_iff]
    omega

theorem value_of_release {s t : BoundedSemaphore bound} (h : s.release = some t) :
    t.value = s.value + 1 := by
  by_cases hlt : s.value < bound
  · simp only [release, hlt, dite_true, Option.some.injEq] at h
    subst h
    rfl
  · simp [release, hlt] at h

/-- A token that was just taken goes back where it came from. -/
theorem release_of_tryAcquire {s t : BoundedSemaphore bound} (h : s.tryAcquire = some t) :
    t.release = some s := by
  have hvalue := value_of_tryAcquire h
  have hlt : t.value < bound := by
    have := s.value_le
    omega
  obtain ⟨value, hle⟩ := s
  simp only [release, hlt, dite_true, Option.some.injEq, mk.injEq]
  exact hvalue

end BoundedSemaphore

/-! ## One entry of a table changes -/

section Table

variable {table : List α} {i : ℕ} {x y : α} {p : α → Bool}

theorem countP_set_of_getElem? (h : table[i]? = some x) :
    (table.set i y).countP p + (if p x then 1 else 0) = table.countP p + (if p y then 1 else 0) := by
  obtain ⟨hi, hx⟩ := List.getElem?_eq_some_iff.mp h
  have hset := List.countP_set (p := p) (a := y) hi
  have hle : (if p table[i] = true then 1 else 0) ≤ table.countP p :=
    List.boole_getElem_le_countP (p := p) hi
  rw [hx] at hset hle
  omega

/-- Two tests that agree but for one entry, which only the weaker one passes. -/
theorem countP_lt_countP {q : α → Bool} (himp : ∀ a, q a = true → p a = true)
    (h : table[i]? = some x) (hp : p x = true) (hq : q x = false) :
    table.countP q < table.countP p := by
  obtain ⟨hi, rfl⟩ := List.getElem?_eq_some_iff.mp h
  have hsplit : table = table.take i ++ table[i] :: table.drop (i + 1) := by simp
  have hbefore : (table.take i).countP q ≤ (table.take i).countP p :=
    List.countP_mono_left fun a _ => himp a
  have hafter : (table.drop (i + 1)).countP q ≤ (table.drop (i + 1)).countP p :=
    List.countP_mono_left fun a _ => himp a
  rw [hsplit, List.countP_append, List.countP_append, List.countP_cons_of_pos hp,
    List.countP_cons_of_neg (by simp [hq])]
  omega

end Table

/-! ## Accounts -/

/-- Every token of the semaphore is free or held by one entry of the table. -/
def Accounts {bound : ℕ} (s : BoundedSemaphore bound) (table : List α) (holds : α → Bool) : Prop :=
  s.value + table.countP holds = bound

namespace Accounts

variable {bound : ℕ} {s t : BoundedSemaphore bound} {table : List α} {holds : α → Bool} {i : ℕ}
  {x y : α}

/-- An entry changes without taking or giving a token. -/
theorem set_of_eq (h : Accounts s table holds) (hx : table[i]? = some x)
    (hsame : holds y = holds x) : Accounts s (table.set i y) holds := by
  have hcount := countP_set_of_getElem? (y := y) (p := holds) hx
  rw [hsame] at hcount
  show s.value + (table.set i y).countP holds = bound
  rw [Nat.add_right_cancel hcount]
  exact h

/-- An entry takes the token the semaphore gives. -/
theorem set_of_tryAcquire (h : Accounts s table holds) (hx : table[i]? = some x)
    (hfree : holds x = false) (hheld : holds y = true) (ht : s.tryAcquire = some t) :
    Accounts t (table.set i y) holds := by
  have hcount := countP_set_of_getElem? (y := y) (p := holds) hx
  have hvalue := BoundedSemaphore.value_of_tryAcquire ht
  simp only [hfree, hheld, if_true, Bool.false_eq_true, if_false] at hcount
  unfold Accounts at h ⊢
  omega

/-- An entry gives its token back. -/
theorem set_of_release (h : Accounts s table holds) (hx : table[i]? = some x)
    (hheld : holds x = true) (hfree : holds y = false) (ht : s.release = some t) :
    Accounts t (table.set i y) holds := by
  have hcount := countP_set_of_getElem? (y := y) (p := holds) hx
  have hvalue := BoundedSemaphore.value_of_release ht
  simp only [hfree, hheld, if_true, Bool.false_eq_true, if_false] at hcount
  unfold Accounts at h ⊢
  omega

/-- A new entry without a token. -/
theorem snoc_of_not (h : Accounts s table holds) (hy : holds y = false) :
    Accounts s (table ++ [y]) holds := by
  show s.value + (table ++ [y]).countP holds = bound
  rw [List.countP_append, List.countP_cons_of_neg (by simp [hy]), List.countP_nil]
  exact h

/-- A new entry with the token the semaphore gives. -/
theorem snoc_of_tryAcquire (h : Accounts s table holds) (hy : holds y = true)
    (ht : s.tryAcquire = some t) : Accounts t (table ++ [y]) holds := by
  have hvalue := BoundedSemaphore.value_of_tryAcquire ht
  unfold Accounts at h ⊢
  rw [List.countP_append, List.countP_cons_of_pos hy, List.countP_nil]
  omega

/-- Who holds a token can give it back: the bound is not reached while one is out. -/
theorem release_of_held (h : Accounts s table holds) (hx : table[i]? = some x)
    (hheld : holds x = true) : ∃ t, s.release = some t := by
  have hpos : 0 < table.countP holds :=
    List.countP_pos_iff.mpr ⟨x, List.mem_of_getElem? hx, hheld⟩
  have hne : s.release ≠ none := by
    rw [Ne, BoundedSemaphore.release_eq_none]
    unfold Accounts at h
    omega
  exact Option.ne_none_iff_exists'.mp hne

/-- An entry with an outer token and no inner one finds an inner one free, when inner holders are
    outer holders and there are as many inner tokens as outer ones. -/
theorem tryAcquire_of_nested {outer : BoundedSemaphore bound} {holdsOuter : α → Bool}
    (hinner : Accounts s table holds) (houter : Accounts outer table holdsOuter)
    (hnested : ∀ a, holds a = true → holdsOuter a = true) (hx : table[i]? = some x)
    (hout : holdsOuter x = true) (hin : holds x = false) : ∃ t, s.tryAcquire = some t := by
  have hlt := countP_lt_countP hnested hx hout hin
  have hne : s.tryAcquire ≠ none := by
    rw [Ne, BoundedSemaphore.tryAcquire_eq_none]
    unfold Accounts at hinner houter
    omega
  exact Option.ne_none_iff_exists'.mp hne

end Accounts

end AstroPassport
