import Mathlib.Data.List.Basic

set_option autoImplicit false

/-! # Checks of a validator

A validator reports what it refuses by a `ValueError`, which is collected while the other parts are
still looked at; any other exception leaves it at once.

`Checked` is the outcome of such a computation: a value, a refusal, or an exception that escapes.
`bind` runs one check after another, `both` runs two parts of which each is looked at whatever
becomes of the other, with an escaping exception before a refusal. The lemmas say when a computation
succeeds, and when nothing but a refusal can leave it (`Contained`), each rule for one way of
putting computations together, so that a model is shown to be contained part by part. -/

namespace AstroPassport

/-- The exceptions that are not a `ValueError` and that arithmetic raises in a validator. -/
inductive Escape where
  | overflowError
  | invalidOperation
  deriving DecidableEq, Repr

/-- How a check ends. -/
inductive Checked (α : Type) where
  | ok (a : α)
  | valueError
  | escaped (e : Escape)
  deriving DecidableEq

namespace Checked

variable {α β γ : Type}

/-- A function of the value, if there is one. -/
def map (f : α → β) : Checked α → Checked β
  | .ok a => .ok (f a)
  | .valueError => .valueError
  | .escaped e => .escaped e

/-- A computation on the value, if there is one. -/
protected def bind (x : Checked α) (f : α → Checked β) : Checked β :=
  match x with
  | .ok a => f a
  | .valueError => .valueError
  | .escaped e => .escaped e

instance : Monad Checked where
  pure := .ok
  bind := Checked.bind

/-- A value, or a `ValueError` where there is none. -/
def ofOption : Option α → Checked α
  | some a => .ok a
  | none => .valueError

/-- A value, or an `OverflowError` where there is none. -/
def orOverflow : Option α → Checked α
  | some a => .ok a
  | none => .escaped .overflowError

/-- A `ValueError` unless a condition holds. -/
def require (p : Bool) : Checked Unit := if p then .ok () else .valueError

/-- A result that is refused unless a condition holds; what escaped stays. -/
def whenever (p : Bool) : Checked α → Checked α
  | .ok a => if p then .ok a else .valueError
  | x => x

/-- Two parts, the second looked at also when the first is refused. -/
def both (x : Checked α) (y : Checked β) : Checked (α × β) :=
  match x, y with
  | .ok a, .ok b => .ok (a, b)
  | .escaped e, _ => .escaped e
  | _, .escaped e => .escaped e
  | _, _ => .valueError

@[simp]
theorem map_eq_ok {f : α → β} {x : Checked α} {b : β} :
    x.map f = .ok b ↔ ∃ a, x = .ok a ∧ f a = b := by
  cases x <;> simp [map]

@[simp]
theorem bind_eq_ok {x : Checked α} {f : α → Checked β} {b : β} :
    (x >>= f) = .ok b ↔ ∃ a, x = .ok a ∧ f a = .ok b := by
  cases x <;> simp [bind, Checked.bind]

@[simp]
theorem ok_bind (a : α) (f : α → Checked β) : (Checked.ok a >>= f) = f a := rfl

@[simp]
theorem ofOption_eq_ok {x : Option α} {a : α} : ofOption x = .ok a ↔ x = some a := by
  cases x <;> simp [ofOption]

@[simp]
theorem orOverflow_eq_ok {x : Option α} {a : α} : orOverflow x = .ok a ↔ x = some a := by
  cases x <;> simp [orOverflow]

@[simp]
theorem require_eq_ok {p : Bool} {u : Unit} : require p = .ok u ↔ p = true := by
  cases p <;> simp [require]

@[simp]
theorem whenever_eq_ok {p : Bool} {x : Checked α} {a : α} :
    x.whenever p = .ok a ↔ x = .ok a ∧ p = true := by
  cases x <;> cases p <;> simp [whenever]

@[simp]
theorem both_eq_ok {x : Checked α} {y : Checked β} {p : α × β} :
    x.both y = .ok p ↔ x = .ok p.1 ∧ y = .ok p.2 := by
  obtain ⟨a, b⟩ := p
  cases x <;> cases y <;> simp [both]

/-! ## Checks that only a `ValueError` leaves -/

/-- No other exception leaves. -/
def Contained (x : Checked α) : Prop := ∀ e, x ≠ .escaped e

@[simp]
theorem contained_ok (a : α) : (ok a).Contained := fun _ h => by cases h

@[simp]
theorem contained_valueError : (valueError : Checked α).Contained := fun _ h => by cases h

@[simp]
theorem not_contained_escaped (e : Escape) : ¬ (escaped e : Checked α).Contained :=
  fun h => h e rfl

@[simp]
theorem contained_map {f : α → β} {x : Checked α} : (x.map f).Contained ↔ x.Contained := by
  cases x <;> simp [map]

@[simp]
theorem contained_bind {x : Checked α} {f : α → Checked β} :
    (x.bind f).Contained ↔ x.Contained ∧ ∀ a, x = .ok a → (f a).Contained := by
  cases x <;> simp [Checked.bind]

@[simp]
theorem contained_do {x : Checked α} {f : α → Checked β} :
    (x >>= f).Contained ↔ x.Contained ∧ ∀ a, x = .ok a → (f a).Contained := contained_bind

@[simp]
theorem contained_both {x : Checked α} {y : Checked β} :
    (x.both y).Contained ↔ x.Contained ∧ y.Contained := by
  cases x <;> cases y <;> simp [both]

@[simp]
theorem contained_whenever {p : Bool} {x : Checked α} :
    (x.whenever p).Contained ↔ x.Contained := by
  cases x <;> cases p <;> simp [whenever]

@[simp]
theorem contained_ofOption {x : Option α} : (ofOption x).Contained := by
  cases x <;> simp [ofOption]

@[simp]
theorem contained_require {p : Bool} : (require p).Contained := by
  cases p <;> simp [require]

theorem contained_orOverflow {x : Option α} : (orOverflow x).Contained ↔ x.isSome = true := by
  cases x <;> simp [orOverflow]

end Checked

end AstroPassport
