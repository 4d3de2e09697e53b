import AstroPassport.Lib.Binary64

set_option autoImplicit false

/-! # Adding and comparing floats

`+`, `-` and `<` on all binary64 values, infinities and NaNs included. A sum that is exactly zero is
the positive zero, unless both operands carry the sign.

Each operation is one rounding of the exact result, as IEEE 754 asks for, so that what is known of
the rounding carries over to sums and differences. Comparisons with a NaN are false, and a NaN
operand gives a NaN. `value?` is the exact value of a number that has one. -/

namespace AstroPassport

namespace Binary64

/-- `math.isfinite(x)`. -/
def isFinite : Binary64 → Bool
  | .finite _ => true
  | _ => false

/-- `-x`. -/
def negate : Binary64 → Binary64
  | .finite x => .finite { x with neg := !x.neg }
  | .inf neg => .inf !neg
  | .nan => .nan

/-- `x + y`. -/
def add : Binary64 → Binary64 → Binary64
  | .finite x, .finite y =>
    if x.value + y.value = 0 then .finite (Finite64.zero (x.neg && y.neg))
    else ofRat (x.value + y.value)
  | .inf a, .inf b => if a = b then .inf a else .nan
  | .inf a, .finite _ => .inf a
  | .finite _, .inf b => .inf b
  | .nan, _ => .nan
  | _, .nan => .nan

/-- `x - y`. -/
def sub (x y : Binary64) : Binary64 := x.add y.negate

/-- `x < y`, which holds of no NaN. -/
def lt : Binary64 → Binary64 → Bool
  | .finite x, .finite y => decide (x.value < y.value)
  | .finite _, .inf neg => !neg
  | .inf neg, .finite _ => neg
  | .inf a, .inf b => a && !b
  | _, _ => false

/-- The exact value of a finite float. -/
def value? : Binary64 → Option ℚ
  | .finite x => some x.value
  | _ => none

end Binary64

end AstroPassport
