import AstroPassport.Lib.Unicode
import Mathlib.Algebra.BigOperators.Group.List.Basic
import Mathlib.Algebra.GroupWithZero.Nat

set_option autoImplicit false

/-! # Packed binary records

Unsigned little-endian fields that follow each other without padding, read at an offset. A read that
does not fit is refused; one that fits gives each field from its own bytes.

A layout is the list of the widths of its fields, so one function reads every record, and
`unpackFrom_of_le` is all that a reader of a format needs of it: within the data the fields are
those at the offset and after each other, whatever the layout. -/

namespace AstroPassport

/-- The unsigned number of some bytes, the lowest first. -/
def littleEndian : List Byte → ℕ
  | [] => 0
  | b :: bs => b.val + 256 * littleEndian bs

/-- The field of a width at a position. -/
def fieldAt (data : List Byte) (pos width : ℕ) : ℕ := littleEndian ((data.drop pos).take width)

/-- Fields of some widths, one after the other from a position. -/
def unpackFields (data : List Byte) : ℕ → List ℕ → List ℕ
  | _, [] => []
  | pos, w :: widths => fieldAt data pos w :: unpackFields data (pos + w) widths

/-- `struct.unpack_from` with unsigned little-endian fields; `none` is a `struct.error`. -/
def unpackFrom (widths : List ℕ) (data : List Byte) (offset : ℕ) : Option (List ℕ) :=
  if offset + widths.sum ≤ data.length then some (unpackFields data offset widths) else none

theorem unpackFrom_of_le {widths : List ℕ} {data : List Byte} {offset : ℕ}
    (h : offset + widths.sum ≤ data.length) :
    unpackFrom widths data offset = some (unpackFields data offset widths) :=
  if_pos h

end AstroPassport
