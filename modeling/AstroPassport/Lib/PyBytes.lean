import AstroPassport.Lib.Digits
import AstroPassport.Lib.Unicode

set_option autoImplicit false

/-! # Slices and integers of Python bytes

A slice takes any two integers: a negative one counts from the end, and what lies outside is cut
off. `int(b, 16)` takes more than hexadecimal digits: white space around them, a sign, `0x`, and
single underscores between digits.

Both are what a reader of binary formats meets when it computes positions from the data itself. A
slice never fails, so a position that is out of range shows only in the length of what comes back
(`neg_length_le_of_pySlice`), and for positions within the data it is the bytes between them
(`pySlice_natCast`). A field of eight digits can therefore be a negative number, or have fewer
digits than bytes. -/

namespace AstroPassport

section

variable {α : Type}

/-- Where an index of a slice falls. -/
def sliceIndex (length : ℕ) (i : ℤ) : ℕ :=
  if i < 0 then (i + length).toNat else min i.toNat length

/-- `data[i:j]`. -/
def pySlice (data : List α) (i j : ℤ) : List α :=
  (data.drop (sliceIndex data.length i)).take
    (sliceIndex data.length j - sliceIndex data.length i)

theorem sliceIndex_natCast {length i : ℕ} (h : i ≤ length) : sliceIndex length i = i := by
  unfold sliceIndex
  rw [if_neg (by omega)]
  omega

/-- A slice within the data. -/
theorem pySlice_natCast {data : List α} {i n : ℕ} (h : i + n ≤ data.length) :
    pySlice data i (i + n) = (data.drop i).take n := by
  have hstop : sliceIndex data.length ((i : ℤ) + n) = i + n := by
    rw [← Nat.cast_add]
    exact sliceIndex_natCast h
  rw [pySlice, hstop, sliceIndex_natCast (by omega), Nat.add_sub_cancel_left]

/-- A slice that is as long as asked for does not begin before the data. -/
theorem neg_length_le_of_pySlice {data : List α} {i : ℤ} {n : ℕ}
    (h : (pySlice data i (i + n)).length = n) (hn : 0 < n) : -(data.length : ℤ) ≤ i := by
  by_contra hlt
  have hle : (pySlice data i (i + n)).length ≤
      sliceIndex data.length (i + n) - sliceIndex data.length i := List.length_take_le _ _
  rw [h] at hle
  unfold sliceIndex at hle
  split_ifs at hle <;> omega

end

/-! ## Integers -/

/-- `Py_ISSPACE` of a byte. -/
def isSpaceByte (b : Byte) : Bool := b.val = 32 || (9 ≤ b.val && b.val ≤ 13)

/-- Hexadecimal digits with single underscores between them, from one that is due; their number and
    what follows them. -/
def hexRun (due : Bool) (n : ℕ) : List Byte → Option (ℕ × List Byte)
  | [] => if due then none else some (n, [])
  | b :: bs =>
    if b.val = 95 then if due then none else hexRun true n bs
    else
      match hexDigit? (Char.ofNat b.val) with
      | some d => hexRun false (16 * n + d) bs
      | none => if due then none else some (n, b :: bs)

/-- A sign, if there is one. -/
def takeSign : List Byte → ℤ × List Byte
  | [] => (1, [])
  | b :: bs => if b.val = 43 then (1, bs) else if b.val = 45 then (-1, bs) else (1, b :: bs)

/-- An underscore, if there is one. -/
def dropUnderscore : List Byte → List Byte
  | [] => []
  | b :: bs => if b.val = 95 then bs else b :: bs

/-- `0x` and an underscore after it, if they are there. -/
def dropRadix : List Byte → List Byte
  | b :: c :: bs =>
    if b.val = 48 ∧ (c.val = 120 ∨ c.val = 88) then dropUnderscore bs else b :: c :: bs
  | bs => bs

/-- `int(b, 16)`; `none` is a `ValueError`. -/
def pyIntHex (b : List Byte) : Option ℤ :=
  let signed := takeSign (b.dropWhile isSpaceByte)
  (hexRun true 0 (dropRadix signed.2)).bind fun run =>
    if run.2.all isSpaceByte then some (signed.1 * run.1) else none

example : ["00000010", " -1_0  ", "0x_00010", "1__00000", "0x"].map (fun s => pyIntHex (ascii s)) =
    [some 16, some (-16), some 16, none, none] := by decide

end AstroPassport
