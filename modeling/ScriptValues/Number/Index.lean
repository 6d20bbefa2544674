/-
Script numbers as positions. Three readings are in use: the integer part within 64 signed bits
(`toIndex`), a position counted from either end and clamped to a length (`relativeIndex`), and the
number taken only if it is a natural number exactly (`exactIndex`).

* `relativeIndex_le`: a position counted from either end is never past the end.
-/
import ScriptValues.Number.Basic

namespace ScriptValues.Num

/-- The greatest 64-bit signed integer. -/
def indexMax : Int := Nat.pow 2 63 - 1

/-- The least 64-bit signed integer. -/
def indexMin : Int := -Nat.pow 2 63

/-- The integer part, clamped to 64 signed bits; NaN counts as 0. -/
def toIndex (x : Num) : Int := max indexMin (min indexMax x.truncate)

/-- A position in a sequence of length `len`: a negative number counts from the end, and the result
never leaves `0 … len`. -/
def relativeIndex (x : Num) (len : Nat) : Nat :=
  let i := x.toIndex
  if i < 0 then len - min i.natAbs len else min i.toNat len

theorem relativeIndex_le (x : Num) (len : Nat) : x.relativeIndex len ≤ len := by
  unfold relativeIndex
  simp only
  split
  · exact Nat.sub_le _ _
  · exact Nat.min_le_right _ _

/-- The natural number below `2^64` that `x` is; `2^64` itself is taken down to the last of them. -/
def exactIndex (x : Num) : Option Nat :=
  if x.isIntegral && decide (0 ≤ x.scaled) && decide (x.truncate ≤ Nat.pow 2 64) then
    some (min x.truncate.toNat (Nat.pow 2 64 - 1))
  else none

/-- A position that may not be negative: negatives count as 0. -/
def clampIndex (x : Num) : Nat := x.toIndex.toNat

/-- A position from the start: none when negative. -/
def startIndex (x : Num) : Option Nat := if x.toIndex < 0 then none else some x.toIndex.toNat

end ScriptValues.Num
