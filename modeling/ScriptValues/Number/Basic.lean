/-
Script numbers: binary64 words, each read as an exact integer.

A word is a sign bit, eleven exponent bits and 52 fraction bits. Counted in units of `2^-1074`, every
finite number is the integer `scaled`, so equality, order, truncation and rounding are statements
about integers. Read by the same formula an infinity is `2^2098`, above every finite number, and
order and clamping need no case for it; only NaN is set apart.

* `Num.ofRatio` rounds an exact quotient once, to the nearest number and on a tie to the even
  significand; every operation here rounds through it.
* `Num.ofInt` is the number nearest an integer, and the integer itself up to `2^53`.

Powers are `Nat.pow` throughout, so that the fields of a word do not depend on which instance of `^` is in
scope.
-/

namespace ScriptValues

/-- A script number, held as its binary64 word. -/
structure Num where
  bits : UInt64
deriving DecidableEq, Inhabited

namespace Num

/-! ## Fields -/

/-- The word as a natural number. -/
def word (x : Num) : Nat := x.bits.toNat

/-- The sign bit is set (also on -0 and on half of the NaN words). -/
def isNegative (x : Num) : Bool := decide (Nat.pow 2 63 ≤ x.word)

/-- The exponent field: 0 for zero and subnormal numbers, 2047 for infinities and NaN. -/
def exponentField (x : Num) : Nat := x.word / Nat.pow 2 52 % Nat.pow 2 11

/-- The fraction field. -/
def fractionField (x : Num) : Nat := x.word % Nat.pow 2 52

def isNaN (x : Num) : Bool := x.exponentField == 2047 && x.fractionField != 0

def isInfinite (x : Num) : Bool := x.exponentField == 2047 && x.fractionField == 0

def isFinite (x : Num) : Bool := x.exponentField != 2047

/-- The significand, with the leading bit that normal numbers leave out. -/
def significand (x : Num) : Nat :=
  if x.exponentField = 0 then x.fractionField else Nat.pow 2 52 + x.fractionField

/-- The weight of the significand's last bit is `2 ^ scale` units. -/
def scale (x : Num) : Nat := x.exponentField - 1

/-- The absolute value in units of `2^-1074`. -/
def magnitude (x : Num) : Nat := x.significand * Nat.pow 2 x.scale

/-- The value in units of `2^-1074`. -/
def scaled (x : Num) : Int := if x.isNegative then -(x.magnitude : Int) else x.magnitude

/-- The number of units in one. -/
def one : Nat := Nat.pow 2 1074

/-! ## Building numbers -/

/-- The word with significand `m` and scale `p`: faithful when `m < 2^53`, `p ≤ 2045`, and `p = 0`
unless `2^52 ≤ m`. -/
def make (negative : Bool) (m p : Nat) : Num :=
  ⟨.ofNat ((if negative then Nat.pow 2 63 else 0) +
    if m < Nat.pow 2 52 then m else (p + 1) * Nat.pow 2 52 + (m - Nat.pow 2 52))⟩

/-- The quiet NaN that operations without a result give. -/
def nan : Num := ⟨0x7FF8000000000000⟩

def infinity (negative : Bool) : Num :=
  ⟨if negative then 0xFFF0000000000000 else 0x7FF0000000000000⟩

def zero (negative : Bool) : Num := make negative 0 0

/-- The natural number nearest `n / d`, the even one of two. -/
def roundDiv (n d : Nat) : Nat :=
  let q := n / d
  let r := n % d
  if 2 * r < d then q
  else if 2 * r = d then q + q % 2
  else q + 1

/-- The number nearest `n / d` units, of two the one with the even significand; infinity from half a
step above the largest finite number. -/
def ofRatio (negative : Bool) (n d : Nat) : Num :=
  let p := (n / d).log2 - 52
  let m := roundDiv n (d * Nat.pow 2 p)
  let (m, p) := if m < Nat.pow 2 53 then (m, p) else (Nat.pow 2 52, p + 1)
  if p ≤ 2045 then make negative m p else infinity negative

/-- The number nearest an integer. -/
def ofInt (i : Int) : Num := ofRatio (i < 0) (i.natAbs * one) 1

/-- The number nearest a natural number. -/
def ofNat (n : Nat) : Num := ofInt n

/-- The number nearest `c * 10 ^ e`. -/
def ofDecimal (negative : Bool) (c : Nat) (e : Int) : Num :=
  if 0 ≤ e then ofRatio negative (c * Nat.pow 10 e.toNat * one) 1
  else ofRatio negative (c * one) (Nat.pow 10 (-e).toNat)

/-! ## Comparison -/

/-- Numeric equality: the two zeros are equal, NaN equals nothing. -/
def eq (x y : Num) : Bool := !x.isNaN && !y.isNaN && x.scaled == y.scaled

/-- Numeric order; NaN is below nothing and above nothing. -/
def lt (x y : Num) : Bool := !x.isNaN && !y.isNaN && decide (x.scaled < y.scaled)

/-! ## Integer part -/

/-- The integer part, toward zero; NaN counts as 0 and an infinity as `2^1024` with its sign. -/
def truncate (x : Num) : Int := if x.isNaN then 0 else x.scaled.tdiv one

/-- The number is finite and has no fraction. -/
def isIntegral (x : Num) : Bool := x.isFinite && x.magnitude % one == 0

/-- The integer that a finite number without fraction is. -/
def integer? (x : Num) : Option Int := if x.isIntegral then some x.truncate else none

end Num

end ScriptValues
