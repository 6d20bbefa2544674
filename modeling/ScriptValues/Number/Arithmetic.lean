/-
Arithmetic on script numbers. Each operation takes the exact result as an integer or a quotient of
integers and rounds it once; infinities and NaN follow the usual rules. `Num.modulo` is not one
operation but four, each rounded: `x - y * floor (x / y)`.
-/
import ScriptValues.Number.Basic

namespace ScriptValues.Num

/-- The same number with the other sign. -/
def neg (x : Num) : Num := ⟨x.bits ^^^ 0x8000000000000000⟩

/-- A finite value given in units, rounded; `negativeZero` is the sign a zero gets. -/
def ofScaled (i : Int) (negativeZero : Bool) : Num :=
  if i = 0 then zero negativeZero else ofRatio (i < 0) i.natAbs 1

def add (x y : Num) : Num :=
  if x.isNaN || y.isNaN then nan
  else if x.isInfinite then
    if y.isInfinite && x.isNegative != y.isNegative then nan else x
  else if y.isInfinite then y
  else ofScaled (x.scaled + y.scaled) (x.isNegative && y.isNegative)

def sub (x y : Num) : Num := add x y.neg

def mul (x y : Num) : Num :=
  let negative := x.isNegative != y.isNegative
  if x.isNaN || y.isNaN then nan
  else if x.isInfinite || y.isInfinite then
    if x.magnitude = 0 || y.magnitude = 0 then nan else infinity negative
  else ofRatio negative (x.magnitude * y.magnitude) one

def div (x y : Num) : Num :=
  let negative := x.isNegative != y.isNegative
  if x.isNaN || y.isNaN then nan
  else if x.isInfinite then
    if y.isInfinite then nan else infinity negative
  else if y.isInfinite then zero negative
  else if y.magnitude = 0 then
    if x.magnitude = 0 then nan else infinity negative
  else ofRatio negative (x.magnitude * one) y.magnitude

/-- The greatest integral number not above `x`; NaN and infinities stay. -/
def floor (x : Num) : Num :=
  if x.isFinite then ofScaled (x.scaled.fdiv one * one) x.isNegative else x

/-- `x - y * floor (x / y)`: the remainder with the sign of `y`, up to rounding. -/
def modulo (x y : Num) : Num := sub x (mul y (floor (div x y)))

end ScriptValues.Num
