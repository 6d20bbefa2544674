/-
Shortest decimals. A finite number stands for the interval of reals that round to it; of the decimals
in that interval `Num.shortest` picks one with the fewest digits, among those the nearest to the
number, and of two equally near the greater.

Values are counted in quarters of a unit, `2^-1076`, so that both ends of the interval are natural
numbers. For each count of digits only the two neighbours of the number on that decimal grid are
tried: if a grid meets the interval at all, one of the two lies in it.
-/
import ScriptValues.Number.Basic

namespace ScriptValues

/-- The decimal `coefficient * 10 ^ exponent`. -/
structure Decimal where
  coefficient : Nat
  exponent : Int
deriving DecidableEq

namespace Decimal

/-- The digits of the coefficient, most significant first. -/
def digits (d : Decimal) : List Char := Nat.toDigits 10 d.coefficient

/-- The exponent of the first digit. -/
def leading (d : Decimal) : Int := d.exponent + d.digits.length - 1

/-- The same value without zeros at the end of the coefficient. -/
def strip (d : Decimal) : Decimal :=
  let zeros := (d.digits.reverse.takeWhile (· == '0')).length
  ⟨d.coefficient / Nat.pow 10 zeros, d.exponent + zeros⟩

end Decimal

namespace Num

/-- The magnitude in quarters of a unit. -/
def quarters (x : Num) : Nat := 4 * x.magnitude

/-- From the number down to the lower end of its interval, in quarters: half a step, or half of that
where the step below is half as long. -/
def below (x : Num) : Nat :=
  if x.significand = Nat.pow 2 52 ∧ 0 < x.scale then Nat.pow 2 x.scale else 2 * Nat.pow 2 x.scale

/-- From the number up to the upper end of its interval, in quarters. -/
def above (x : Num) : Nat := 2 * Nat.pow 2 x.scale

/-- `n / d` quarters round to the magnitude of `x`; the ends of the interval do when the significand
is even. -/
def roundsTo (x : Num) (n d : Nat) : Bool :=
  let low := (x.quarters - x.below) * d
  let high := (x.quarters + x.above) * d
  if x.significand % 2 = 0 then decide (low ≤ n ∧ n ≤ high) else decide (low < n ∧ n < high)

/-- No finite number other than zero has its first digit below this exponent. -/
def leastLeading : Nat := 324

/-- The exponent of the first decimal digit of the magnitude of a finite number other than zero. -/
def leadingExponent (x : Num) : Int :=
  ((Nat.toDigits 10 (x.quarters * Nat.pow 10 leastLeading / (4 * one))).length : Int) - 1 - leastLeading

/-- A decimal with quotient `c * 10 ^ e`, as a numerator and a denominator in quarters. -/
def quartersOf (c : Nat) (e : Int) : Nat × Nat :=
  if 0 ≤ e then (c * Nat.pow 10 e.toNat * (4 * one), 1) else (c * (4 * one), Nat.pow 10 (-e).toNat)

/-- The decimal on the grid of multiples of `10 ^ e` that rounds to `x`: the nearer of the two
neighbours, the upper one when they are equally near. -/
def onGrid (x : Num) (e : Int) : Option Decimal :=
  let (unit, d) := quartersOf 1 e
  let value := x.quarters * d
  let c := value / unit
  let lower := x.roundsTo (c * unit) d
  let upper := x.roundsTo ((c + 1) * unit) d
  if lower && upper then
    if value - c * unit < (c + 1) * unit - value then some ⟨c, e⟩ else some ⟨c + 1, e⟩
  else if lower then some ⟨c, e⟩
  else if upper then some ⟨c + 1, e⟩
  else none

/-- The first grid with a decimal that rounds to `x`, from `digits` digits on. -/
def shortestFrom (x : Num) (top : Int) : (tries digits : Nat) → Decimal
  | 0, _ => ⟨x.magnitude, 0⟩
  | tries + 1, digits =>
    match x.onGrid (top - digits + 1) with
    | some d => d.strip
    | none => shortestFrom x top tries (digits + 1)

/-- The shortest decimal that rounds to the magnitude of a finite number other than zero. Seventeen
digits are always enough. -/
def shortest (x : Num) : Decimal := x.shortestFrom x.leadingExponent 17 1

end Num

end ScriptValues
