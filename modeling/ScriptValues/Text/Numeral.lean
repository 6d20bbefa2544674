/-
The integer at the start of a text: white space, a sign, and a run of decimal digits of any length,
read as one number and rounded once. What follows the digits does not matter.
-/
import ScriptValues.Number.Basic
import ScriptValues.Text.Space

namespace ScriptValues.Text

/-- The number that a run of decimal digits denotes. -/
def digitsValue (ds : List Char) : Nat := ds.foldl (fun n c => 10 * n + (c.toNat - '0'.toNat)) 0

/-- The number nearest a run of digits with a sign; none if the run is empty. A zero with
a minus is -0. -/
def ofDigits (negative : Bool) (cs : List Char) : Option Num :=
  let ds := cs.takeWhile Char.isDigit
  if ds.isEmpty then none else some (.ofDecimal negative (digitsValue ds) 0)

/-- The integer at the start of a text, if there is one. -/
def leadingInteger (cs : List Char) : Option Num :=
  match trimStart cs with
  | '-' :: rest => ofDigits true rest
  | '+' :: rest => ofDigits false rest
  | rest => ofDigits false rest

end ScriptValues.Text
