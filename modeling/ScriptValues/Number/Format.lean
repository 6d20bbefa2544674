/-
Numbers as text. A `NumberFormat` says where positional notation ends and how the exponent, a whole
number and the special values are written; the digits are the shortest that read back, except that a
format may ask for whole numbers in full. The formats in use are `plain`, the text a script sees, and
`detailed`, the text of the debugging view.
-/
import ScriptValues.Number.Arithmetic
import ScriptValues.Number.Decimal

namespace ScriptValues

/-- The choices that make a text out of the digits of a number. -/
structure NumberFormat where
  /-- The least magnitude above zero written without an exponent. -/
  positionalFrom : Num
  /-- The least magnitude above that written with an exponent again. -/
  exponentFrom : Num
  /-- What stands between `e` and an exponent that is not negative. -/
  exponentSign : List Char
  /-- What follows the digits of a whole number in positional notation. -/
  wholeSuffix : List Char
  /-- The text of zero. -/
  zero : List Char
  /-- A zero with its sign bit set is written with a minus. -/
  signedZero : Bool
  /-- The text of infinity. -/
  infinity : List Char

namespace NumberFormat

/-- The text a script sees: a whole number has no fraction, zero has no sign, and an exponent appears
below `0.000001` and from `10^21` on. -/
def plain : NumberFormat where
  positionalFrom := Num.ofDecimal false 1 (-6)
  exponentFrom := Num.ofDecimal false 1 21
  exponentSign := ['+']
  wholeSuffix := []
  zero := ['0']
  signedZero := false
  infinity := "Infinity".toList

/-- The text of the debugging view: a whole number keeps `.0`, zero keeps its sign, and an exponent
appears below `0.0001` and from `10^16` on. -/
def detailed : NumberFormat where
  positionalFrom := Num.ofDecimal false 1 (-4)
  exponentFrom := Num.ofDecimal false 1 16
  exponentSign := []
  wholeSuffix := ['.', '0']
  zero := "0.0".toList
  signedZero := true
  infinity := "inf".toList

/-- Digits with a point after the first, if there is a second. -/
def mantissa : List Char → List Char
  | [] => []
  | [c] => [c]
  | c :: cs => c :: '.' :: cs

/-- Notation with an exponent. -/
def scientific (f : NumberFormat) (d : Decimal) : List Char :=
  mantissa d.digits ++ 'e' ::
    if d.leading < 0 then '-' :: Nat.toDigits 10 d.leading.natAbs
    else f.exponentSign ++ Nat.toDigits 10 d.leading.natAbs

/-- Notation with a point between the units and the tenths; zeros fill the places between the digits
and the point. -/
def positional (d : Decimal) : List Char :=
  let places := (-d.exponent).toNat
  let digits := d.digits
  if digits.length ≤ places then
    '0' :: '.' :: (List.replicate (places - digits.length) '0' ++ digits)
  else digits.take (digits.length - places) ++ '.' :: digits.drop (digits.length - places)

/-- The text of a magnitude that is neither zero nor infinite. -/
def magnitude (f : NumberFormat) (x : Num) : List Char :=
  let x : Num := if x.isNegative then x.neg else x
  if x.lt f.positionalFrom || !x.lt f.exponentFrom then f.scientific x.shortest
  else
    match x.integer? with
    | some i => Nat.toDigits 10 i.natAbs ++ f.wholeSuffix
    | none => positional x.shortest

/-- The text of a number. -/
def render (f : NumberFormat) (x : Num) : List Char :=
  let signed (minus : Bool) (text : List Char) := if minus then '-' :: text else text
  if x.isNaN then "NaN".toList
  else if x.isInfinite then signed x.isNegative f.infinity
  else if x.magnitude = 0 then signed (x.isNegative && f.signedZero) f.zero
  else signed x.isNegative (f.magnitude x)

end NumberFormat

/-- The text of a number that scripts see. -/
def Num.text (x : Num) : String := .ofList (NumberFormat.plain.render x)

end ScriptValues
