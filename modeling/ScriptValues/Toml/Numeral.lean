/-
Integers and floats in TOML. Underscores may stand between digits; decimal integers have no leading
zero. An integer must fit into 64 signed bits, and a float that would round to positive infinity is
refused. Each reader takes the text from the front and gives the rest.
-/
import ScriptValues.Number.Basic

namespace ScriptValues.Toml

/-- Further digits of a run, an underscore being allowed before each. -/
def moreDigits (isDigit : Char → Bool) : List Char → List Char × List Char
  | [] => ([], [])
  | '_' :: c :: rest =>
    if isDigit c then
      let (digits, rest) := moreDigits isDigit rest
      (c :: digits, rest)
    else ([], '_' :: c :: rest)
  | c :: rest =>
    if isDigit c then
      let (digits, rest) := moreDigits isDigit rest
      (c :: digits, rest)
    else ([], c :: rest)

/-- A run of digits, not empty. -/
def digitRun (isDigit : Char → Bool) : List Char → Option (List Char × List Char)
  | [] => none
  | c :: rest =>
    if isDigit c then
      let (digits, rest) := moreDigits isDigit rest
      some (c :: digits, rest)
    else none

/-- A sign, and whether it is a minus. -/
def sign : List Char → Bool × List Char
  | '-' :: rest => (true, rest)
  | '+' :: rest => (false, rest)
  | rest => (false, rest)

/-- The digits of a decimal integer: zero alone, or a run that does not begin with it. -/
def decimalDigits : List Char → Option (List Char × List Char)
  | '0' :: rest => some (['0'], rest)
  | cs => digitRun Char.isDigit cs

/-- The value of a digit up to sixteen. -/
def digitValue (c : Char) : Nat :=
  if c.isDigit then c.toNat - '0'.toNat
  else if 'a' ≤ c then c.toNat - 'a'.toNat + 10
  else c.toNat - 'A'.toNat + 10

def isHexDigit (c : Char) : Bool :=
  c.isDigit || (decide ('a' ≤ c) && decide (c ≤ 'f')) || (decide ('A' ≤ c) && decide (c ≤ 'F'))

def isOctalDigit (c : Char) : Bool := decide ('0' ≤ c) && decide (c ≤ '7')

def isBinaryDigit (c : Char) : Bool := c == '0' || c == '1'

/-- The number that digits denote in a base. -/
def valueIn (base : Nat) (digits : List Char) : Nat :=
  digits.foldl (fun n c => base * n + digitValue c) 0

/-- An integer, if it fits into 64 signed bits. -/
def inRange (i : Int) : Option Int := if -Nat.pow 2 63 ≤ i ∧ i < Nat.pow 2 63 then some i else none

/-- Digits in a base other than ten. -/
def basedInteger? (base : Nat) (isDigit : Char → Bool) (cs : List Char) :
    Option (Int × List Char) := do
  let (digits, rest) ← digitRun isDigit cs
  let i ← inRange (valueIn base digits)
  some (i, rest)

/-- An integer, in base ten with a sign or in another without. -/
def integer? : List Char → Option (Int × List Char)
  | '0' :: 'x' :: rest => basedInteger? 16 isHexDigit rest
  | '0' :: 'o' :: rest => basedInteger? 8 isOctalDigit rest
  | '0' :: 'b' :: rest => basedInteger? 2 isBinaryDigit rest
  | cs => do
    let (negative, cs) := sign cs
    let (digits, rest) ← decimalDigits cs
    let n : Int := valueIn 10 digits
    let i ← inRange (if negative then -n else n)
    some (i, rest)

/-- Numbers from `10 ^ farthest` on round to infinity, and those below `10 ^ -farthest` to zero. -/
def farthest : Int := 400

/-- The number nearest `digits * 10 ^ e`. -/
def decimalValue (negative : Bool) (digits : List Char) (e : Int) : Num :=
  let c := valueIn 10 digits
  if c = 0 then .zero negative
  else if farthest < e then .infinity negative
  else if e + digits.length < -farthest then .zero negative
  else .ofDecimal negative c e

/-- An exponent. -/
def exponent? : List Char → Option (Int × List Char)
  | c :: rest =>
    if c = 'e' ∨ c = 'E' then do
      let (negative, rest) := sign rest
      let (digits, rest) ← digitRun Char.isDigit rest
      let n : Int := valueIn 10 digits
      some (if negative then -n else n, rest)
    else none
  | [] => none

/-- The digits after the point. -/
def fractionDigits? : List Char → Option (List Char × List Char)
  | '.' :: rest => digitRun Char.isDigit rest
  | _ => none

/-- A float with digits: a fraction, an exponent or both must follow the integer part. -/
def decimalFloat? (cs : List Char) : Option (Num × List Char) := do
  let (negative, cs) := sign cs
  let (whole, rest) ← decimalDigits cs
  let (digits, e, rest) ←
    match fractionDigits? rest with
    | some (places, rest) =>
      match exponent? rest with
      | some (e, rest) => some (whole ++ places, e - places.length, rest)
      | none => some (whole ++ places, -(places.length : Int), rest)
    | none => (exponent? rest).map fun (e, rest) => (whole, e, rest)
  let x := decimalValue negative digits e
  if x = .infinity false then none else some (x, rest)

/-- Infinity and NaN, which have a sign but no digits. -/
def specialFloat? (cs : List Char) : Option (Num × List Char) :=
  let (negative, cs) := sign cs
  match cs with
  | 'i' :: 'n' :: 'f' :: rest => some (.infinity negative, rest)
  | 'n' :: 'a' :: 'n' :: rest => some (.nan, rest)
  | _ => none

def float? (cs : List Char) : Option (Num × List Char) :=
  (decimalFloat? cs).orElse fun _ => specialFloat? cs

end ScriptValues.Toml
