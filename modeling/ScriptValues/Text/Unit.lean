/-
UTF-16 code units. A character below U+10000 is one unit, its code point; any other is a pair, a high
half in `D800 … DBFF` and a low half in `DC00 … DFFF`, ten bits in each.
-/

namespace ScriptValues.Text

/-- The code units of a character. -/
def charUnits (c : Char) : List Nat :=
  if c.toNat < 0x10000 then [c.toNat]
  else [0xD800 + (c.toNat - 0x10000) / 0x400, 0xDC00 + (c.toNat - 0x10000) % 0x400]

/-- The code units of a text. -/
def units (cs : List Char) : List Nat := cs.flatMap charUnits

def isHighHalf (u : Nat) : Bool := decide (0xD800 ≤ u) && decide (u < 0xDC00)

def isLowHalf (u : Nat) : Bool := decide (0xDC00 ≤ u) && decide (u < 0xE000)

/-- The code point that two halves make. -/
def joinHalves (high low : Nat) : Nat := 0x10000 + (high - 0xD800) * 0x400 + (low - 0xDC00)

/-- The code unit at a position. -/
def unitAt (cs : List Char) (i : Nat) : Option Nat := (units cs)[i]?

/-- The code point whose first unit is at a position; the unit itself at the second half of a pair. -/
def codePointAt (cs : List Char) (i : Nat) : Option Nat :=
  match (units cs).drop i with
  | [] => none
  | [u] => some u
  | u :: v :: _ => some (if isHighHalf u && isLowHalf v then joinHalves u v else u)

/-- The character that a single unit is; half a pair is none and gives the replacement character. -/
def unitChar (u : Nat) : Char :=
  if isHighHalf u || isLowHalf u then '\uFFFD' else Char.ofNat u

end ScriptValues.Text
