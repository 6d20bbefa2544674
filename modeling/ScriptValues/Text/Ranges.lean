/-
Sets of characters given by ranges of code points, in increasing order. `inRanges` reads a table from
the left and stops at the first range that begins above the code point, so characters near the start
are found, or missed, at once.
-/

namespace ScriptValues.Text

/-- The code point lies in one of the ranges, ends included; the ranges are in increasing order. -/
def inRanges (n : Nat) : List (Nat × Nat) → Bool
  | [] => false
  | (low, high) :: rest => if n < low then false else if n ≤ high then true else inRanges n rest

end ScriptValues.Text
