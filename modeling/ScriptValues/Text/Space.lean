/-
What scripts take for white space: the characters Unicode calls so, without the next-line control
U+0085 and with the byte order mark U+FEFF.
-/
import ScriptValues.Text.Ranges

namespace ScriptValues.Text

/-- The ranges of script white space. -/
def spaces : List (Nat × Nat) := [
  (0x9, 0xD), (0x20, 0x20), (0xA0, 0xA0), (0x1680, 0x1680), (0x2000, 0x200A), (0x2028, 0x2029),
  (0x202F, 0x202F), (0x205F, 0x205F), (0x3000, 0x3000), (0xFEFF, 0xFEFF)]

def isSpace (c : Char) : Bool := inRanges c.toNat spaces

/-- The text without the white space at its start. -/
def trimStart (cs : List Char) : List Char := cs.dropWhile isSpace

/-- The text without the white space at its ends. -/
def trim (cs : List Char) : List Char := (trimStart (trimStart cs).reverse).reverse

end ScriptValues.Text
