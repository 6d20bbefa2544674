/-
Quoted text: a string between double quotes in which every character can be told apart. A quote and a
backslash are preceded by a backslash, the four common control characters have a letter, and what does
not show, or would merge with the character before it, is given by its code point.
-/
import ScriptValues.Text.BreakTable
import ScriptValues.Text.PrintTable
import ScriptValues.Text.Ranges

namespace ScriptValues.Text

/-- Characters that continue a cluster and still show by themselves, with a width of their own: the
halfwidth voiced and semi-voiced sound marks, and the emoji modifiers. -/
def spacingExtenders : List (Nat × Nat) := [(0xFF9E, 0xFF9F), (0x1F3FB, 0x1F3FF)]

/-- A combining character: written directly after a quote or a letter it would change how that looks. -/
def isCombining (n : Nat) : Bool :=
  n == 0x200C || (inRanges n BreakTable.extending && !inRanges n spacingExtenders)

/-- Letters without a shape, which stand for a part of a syllable that is left out: the Hangul fillers. -/
def fillers : List (Nat × Nat) := [(0x115F, 0x1160), (0x3164, 0x3164), (0xFFA0, 0xFFA0)]

/-- The character shows by itself. -/
def isPrintable (n : Nat) : Bool := !inRanges n PrintTable.unprintable && !inRanges n fillers

/-- A character inside quotes. -/
def quoteChar (c : Char) : List Char :=
  if c = '\x00' then ['\\', '0']
  else if c = '\t' then ['\\', 't']
  else if c = '\r' then ['\\', 'r']
  else if c = '\n' then ['\\', 'n']
  else if c = '"' then ['\\', '"']
  else if c = '\\' then ['\\', '\\']
  else if isCombining c.toNat || !isPrintable c.toNat then
    '\\' :: 'u' :: '\x7b' :: (Nat.toDigits 16 c.toNat ++ ['\x7d'])
  else [c]

/-- A text between quotes. -/
def quote (cs : List Char) : List Char := '"' :: (cs.flatMap quoteChar ++ ['"'])

end ScriptValues.Text
