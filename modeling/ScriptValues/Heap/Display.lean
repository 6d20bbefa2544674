/-
Values as text. Two forms: `display` is what a script shows, `debug` names the kind of every value.
Texts inside an array are quoted, so that arrays of plain data print alike only if they are alike;
arrays nested deeper than `displayLevels` are cut off, which also ends the text of an array that
contains itself.
-/
import ScriptValues.Heap.Basic
import ScriptValues.Number.Format
import ScriptValues.Text.Quoted

namespace ScriptValues

/-- The text of a value, given the text of cells. -/
def Value.textWith (cells : Cell → List Char) (quoted : Bool) : Value → List Char
  | .null => "null".toList
  | .bool b => if b then "true".toList else "false".toList
  | .num n => NumberFormat.plain.render n
  | .str s => if quoted then Text.quote s.toList else s.toList
  | .arr c => cells c
  | .fn f => '@' :: f.name.toList
  | .error name => "error:".toList ++ name.toList
  | .errorWith name _ => "error:".toList ++ name.toList

/-- How many levels of arrays are shown. -/
def displayLevels : Nat := 33

namespace Heap

/-- The text of a cell, with this many levels left. -/
def cellText (h : Heap) : (levels : Nat) → Cell → List Char
  | 0, _ => "[...]".toList
  | levels + 1, c =>
    '[' :: (List.intercalate [',', ' ']
      ((h.contents c).toList.map (Value.textWith (cellText h levels) true)) ++ [']'])

/-- The text that a script shows. -/
def displayChars (h : Heap) (v : Value) : List Char := v.textWith (h.cellText displayLevels) false

def display (h : Heap) (v : Value) : String := .ofList (h.displayChars v)

/-- The text of the debugging view. -/
def debugChars (h : Heap) : Value → List Char
  | .null => "Null".toList
  | .bool b => "Bool(".toList ++ (if b then "true".toList else "false".toList) ++ [')']
  | .num n => "Num(".toList ++ NumberFormat.detailed.render n ++ [')']
  | .str s => "Str(".toList ++ Text.quote s.toList ++ [')']
  | .arr c => "Arr(".toList ++ h.cellText displayLevels c ++ [')']
  | .fn (.native _ b) => "Fn(NativeFn(".toList ++ b.name.toList ++ "))".toList
  | .fn (.script id) => "Fn(ScriptFn(#".toList ++ Nat.toDigits 10 id ++ "))".toList
  | .error name =>
    "Error(ErrorValue \x7b name: ".toList ++ Text.quote name.toList ++ ", info: None \x7d)".toList
  | .errorWith name info =>
    "Error(ErrorValue \x7b name: ".toList ++ Text.quote name.toList ++ ", info: Some(".toList ++
      debugChars h info ++ ") \x7d)".toList

def debug (h : Heap) (v : Value) : String := .ofList (h.debugChars v)

end Heap

end ScriptValues
