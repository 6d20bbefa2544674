/-
Upper and lower case of a whole text. Every character has one counterpart, or a sequence of them,
whatever stands around it, except the capital sigma: at the end of a word its lower case is the final
form.
-/
import ScriptValues.Text.CaseTable
import ScriptValues.Text.Ranges

namespace ScriptValues.Text

/-- The counterpart of a code point in a table of runs, itself if it is in none. -/
def shiftCase (n : Nat) : List CaseRun → Nat
  | [] => n
  | run :: rest =>
    if n < run.first then n
    else if n ≤ run.last then
      if (n - run.first) % run.step = 0 then (n + run.shift).toNat else n
    else shiftCase n rest

/-- The case of one character by a table of sequences and a table of runs. -/
def mapCase (sequences : List (Nat × List Nat)) (runs : List CaseRun) (c : Char) : List Char :=
  match sequences.lookup c.toNat with
  | some ns => ns.map Char.ofNat
  | none => [Char.ofNat (shiftCase c.toNat runs)]

def upperChar (c : Char) : List Char := mapCase CaseTable.upperSequences CaseTable.upper c

def lowerChar (c : Char) : List Char := mapCase CaseTable.lowerSequences CaseTable.lower c

/-- The first character that counts is a letter with a case. -/
def casedFirst (cs : List Char) : Bool :=
  match cs.dropWhile (fun c => inRanges c.toNat CaseTable.caseIgnorable) with
  | [] => false
  | c :: _ => inRanges c.toNat CaseTable.cased

/-- The lower case of `rest`, `before` being the characters to its left, the nearest first. A capital
sigma is final when a cased letter comes before it and none after it. -/
def lowerFrom (before : List Char) : List Char → List Char
  | [] => []
  | c :: rest =>
    (if c = 'Σ' then (if casedFirst before && !casedFirst rest then ['ς'] else ['σ'])
      else lowerChar c) ++ lowerFrom (c :: before) rest

def upper (cs : List Char) : List Char := cs.flatMap upperChar

def lower (cs : List Char) : List Char := lowerFrom [] cs

end ScriptValues.Text
