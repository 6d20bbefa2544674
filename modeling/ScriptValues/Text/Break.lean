/-
Where one grapheme cluster ends and the next begins. `BreakClass` is what the rules see of a character;
`Context` is what they remember of the cluster so far, and no more than that: the class of the last
character, and whether the characters before it can still take in another of the same kind (regional
indicators in pairs, pictographs through a joiner, consonants through a linker). Nothing before the
cluster's first character matters, so a cluster cut out of its text is a cluster again.
-/
import ScriptValues.Text.BreakTable
import ScriptValues.Text.Ranges

namespace ScriptValues.Text

/-- The classes of characters that the rules for extended grapheme clusters tell apart. -/
inductive BreakClass
  | other | carriageReturn | lineFeed | control
  | extending | linker | nonJoiner | joiner | spacingMark | prepending
  | leadingJamo | vowelJamo | trailingJamo | openSyllable | closedSyllable
  | regional | pictograph | consonant
deriving DecidableEq, Inhabited

open BreakTable in
/-- The class of a code point. -/
def breakClassOf (n : Nat) : BreakClass :=
  if n = 0x0D then .carriageReturn
  else if n = 0x0A then .lineFeed
  else if n = 0x200C then .nonJoiner
  else if n = 0x200D then .joiner
  else if 0x1F1E6 ≤ n ∧ n ≤ 0x1F1FF then .regional
  else if 0xAC00 ≤ n ∧ n ≤ 0xD7A3 then
    if (n - 0xAC00) % 28 = 0 then .openSyllable else .closedSyllable
  else if inRanges n control then .control
  else if inRanges n linkers then .linker
  else if inRanges n extending then .extending
  else if inRanges n spacingMarks then .spacingMark
  else if inRanges n prepending then .prepending
  else if inRanges n consonants then .consonant
  else if inRanges n pictographs then .pictograph
  else if inRanges n leadingJamo then .leadingJamo
  else if inRanges n vowelJamo then .vowelJamo
  else if inRanges n trailingJamo then .trailingJamo
  else .other

/-- The class of a character. -/
def breakClass (c : Char) : BreakClass := breakClassOf c.toNat

/-- How far a cluster's end is on the way from a consonant to the next one. -/
inductive Conjunct
  /-- No consonant, or something after it that ends the conjunct. -/
  | none
  /-- A consonant and extending characters without a linker. -/
  | consonant
  /-- A consonant and extending characters with a linker among them. -/
  | linked
deriving DecidableEq, Inhabited

/-- How far a cluster's end is on the way from a pictograph to the next one. -/
inductive Sequence
  | none
  /-- A pictograph and extending characters. -/
  | pictograph
  /-- A pictograph, extending characters and a joiner. -/
  | joined
deriving DecidableEq, Inhabited

/-- What the rules remember of a cluster that has begun. -/
structure Context where
  /-- The class of the last character. -/
  last : BreakClass
  /-- The cluster ends in an odd number of regional indicators. -/
  oddRegional : Bool
  sequence : Sequence
  conjunct : Conjunct
deriving DecidableEq, Inhabited

namespace Context

/-- The state after a character that begins a cluster. -/
def start (c : BreakClass) : Context where
  last := c
  oddRegional := c == .regional
  sequence := if c = .pictograph then .pictograph else .none
  conjunct := if c = .consonant then .consonant else .none

/-- The sequence of pictographs after one more character. -/
def nextSequence (s : Sequence) : BreakClass → Sequence
  | .pictograph => .pictograph
  | .extending | .linker | .nonJoiner => if s = .pictograph then .pictograph else .none
  | .joiner => if s = .pictograph then .joined else .none
  | _ => .none

/-- The conjunct after one more character. -/
def nextConjunct (s : Conjunct) : BreakClass → Conjunct
  | .consonant => .consonant
  | .linker => if s = .none then .none else .linked
  | .extending | .joiner => s
  | _ => .none

/-- The state after one more character of the same cluster. -/
def push (x : Context) (c : BreakClass) : Context where
  last := c
  oddRegional := c == .regional && !x.oddRegional
  sequence := nextSequence x.sequence c
  conjunct := nextConjunct x.conjunct c

/-- A class that always stands alone, but for a line feed after a carriage return. -/
def isolated : BreakClass → Bool
  | .carriageReturn | .lineFeed | .control => true
  | _ => false

/-- The character continues the cluster. The rules are tried from the top: line ends and controls,
Hangul syllables, marks and joiners, signs before their base, conjuncts, pictographs, flags. -/
def continues (x : Context) (c : BreakClass) : Bool :=
  if x.last = .carriageReturn ∧ c = .lineFeed then true
  else if isolated x.last || isolated c then false
  else
    match x.last, c with
    | .leadingJamo, .leadingJamo | .leadingJamo, .vowelJamo
    | .leadingJamo, .openSyllable | .leadingJamo, .closedSyllable => true
    | .openSyllable, .vowelJamo | .openSyllable, .trailingJamo
    | .vowelJamo, .vowelJamo | .vowelJamo, .trailingJamo => true
    | .closedSyllable, .trailingJamo | .trailingJamo, .trailingJamo => true
    | _, .extending | _, .linker | _, .nonJoiner | _, .joiner | _, .spacingMark => true
    | .prepending, _ => true
    | _, .consonant => x.conjunct == .linked
    | .joiner, .pictograph => x.sequence == .joined
    | .regional, .regional => x.oddRegional
    | _, _ => false

end Context

end ScriptValues.Text
