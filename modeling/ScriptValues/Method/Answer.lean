/-
The answer of a method that does not call back. Such a method decides on its arguments alone; whatever
it answers with is a value it was given or can compute, or a new array, which is made only after the
method has succeeded.
-/
import ScriptValues.Machine

namespace ScriptValues

/-- What a method answers with. -/
inductive Answer
  | value (v : Value)
  /-- A new array of these elements. -/
  | fresh (items : List Value)

namespace Answer

def ofChars (cs : List Char) : Answer := .value (.ofChars cs)

/-- A new array of texts. -/
def texts (parts : List (List Char)) : Answer := .fresh (parts.map .ofChars)

/-- A new array of natural numbers. -/
def nats (ns : List Nat) : Answer := .fresh (ns.map .ofNat)

/-- The value, the new array being made now. -/
def commit : Answer → Act Value
  | .value v => pure v
  | .fresh items => Act.alloc items.toArray

end Answer

end ScriptValues
