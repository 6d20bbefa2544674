/-
Trial sorts: items with integer keys sorted by a fixed rule, with a record of every comparison, and with
a failure at a chosen one. They show how the sort uses its comparison without a script around it.
-/
import ScriptValues.Sort.Merge

namespace ScriptValues.Sort

/-- How a trial compares two keys. `alternate` looks at neither: its answers are yes, no, yes, … -/
inductive Rule
  | le | lt | ge | gt | always | never | alternate
deriving DecidableEq, Inhabited

/-- The answer to comparison number `call`, counted from 1. -/
def Rule.answer (rule : Rule) (call : Nat) (a b : Int) : Bool :=
  match rule with
  | .le => decide (a ≤ b)
  | .lt => decide (a < b)
  | .ge => decide (b ≤ a)
  | .gt => decide (b < a)
  | .always => true
  | .never => false
  | .alternate => call % 2 == 1

/-- An item with the key that it is sorted by. -/
structure Keyed (τ : Type) where
  key : Int
  item : τ

/-- A trial: it keeps the pairs compared so far, also when it fails. -/
abbrev Trial (τ : Type) := ExceptT Unit (StateM (Array (Keyed τ × Keyed τ)))

variable {τ : Type}

/-- One comparison of a trial. -/
def Trial.precedes (rule : Rule) (failAt : Option Nat) (a b : Keyed τ) : Trial τ Bool := do
  modify (·.push (a, b))
  let pairs ← get
  if failAt = some pairs.size then throw () else pure (rule.answer pairs.size a.key b.key)

/-- The items in order, none if a comparison failed, and the pairs compared. -/
def trial (rule : Rule) (failAt : Option Nat) (items : List (Keyed τ)) :
    Option (List (Keyed τ)) × List (Keyed τ × Keyed τ) :=
  let (result, pairs) := (mergeSort (Trial.precedes rule failAt) items).run.run #[]
  (result.toOption, pairs.toList)

end ScriptValues.Sort
