/-
Merge sort with a comparison that may do anything: ask a script, fail, keep a state. The list is cut in
the middle, the halves are sorted, left before right, and merged from the front. `precedes a b` is asked
only with `a` from the left half and `b` from the right; as `a` goes first when it may, elements that
are equal keep their order.
-/

namespace ScriptValues.Sort

variable {m : Type → Type} [Monad m] {α : Type}

/-- Two sorted lists made one: the first of the left list goes first when it precedes the first of the
right one. -/
def merge (precedes : α → α → m Bool) : List α → List α → m (List α)
  | [], ys => pure ys
  | xs, [] => pure xs
  | x :: xs, y :: ys => do
    if ← precedes x y then
      let rest ← merge precedes xs (y :: ys)
      pure (x :: rest)
    else
      let rest ← merge precedes (x :: xs) ys
      pure (y :: rest)
termination_by xs ys => xs.length + ys.length

/-- The list in order; one of at most one element needs no comparison. -/
def mergeSort (precedes : α → α → m Bool) (xs : List α) : m (List α) :=
  if h : xs.length ≤ 1 then pure xs
  else do
    let left ← mergeSort precedes (xs.take (xs.length / 2))
    let right ← mergeSort precedes (xs.drop (xs.length / 2))
    merge precedes left right
termination_by xs.length
decreasing_by
  · simp only [List.length_take]; omega
  · simp only [List.length_drop]; omega

end ScriptValues.Sort
