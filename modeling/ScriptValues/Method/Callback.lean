/-
The methods of arrays that call a function for their elements.

* `map` issues one call for every element that is there at the start, side by side or one after the
  other, and answers with a new array of the results in order.
* `filter`, `reduce` and `find` issue one call at a time, in order, over the elements at the start or
  over the array as it is at each step.
* `sort` asks its function to compare two elements at a time. It works on a copy and writes the array
  once, at the end, and only if every comparison succeeded.

The function is checked before anything else happens. A failure of a call ends the method.
-/
import ScriptValues.Argument
import ScriptValues.Method.Host
import ScriptValues.Sort.Merge
import ScriptValues.Task.Gather

namespace ScriptValues

/-- The elements that a method runs over one at a time. -/
structure Elements where
  /-- The element at a position, none at the end. -/
  get : Nat → Act (Option Value)
  /-- How many are read at most. -/
  bound : Nat

namespace Elements

/-- The array as it is at each step. -/
def live (c : Cell) (limit : Nat) : Elements where
  get i := do
    let items ← Act.contents c
    pure items[i]?
  bound := limit

/-- Elements that do not change. -/
def snapshot (items : Array Value) : Elements where
  get i := pure items[i]?
  bound := items.size + 1

/-- The elements of a cell under the configuration. -/
def ofCell (host : Host) (c : Cell) : Act Elements :=
  match host.config.iteration with
  | .live => pure (live c host.limit)
  | .snapshot => do
    let items ← Act.contents c
    pure (snapshot items)

end Elements

namespace Callback

/-- The call of a function by a method, reported first. -/
def callBack (host : Host) (m : CallbackMethod) (f : Fn) (args : List Value) : Act Value := do
  Act.emit (.callback m f.name)
  host.invoke f args

/-- The calls of `map`, in order. -/
def mapCalls (host : Host) (f : Fn) (items : List Value) : List (Act Value) :=
  items.mapIdx fun i v => callBack host .map f [v, .ofNat i]

def map (host : Host) (c : Cell) (args : List Value) : Act Value := do
  let f ← Task.ofExcept (Argument.read .fn args 0)
  let items ← Act.contents c
  let calls := mapCalls host f items.toList
  let results ← match host.config.map with
    | .concurrent => Task.gather calls
    | .sequential => Task.sequence calls
  Act.emit (.mapped items.size host.config.map)
  Act.alloc results.toArray

/-- The elements from `i` on for which the function answers true. -/
def filterFrom (host : Host) (f : Fn) (elements : Elements) :
    (bound i : Nat) → Act (List Value)
  | 0, _ => Task.exhausted
  | bound + 1, i => do
    match ← elements.get i with
    | none => pure []
    | some v =>
      let answer ← callBack host .filter f [v, .ofNat i]
      let keep ← Task.ofExcept (Argument.result .bool .filter answer)
      let rest ← filterFrom host f elements bound (i + 1)
      pure (if keep then v :: rest else rest)

def filter (host : Host) (c : Cell) (args : List Value) : Act Value := do
  let f ← Task.ofExcept (Argument.read .fn args 0)
  let elements ← Elements.ofCell host c
  let kept ← filterFrom host f elements elements.bound 0
  Act.alloc kept.toArray

/-- The elements from `i` on folded into `acc`. -/
def reduceFrom (host : Host) (f : Fn) (elements : Elements) :
    (bound i : Nat) → (acc : Value) → Act Value
  | 0, _, _ => Task.exhausted
  | bound + 1, i, acc => do
    match ← elements.get i with
    | none => pure acc
    | some v =>
      let acc ← callBack host .reduce f [acc, v, .ofNat i]
      reduceFrom host f elements bound (i + 1) acc

def reduce (host : Host) (c : Cell) (args : List Value) : Act Value := do
  let f ← Task.ofExcept (Argument.read .fn args 0)
  let elements ← Elements.ofCell host c
  match args[1]? with
  | some acc => reduceFrom host f elements elements.bound 0 acc
  | none =>
    match ← elements.get 0 with
    | some acc => reduceFrom host f elements elements.bound 1 acc
    | none => throw (.emptyArray .reduce)

/-- The first element from `i` on for which the function answers true, null if there is none. -/
def findFrom (host : Host) (f : Fn) (elements : Elements) : (bound i : Nat) → Act Value
  | 0, _ => Task.exhausted
  | bound + 1, i => do
    match ← elements.get i with
    | none => pure .null
    | some v =>
      let answer ← callBack host .find f [v, .ofNat i]
      let found ← Task.ofExcept (Argument.result .bool .find answer)
      if found then pure v else findFrom host f elements bound (i + 1)

def find (host : Host) (c : Cell) (args : List Value) : Act Value := do
  let f ← Task.ofExcept (Argument.read .fn args 0)
  let elements ← Elements.ofCell host c
  findFrom host f elements elements.bound 0

/-- The left element goes first unless the function's number is above zero; NaN is not. Counts the
comparisons. -/
def precedes (host : Host) (f : Fn) (a b : Value) : StateT Nat Act Bool := do
  modify (· + 1)
  let answer ← callBack host .sort f [a, b]
  let order ← (Task.ofExcept (Argument.result .num .sort answer) : Act Num)
  pure (!(Num.lt (.zero false) order))

def sort (host : Host) (c : Cell) (args : List Value) : Act Value := do
  let f ← Task.ofExcept (Argument.read .fn args 0)
  let items ← Act.contents c
  let (sorted, comparisons) ← (Sort.mergeSort (precedes host f) items.toList).run 0
  Act.write c sorted.toArray
  Act.emit (.sorted items.size comparisons)
  pure (.arr c)

/-- Runs a method that calls back. -/
def run (host : Host) (c : Cell) : CallbackMethod → List Value → Act Value
  | .map => map host c
  | .filter => filter host c
  | .reduce => reduce host c
  | .find => find host c
  | .sort => sort host c

end Callback

end ScriptValues
