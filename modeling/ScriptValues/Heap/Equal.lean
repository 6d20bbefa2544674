/-
Structural equality of values. Numbers compare as numbers, texts by their characters, functions by
identity, and arrays element by element. Arrays may contain themselves: a pair of cells that is still
being compared further up counts as equal, so two cells are equal when no path through both comes to a
difference. The path never holds a pair twice, which bounds its length by the number of pairs.
-/
import ScriptValues.Heap.Basic

namespace ScriptValues

/-- Equality of values, given what counts as equality of cells. -/
def Value.eqWith (cells : Cell → Cell → Bool) : Value → Value → Bool
  | .null, .null => true
  | .bool a, .bool b => a == b
  | .num a, .num b => a.eq b
  | .str a, .str b => a == b
  | .arr a, .arr b => cells a b
  | .fn a, .fn b => a.same b
  | .error a, .error b => a == b
  | .errorWith a x, .errorWith b y => a == b && x.eqWith cells y
  | _, _ => false

/-- Two sequences have the same length and pass the test element by element. -/
def pairwise {α : Type} (eq : α → α → Bool) : List α → List α → Bool
  | [], [] => true
  | a :: as, b :: bs => eq a b && pairwise eq as bs
  | _, _ => false

namespace Heap

/-- Equality of cells, `path` being the pairs under comparison further up. -/
def eqCells (h : Heap) : (fuel : Nat) → (path : List (Cell × Cell)) → Cell → Cell → Bool
  | 0, _, _, _ => true
  | fuel + 1, path, a, b =>
    a == b || path.contains (a, b) ||
      ((h.contents a).size == (h.contents b).size &&
        pairwise (Value.eqWith (eqCells h fuel ((a, b) :: path)))
          (h.contents a).toList (h.contents b).toList)

/-- A bound on the length of a path: each pair of cells once, and one step more. -/
def pathBound (h : Heap) : Nat := h.cells.size * h.cells.size + 1

/-- Structural equality of values. -/
def eq (h : Heap) (v w : Value) : Bool := v.eqWith (h.eqCells h.pathBound []) w

end Heap

end ScriptValues
