/-
A value seen whole: the finite tree that is left when arrays are opened up. Where an array contains
itself the tree points back up, by the number of arrays in between; an array that is shared without
containing itself is written out each time. Errors are no level.
-/
import ScriptValues.Heap.Basic

namespace ScriptValues

/-- A value with its arrays opened up. -/
inductive View
  | null
  | bool (b : Bool)
  | num (n : Num)
  | str (s : String)
  | arr (items : List View)
  | cycle (up : Nat)
  | native (name : String)
  | script (id : Nat)
  | error (name : String)
  | errorWith (name : String) (info : View)
deriving Inhabited

/-- The view of a value, given the views of cells. -/
def Value.viewWith (cells : Cell → View) : Value → View
  | .null => .null
  | .bool b => .bool b
  | .num n => .num n
  | .str s => .str s
  | .arr c => cells c
  | .fn (.native _ b) => .native b.name
  | .fn (.script id) => .script id
  | .error name => .error name
  | .errorWith name info => .errorWith name (info.viewWith cells)

namespace Heap

/-- The view of a cell, `path` being the cells it stands in, the nearest first. -/
def viewCell (h : Heap) : (fuel : Nat) → (path : List Cell) → Cell → View
  | 0, _, _ => .cycle 0
  | fuel + 1, path, c =>
    match path.idxOf? c with
    | some i => .cycle (i + 1)
    | none => .arr ((h.contents c).toList.map (Value.viewWith (viewCell h fuel (c :: path))))

/-- The view of a value. A path holds each cell at most once. -/
def view (h : Heap) (v : Value) : View := v.viewWith (h.viewCell (h.cells.size + 1) [])

end Heap

end ScriptValues
