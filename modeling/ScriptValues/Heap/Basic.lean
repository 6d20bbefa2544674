/-
The heap: the contents of every array cell. A cell keeps its number for good, so whoever holds it sees
every change; making a cell never touches the others.

* `contents_alloc_self`, `contents_alloc_other`: a new cell has its contents, the others keep theirs.
* `contents_write_self`, `contents_write_other`: so with a write.
-/
import ScriptValues.Value.Basic

namespace ScriptValues

/-- The contents of the array cells, by number. -/
structure Heap where
  cells : Array (Array Value)
deriving Inhabited

namespace Heap

def empty : Heap := ⟨#[]⟩

/-- The cell exists. -/
def Has (h : Heap) (c : Cell) : Prop := c.id < h.cells.size

/-- The elements of a cell; a cell that does not exist has none. -/
def contents (h : Heap) (c : Cell) : Array Value := h.cells.getD c.id #[]

/-- The cell that the next array gets. -/
def next (h : Heap) : Cell := ⟨h.cells.size⟩

/-- The heap with one more cell, `next`. -/
def alloc (h : Heap) (items : Array Value) : Heap := ⟨h.cells.push items⟩

/-- The heap with other elements in a cell. -/
def write (h : Heap) (c : Cell) (items : Array Value) : Heap := ⟨h.cells.setIfInBounds c.id items⟩

theorem contents_alloc_self (h : Heap) (items : Array Value) :
    (h.alloc items).contents h.next = items := by
  simp [contents, alloc, next]

theorem contents_alloc_other {h : Heap} {items : Array Value} {c : Cell} (hc : h.Has c) :
    (h.alloc items).contents c = h.contents c := by
  simp only [contents, alloc, Has, Array.getD_eq_getD_getElem?] at *
  rw [Array.getElem?_push]
  simp [Nat.ne_of_lt hc]

theorem contents_write_self {h : Heap} {items : Array Value} {c : Cell} (hc : h.Has c) :
    (h.write c items).contents c = items := by
  simp only [contents, write, Has, Array.getD_eq_getD_getElem?] at *
  simp [hc]

theorem contents_write_other {h : Heap} {items : Array Value} {c d : Cell} (hd : d ≠ c) :
    (h.write c items).contents d = h.contents d := by
  have : c.id ≠ d.id := fun e => hd (by cases c; cases d; simp_all)
  simp [contents, write, this]

end Heap

end ScriptValues
