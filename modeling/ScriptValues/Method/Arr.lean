/-
The methods of arrays that do not call back. A method sees the heap and the arguments and replies with
an answer and, if it changes its target, with the target's new elements; it can touch nothing else.

Two methods cut the array at positions that a script gives; no cut is ever refused, whatever the positions
(`Items.cut_eq`, `Heap.search_eq`).
-/
import ScriptValues.Argument
import ScriptValues.Checked
import ScriptValues.Heap.Equal
import ScriptValues.Method.Answer
import ScriptValues.Number.Index

namespace ScriptValues

/-- What a method of an array replies. -/
structure Reply where
  /-- The new elements of the target, if the method changes it. -/
  items : Option (Array Value)
  answer : Answer

namespace Reply

/-- An answer that leaves the target as it is. -/
def ofAnswer (a : Answer) : Reply := ⟨none, a⟩

/-- A value that leaves the target as it is. -/
def ofValue (v : Value) : Reply := ⟨none, .value v⟩

/-- The reply carried out on its target. -/
def commit (c : Cell) (r : Reply) : Act Value := do
  match r.items with
  | some items => Act.write c items
  | none => pure ()
  r.answer.commit

end Reply

/-! ## Cuts -/

namespace Items

/-- The elements from one position up to but not including another, none unless the first is below the second. -/
def cut (items : Array Value) (start stop : Num) : Checked (List Value) :=
  let start := start.relativeIndex items.size
  let stop := stop.relativeIndex items.size
  if stop ≤ start then .ok [] else .cut items start stop

theorem cut_eq (items : Array Value) (start stop : Num) : cut items start stop =
    .ok ((items.toList.take (stop.relativeIndex items.size)).drop (start.relativeIndex items.size)) := by
  unfold cut
  simp only
  split
  · next hle =>
    rw [List.drop_eq_nil_of_le (Nat.le_trans (List.length_take_le _ _) hle)]
  · next hlt =>
    have hrange := And.intro (Nat.le_of_not_le hlt) (stop.relativeIndex_le items.size)
    rw [Checked.cut, if_pos hrange, Array.toList_extract, List.extract_eq_take_drop, List.drop_take]

/-- The elements between two positions. -/
def slice (items : Array Value) (start stop : Num) : List Value :=
  (cut items start stop).value ⟨_, cut_eq items start stop⟩

theorem slice_eq (items : Array Value) (start stop : Num) : slice items start stop =
    (items.toList.take (stop.relativeIndex items.size)).drop (start.relativeIndex items.size) :=
  Checked.value_of_eq (cut_eq items start stop)

end Items

namespace Heap

/-- The position of the first element that equals a value, from where the search begins on: at the start if nothing is
said. -/
def search (h : Heap) (items : Array Value) (v : Value) (start : Option Num) : Checked (Option Nat) := do
  let start := start.elim 0 (·.relativeIndex items.size)
  let rest ← .cut items start items.size
  return (rest.findIdx? (h.eq · v)).map (· + start)

theorem search_eq (h : Heap) (items : Array Value) (v : Value) (start : Option Num) : h.search items v start =
    .ok (((items.toList.drop (start.elim 0 (·.relativeIndex items.size))).findIdx? (h.eq · v)).map
      (· + start.elim 0 (·.relativeIndex items.size))) := by
  have hstart : start.elim 0 (·.relativeIndex items.size) ≤ items.size := by
    cases start with
    | none => exact Nat.zero_le _
    | some x => exact x.relativeIndex_le items.size
  have hcut : Checked.cut items (start.elim 0 (·.relativeIndex items.size)) items.size =
      .ok (items.toList.drop (start.elim 0 (·.relativeIndex items.size))) := by
    rw [Checked.cut, if_pos ⟨hstart, Nat.le_refl _⟩, Array.toList_extract, List.extract_eq_take_drop,
      List.take_of_length_le (Nat.le_of_eq (by simp))]
  unfold search
  simp only [hcut, Checked.ok_bind]
  rfl

/-- The position of the first element that equals a value. -/
def indexOf (h : Heap) (items : Array Value) (v : Value) (start : Option Num) : Option Nat :=
  (h.search items v start).value ⟨_, h.search_eq items v start⟩

theorem indexOf_eq (h : Heap) (items : Array Value) (v : Value) (start : Option Num) : h.indexOf items v start =
    ((items.toList.drop (start.elim 0 (·.relativeIndex items.size))).findIdx? (h.eq · v)).map
      (· + start.elim 0 (·.relativeIndex items.size)) :=
  Checked.value_of_eq (h.search_eq items v start)

end Heap

/-! ## Replies -/

/-- What a method of an array replies. -/
def ArrMethod.reply (h : Heap) (c : Cell) (method : ArrMethod) (args : List Value) :
    Except Fault Reply := do
  let items := h.contents c
  match method with
  | .push =>
    let v ← Argument.read .any args 0
    pure ⟨some (items.push v), .value (.arr c)⟩
  | .unshift =>
    let v ← Argument.read .any args 0
    pure ⟨some (#[v] ++ items), .value (.arr c)⟩
  | .pop => pure ⟨some items.pop, .value (items.back?.getD .null)⟩
  | .shift => pure ⟨some (items.extract 1), .value (items[0]?.getD .null)⟩
  | .concat =>
    let other ← Argument.read .arr args 0
    pure (.ofAnswer (.fresh (items.toList ++ (h.contents other).toList)))
  | .slice =>
    let start ← Argument.read .num args 0
    let stop ← Argument.read .num args 1
    pure (.ofAnswer (.fresh (Items.slice items start stop)))
  | .join =>
    let sep ← Argument.read? .str args 0
    let parts := items.toList.map fun v => v.str?.getD ""
    pure (.ofValue (.str ((sep.getD "").intercalate parts)))
  | .incl =>
    let v ← Argument.read .any args 0
    pure (.ofValue (.bool (items.toList.any (h.eq · v))))
  | .indexOf =>
    let v ← Argument.read .any args 0
    let start ← Argument.read? .num args 1
    pure (.ofValue (.num ((h.indexOf items v start).elim (.ofInt (-1)) .ofNat)))
  | .reverse => pure ⟨some items.reverse, .value .null⟩
  | .copy => pure (.ofAnswer (.fresh items.toList))

end ScriptValues
