/-
Steps that are refused where they would leave their range: the difference of two counts below zero, a read or a cut
outside an array. A computation that never meets a refusal gives its value with the proof of that
(`Checked.value`).
-/

namespace ScriptValues

/-- Why a step is refused. -/
inductive Trap
  /-- A difference is below zero. -/
  | underflow
  /-- A place is outside the array. -/
  | outside
deriving DecidableEq, Inhabited

/-- What is computed by checked steps. -/
abbrev Checked := Except Trap

namespace Checked

variable {α β : Type}

/-- The difference of two counts. -/
def minus (a b : Nat) : Checked Nat := if b ≤ a then .ok (a - b) else .error .underflow

/-- The element at a position. -/
def item (xs : Array α) (i : Nat) : Checked α :=
  match xs[i]? with
  | some x => .ok x
  | none => .error .outside

/-- The elements from `start` up to but not including `stop`. -/
def cut (xs : Array α) (start stop : Nat) : Checked (List α) :=
  if start ≤ stop ∧ stop ≤ xs.size then .ok (xs.extract start stop).toList else .error .outside

/-- The value of a computation that is not refused. -/
def value : (x : Checked α) → (∃ a, x = .ok a) → α
  | .ok a, _ => a
  | .error _, h => nomatch h

@[simp] theorem ok_bind (a : α) (f : α → Checked β) : ((.ok a : Checked α) >>= f) = f a := rfl

theorem minus_of_le {a b : Nat} (h : b ≤ a) : minus a b = .ok (a - b) := if_pos h

theorem item_of_getElem? {xs : Array α} {i : Nat} {x : α} (h : xs[i]? = some x) : item xs i = .ok x := by
  rw [item, h]

/-- A cut at its own ends gives a piece back. -/
theorem cut_append (before piece after : List α) :
    cut (before ++ piece ++ after).toArray before.length (before.length + piece.length) = .ok piece := by
  have hrange : before.length ≤ before.length + piece.length ∧
      before.length + piece.length ≤ (before ++ piece ++ after).toArray.size := by
    simp
  rw [cut, if_pos hrange, List.append_assoc]
  simp [List.extract_eq_take_drop]

theorem eq_ok_value {x : Checked α} (h : ∃ a, x = .ok a) : x = .ok (x.value h) := by
  obtain ⟨a, rfl⟩ := h
  rfl

theorem value_of_eq {x : Checked α} {a : α} (h : x = .ok a) : x.value ⟨a, h⟩ = a := by
  subst h
  rfl

end Checked

end ScriptValues
