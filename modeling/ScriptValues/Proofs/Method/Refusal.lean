/-
What a method makes of the answers of its function: `filter` and `find` want bools, `sort` wants numbers, and an answer
of another kind is a failure of the method. What is read of an answer agrees with that.
-/
import ScriptValues.Argument

namespace ScriptValues

/-- The kind of value that a function called by the method must answer with, if it must. -/
def CallbackMethod.resultKind : CallbackMethod → Option Kind
  | .filter => some .bool
  | .find => some .bool
  | .sort => some .num
  | .map => none
  | .reduce => none

/-- The failure of the method that an answer is, if its kind is wrong. -/
def CallbackMethod.refusal (m : CallbackMethod) (v : Value) : Option Fault :=
  match m.resultKind with
  | none => none
  | some k => if v.kind = k then none else some (.argumentType (.result m) (.kind k) (some v.kind))

theorem Value.eq_bool_of_kind {v : Value} (h : v.kind = .bool) : ∃ b, v = .bool b := by
  cases v with
  | bool b => exact ⟨b, rfl⟩
  | _ => cases h

theorem Value.eq_num_of_kind {v : Value} (h : v.kind = .num) : ∃ x, v = .num x := by
  cases v with
  | num x => exact ⟨x, rfl⟩
  | _ => cases h

variable {m : CallbackMethod} {k : Kind} {v : Value}

theorem kind_of_accepted (hm : m.resultKind = some k) (hv : m.refusal v = none) : v.kind = k := by
  rw [CallbackMethod.refusal, hm] at hv
  by_cases hkind : v.kind = k
  · exact hkind
  · simp [hkind] at hv

theorem result_of_refusal {α : Type} {r : Reader α} {e : Fault} (hm : m.resultKind = some k)
    (hr : r.expected = .kind k) (hv : m.refusal v = some e) : Argument.result r m v = .error e := by
  rw [CallbackMethod.refusal, hm] at hv
  by_cases hkind : v.kind = k
  · simp [hkind] at hv
  · have hrefused : r.expected.admits v = false := by
      rw [hr]
      exact beq_false_of_ne hkind
    rw [Argument.result_eq_error hrefused, hr]
    simpa [hkind] using hv

end ScriptValues
