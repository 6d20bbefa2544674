/-
Calls made one after the other, as one caller makes them: each from the state that the one before has left,
whatever states are found at the pauses in between (`Exchange`).

`Turn.after_bind_eq`: a task and what follows it are at a point of the first, or the first is done and they
are at a point of the second; the states that the first has not used are found by the second. So either the first is
done or all hangs on it (`Turn.done_or_hangs`).
-/
import ScriptValues.Proofs.Task.History

namespace ScriptValues

variable {σ ε α β γ : Type}

namespace Turn

/-- The states that are left to be found when the turn has ended. -/
def unused : Turn σ ε α → List σ → List σ
  | .paused _ rest, s :: given => (rest s).unused given
  | _, given => given

theorem after_bind_eq (u : Turn σ ε α) (f : α → Task σ ε β) (given : List σ) :
    (u.bind f).after given =
      match u.after given with
      | .done s a => (f a s).after (u.unused given)
      | .failed s e => .failed s e
      | .paused s rest => .paused s fun s' => (rest s').bind f
      | .exhausted => .exhausted := by
  induction u generalizing given with
  | done s a => rw [after_done]; rfl
  | failed s e => rw [after_failed]; exact after_failed ..
  | paused s rest ih =>
    cases given with
    | nil => rw [after_nil, after_nil]; rfl
    | cons s' given => exact ih s' given
  | exhausted => rw [after_exhausted]; exact after_exhausted ..

/-- A call that has not come to an answer, and what it is part of: both are paused, have failed or were cut off,
and in the same state. -/
inductive Hangs : Turn σ ε α → Turn σ ε β → Prop
  | failed {s e} : Hangs (.failed s e) (.failed s e)
  | paused {s rest rest'} : Hangs (.paused s rest) (.paused s rest')
  | exhausted : Hangs .exhausted .exhausted

/-- Either the call is done and what follows it goes on, or all hangs on the call. -/
theorem done_or_hangs (u : Turn σ ε α) (f : α → Task σ ε β) (given : List σ) :
    (∃ s a, u.after given = .done s a ∧ (u.bind f).after given = (f a s).after (u.unused given)) ∨
      (u.after given).Hangs ((u.bind f).after given) := by
  rw [after_bind_eq]
  cases u.after given with
  | done s a => exact .inl ⟨s, a, rfl, rfl⟩
  | failed s e => exact .inr .failed
  | paused s rest => exact .inr .paused
  | exhausted => exact .inr .exhausted

end Turn

namespace Task

/-- The calls with these answers, one after the other, lead from `s` to `s'`; of the states `given`, those in
`left` are still to be found. -/
inductive Exchange (call : α → β → Task σ ε γ) :
    (s : σ) → (given : List σ) → (answers : List (α × β × γ)) → (s' : σ) → (left : List σ) → Prop
  | nil {s given} : Exchange call s given [] s given
  | cons {a b c s given s₁ answers s' left} : (call a b s).after given = .done s₁ c →
      Exchange call s₁ ((call a b s).unused given) answers s' left →
      Exchange call s given ((a, b, c) :: answers) s' left

end Task

end ScriptValues
