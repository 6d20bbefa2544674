/-
Tasks that share a state and give each other turns. A task that is let run ends its turn in one of four
ways (`Turn`): done, failed, paused with the rest of it still to run, or exhausted, when a bound on
the work was reached. The state passes through every turn, and while a task is paused others may
change it: the rest is a function of the state it finds.

* `bind` and `handle` go on after a task is done or has failed; neither adds a pause. With `bind` tasks
  are a lawful monad.
* `Turn.finish` runs a task to its end, giving every pause back at once; `finish_bind`: run alone, a task
  and its continuation run one after the other.
-/

namespace ScriptValues

/-- How a turn ends. -/
inductive Turn (σ ε α : Type)
  | done (state : σ) (a : α)
  | failed (state : σ) (e : ε)
  | paused (state : σ) (rest : σ → Turn σ ε α)
  | exhausted
deriving Inhabited

/-- A task: what it does when it is let run. -/
def Task (σ ε α : Type) : Type := σ → Turn σ ε α

/-- How a task ends that is run alone. -/
inductive Outcome (σ ε α : Type)
  | done (state : σ) (a : α)
  | failed (state : σ) (e : ε)
  | exhausted
deriving Inhabited

variable {σ ε α β : Type}

namespace Turn

/-- Goes on with `f` once done. -/
def bind : Turn σ ε α → (α → Task σ ε β) → Turn σ ε β
  | .done s a, f => f a s
  | .failed s e, _ => .failed s e
  | .paused s rest, f => .paused s fun s => bind (rest s) f
  | .exhausted, _ => .exhausted

/-- Goes on with `f` once failed. -/
def handle : Turn σ ε α → (ε → Task σ ε α) → Turn σ ε α
  | .done s a, _ => .done s a
  | .failed s e, f => f e s
  | .paused s rest, f => .paused s fun s => handle (rest s) f
  | .exhausted, _ => .exhausted

/-- The end of a task that always gets its turn back at once. -/
def finish : Turn σ ε α → Outcome σ ε α
  | .done s a => .done s a
  | .failed s e => .failed s e
  | .paused s rest => finish (rest s)
  | .exhausted => .exhausted

theorem bind_done (t : Turn σ ε α) : t.bind (fun a s => .done s a) = t := by
  induction t with
  | done s a => rfl
  | failed s e => rfl
  | paused s rest ih => simp only [bind, ih]
  | exhausted => rfl

theorem bind_assoc {γ : Type} (t : Turn σ ε α) (f : α → Task σ ε β) (g : β → Task σ ε γ) :
    (t.bind f).bind g = t.bind fun a s => (f a s).bind g := by
  induction t with
  | done s a => rfl
  | failed s e => rfl
  | paused s rest ih => simp only [bind, ih]
  | exhausted => rfl

theorem finish_bind (t : Turn σ ε α) (f : α → Task σ ε β) :
    (t.bind f).finish =
      match t.finish with
      | .done s a => (f a s).finish
      | .failed s e => .failed s e
      | .exhausted => .exhausted := by
  induction t with
  | done s a => rfl
  | failed s e => rfl
  | paused s rest ih => simp only [bind, finish, ih]
  | exhausted => rfl

end Turn

namespace Task

instance : Monad (Task σ ε) where
  pure a := fun s => .done s a
  bind t f := fun s => (t s).bind f

instance : LawfulMonad (Task σ ε) :=
  LawfulMonad.mk' (Task σ ε) (fun t => funext fun s => (t s).bind_done) (fun _ _ => rfl)
    (fun t f g => funext fun s => (t s).bind_assoc f g)

instance : MonadExceptOf ε (Task σ ε) where
  throw e := fun s => .failed s e
  tryCatch t f := fun s => (t s).handle f

instance : MonadStateOf σ (Task σ ε) where
  get := fun s => .done s s
  set s := fun _ => .done s ()
  modifyGet f := fun s =>
    let p := f s
    .done p.2 p.1

instance : Inhabited (Task σ ε α) where
  default := fun _ => .exhausted

/-- The task that reached its bound. -/
def exhausted : Task σ ε α := fun _ => .exhausted

/-- Gives the turn away this many times. -/
def pause : Nat → Task σ ε Unit
  | 0 => pure ()
  | n + 1 => fun s => .paused s (pause n)

/-- A result, or the failure it is. -/
def ofExcept : Except ε α → Task σ ε α
  | .ok a => pure a
  | .error e => throw e

/-- The tasks one after the other, each begun when the one before is done. -/
def sequence : List (Task σ ε α) → Task σ ε (List α)
  | [] => pure []
  | t :: ts => do
    let a ← t
    let as ← sequence ts
    pure (a :: as)

/-- Runs a task alone, from a state to its end. -/
def run (t : Task σ ε α) (s : σ) : Outcome σ ε α := (t s).finish

end Task

end ScriptValues
