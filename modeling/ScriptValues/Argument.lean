/-
Reading arguments and results. A required argument must be there and have its kind; an optional one is
omitted only when the list ends before it, so an explicit null is an argument of the wrong kind. The
fault names the position, what was expected, and what was found.

There is one reader for each thing that can be asked for. It takes something of just the values that are admitted,
so what is read and what is refused is settled by what was expected (`read_eq_error`, `result_eq_error`).
-/
import ScriptValues.Fault

namespace ScriptValues

def Expected.admits : Expected → Value → Bool
  | .anything, _ => true
  | .kind k, v => v.kind == k

/-- What is asked for, and what is taken of a value that is admitted. -/
structure Reader (α : Type) where
  expected : Expected
  select : Value → Option α
  isSome_select : ∀ v, (select v).isSome = expected.admits v

namespace Reader

def any : Reader Value := ⟨.anything, some, fun _ => rfl⟩

def bool : Reader Bool := ⟨.kind .bool, Value.bool?, fun v => by cases v <;> rfl⟩

def num : Reader Num := ⟨.kind .num, Value.num?, fun v => by cases v <;> rfl⟩

def str : Reader String := ⟨.kind .str, Value.str?, fun v => by cases v <;> rfl⟩

def arr : Reader Cell := ⟨.kind .arr, Value.arr?, fun v => by cases v <;> rfl⟩

def fn : Reader Fn := ⟨.kind .fn, Value.fn?, fun v => by cases v <;> rfl⟩

theorem select_eq_none {α : Type} {r : Reader α} {v : Value} (h : r.expected.admits v = false) : r.select v = none := by
  rw [← Option.not_isSome_iff_eq_none, r.isSome_select, h]
  exact Bool.false_ne_true

end Reader

namespace Argument

/-- The fault for what stands, or is missing, at a position. -/
def mismatch (args : List Value) (i : Nat) (expected : Expected) : Fault :=
  .argumentType (.argument i) expected (args[i]?.map Value.kind)

variable {α : Type}

/-- The argument at a position. -/
def read (r : Reader α) (args : List Value) (i : Nat) : Except Fault α :=
  match args[i]?.bind r.select with
  | some a => .ok a
  | none => .error (mismatch args i r.expected)

/-- The argument at a position, or nothing if the list ends before it. -/
def read? (r : Reader α) (args : List Value) (i : Nat) : Except Fault (Option α) :=
  if args.length ≤ i then .ok none else some <$> read r args i

/-- What a function called by the method returned. -/
def result (r : Reader α) (m : CallbackMethod) (v : Value) : Except Fault α :=
  match r.select v with
  | some a => .ok a
  | none => .error (.argumentType (.result m) r.expected (some v.kind))

variable {r : Reader α} {args : List Value} {i : Nat}

theorem read_eq_ok {a : α} (h : read r args i = .ok a) : ∃ v, args[i]? = some v ∧ r.select v = some a := by
  rw [read] at h
  split at h
  · next hselect =>
    cases h
    exact Option.bind_eq_some_iff.1 hselect
  · cases h

theorem read_eq_error (h : ∀ v, args[i]? = some v → r.expected.admits v = false) :
    read r args i = .error (mismatch args i r.expected) := by
  have hnone : args[i]?.bind r.select = none := Option.bind_eq_none_iff.2 fun v hv => Reader.select_eq_none (h v hv)
  rw [read, hnone]

theorem result_eq_error {v : Value} (h : r.expected.admits v = false) (m : CallbackMethod) :
    result r m v = .error (.argumentType (.result m) r.expected (some v.kind)) := by
  rw [result, Reader.select_eq_none h]

end Argument

end ScriptValues
