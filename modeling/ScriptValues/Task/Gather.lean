/-
Running many tasks side by side and gathering their results in order. In each round every unfinished
task gets one turn, in the order of the list. What happens to failures depends on the number of tasks:

* up to `few`, the first failure met ends the whole at once, whichever task it comes from;
* beyond, results are taken strictly in order: a result that is early waits, and so does a failure, so
  that the first task of the list to fail decides.

Gathering is a task itself and pauses when its turn ends. Up to `few` tasks its turn is a round. Beyond,
it is shorter: the turn ends at the second pause of a member since the last one was finished, or at the
first if only one is left, and the next turn goes on from there.
-/
import ScriptValues.Task.Basic

namespace ScriptValues

variable {σ ε α β : Type}

namespace Turn

/-- Two tasks side by side, the first having had its turn: round by round, the first before the
second. -/
def beside : Turn σ ε α → Task σ ε β → Turn σ ε (α × β)
  | .done s a, u => (u s).bind fun b => pure (a, b)
  | .failed s e, _ => .failed s e
  | .exhausted, _ => .exhausted
  | .paused s t, u =>
    match u s with
    | .done s b => .paused s fun s => (t s).bind fun a => pure (a, b)
    | .failed s e => .failed s e
    | .exhausted => .exhausted
    | .paused s u => .paused s fun s => beside (t s) u

end Turn

namespace Task

/-- Up to this many tasks a failure is not held back. -/
def few : Nat := 30

/-- All tasks side by side; the first failure met is the failure of the whole. -/
def gatherFew : List (Task σ ε α) → Task σ ε (List α)
  | [] => pure []
  | t :: ts => fun s => ((t s).beside (gatherFew ts)).bind fun (a, as) => pure (a :: as)

/-- A member of a gathering: still to run, or with a result that waits for its place in the order. -/
inductive Member (σ ε α : Type)
  | running (task : Task σ ε α)
  | settled (result : Except ε α)

/-- The member is still to run. -/
def Member.isRunning : Member σ ε α → Bool
  | .running _ => true
  | .settled _ => false

/-- A turn for each member that is still to run, and then on with `next`. `pauses` counts the pauses
since a member was last finished; the second ends the turn of the whole. -/
def sweep (next : (pauses : Nat) → List (Member σ ε α) → Task σ ε β) :
    (pauses : Nat) → (before : List (Member σ ε α)) → List (Member σ ε α) → Task σ ε β
  | pauses, before, [] => next pauses before.reverse
  | pauses, before, .settled r :: after => sweep next pauses (.settled r :: before) after
  | pauses, before, .running t :: after => fun s =>
    match t s with
    | .done s a => sweep next 0 (.settled (.ok a) :: before) after s
    | .failed s e => sweep next 0 (.settled (.error e) :: before) after s
    | .exhausted => .exhausted
    | .paused s t =>
      if pauses = 0 then sweep next 1 (.running t :: before) after s
      else .paused s (sweep next 0 (.running t :: before) after)

/-- The first unfinished member has had its turn: once it is done, `next` goes on with its result; while
it pauses, the others get their turns and it gets another. -/
def lead (next : α → List (Member σ ε α) → Task σ ε β) :
    Turn σ ε α → (pauses : Nat) → List (Member σ ε α) → Turn σ ε β
  | .done s a, _, others => next a others s
  | .failed s e, _, _ => .failed s e
  | .exhausted, _, _ => .exhausted
  | .paused s t, pauses, others =>
    let again : Nat → List (Member σ ε α) → Task σ ε β :=
      fun pauses others s => lead next (t s) pauses others
    if pauses = 0 && others.any Member.isRunning then sweep again 1 [] others s
    else .paused s (sweep again 0 [] others)

/-- The results of the members in order, `count` being their number. -/
def collect : (count : Nat) → List (Member σ ε α) → Task σ ε (List α)
  | 0, _ => pure []
  | _, [] => pure []
  | count + 1, .settled (.ok a) :: members => do
    let as ← collect count members
    pure (a :: as)
  | _ + 1, .settled (.error e) :: _ => throw e
  | count + 1, .running t :: members => fun s =>
    lead (fun a others => do
      let as ← collect count others
      pure (a :: as)) (t s) 0 members

/-- All tasks side by side; the results are taken in order, and so is the failure. -/
def gatherMany (tasks : List (Task σ ε α)) : Task σ ε (List α) :=
  collect tasks.length (tasks.map .running)

/-- All tasks side by side. -/
def gather (tasks : List (Task σ ε α)) : Task σ ε (List α) :=
  if tasks.length ≤ few then gatherFew tasks else gatherMany tasks

end Task

end ScriptValues
