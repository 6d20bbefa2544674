/-
Runs of scripts. A script is a list of steps; each is run to its end before the next begins, and one
that fails does not stop the next. Globals, the heap and the count of calls go on from step to step,
while the log and the events are those of one step.
-/
import ScriptValues.Script.Eval

namespace ScriptValues

/-- How a step ended. -/
inductive StepResult
  | value (v : View)
  | fault (e : Fault)
  | exhausted

/-- What is known after a step. -/
structure Report where
  result : StepResult
  /-- The calls made so far. -/
  calls : Nat
  /-- What the step logged. -/
  log : List View
  /-- The watched globals that are set. -/
  watched : List (String × View)
  /-- What the step reported. -/
  events : List Event

namespace Report

/-- The report on a machine that has run a step with this result. -/
def ofMachine (watch : List String) (s : Machine) (result : StepResult) : Report where
  result := result
  calls := s.calls
  log := s.log.toList
  watched := watch.filterMap fun name => (s.globals.lookup name).map fun v => (name, s.heap.view v)
  events := s.events.toList

end Report

namespace Script

/-- Runs one step. -/
def step (setting : Setting) (s : Machine) (e : Expr) : Outcome Machine Fault Value :=
  Task.run (eval (topScope setting) e) s.clearRecord

/-- Runs the steps one after the other. -/
def run (setting : Setting) (watch : List String) : Machine → List Expr → List Report
  | _, [] => []
  | s, e :: es =>
    match step setting s e with
    | .done s v => .ofMachine watch s (.value (s.heap.view v)) :: run setting watch s es
    | .failed s e => .ofMachine watch s (.fault e) :: run setting watch s es
    | .exhausted => .ofMachine watch s .exhausted :: run setting watch s es

end Script

end ScriptValues
