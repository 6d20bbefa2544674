/-
The machine: everything a script can change, and the record of what it did. `Act` is a task on it that
may fail with a `Fault`.
-/
import ScriptValues.Event
import ScriptValues.Expr
import ScriptValues.Fault
import ScriptValues.Heap.View
import ScriptValues.Task.Basic

namespace ScriptValues

structure Machine where
  heap : Heap
  /-- The bodies of the script functions; that of function `n` is at `n - 1`. -/
  bodies : Array (List Expr)
  /-- How many native functions have been made. -/
  natives : Nat
  /-- The global variables that are set. -/
  globals : List (String × Value)
  /-- How many functions have been called. -/
  calls : Nat
  /-- How many turns were given away at each suspension point reached, in order. -/
  suspensions : Array Nat
  /-- What has been logged, in order. -/
  log : Array View
  /-- What has been reported, in order. -/
  events : Array Event
deriving Inhabited

/-- A task of the script machine. -/
abbrev Act := Task Machine Fault

namespace Machine

/-- The machine before anything has run. -/
def start : Machine := ⟨.empty, #[], 0, [], 0, #[], #[], #[]⟩

/-- The machine with an empty record of logged values and events. -/
def clearRecord (s : Machine) : Machine := { s with log := #[], events := #[] }

/-- The body of a script function. -/
def body (s : Machine) (id : Nat) : List Expr := s.bodies.getD (id - 1) []

end Machine

namespace Act

/-- A new array. -/
def alloc (items : Array Value) : Act Value :=
  modifyGet fun s => (.arr s.heap.next, { s with heap := s.heap.alloc items })

/-- A new native function. -/
def bindMethod (b : Bound) : Act Value :=
  modifyGet fun s => (.fn (.native s.natives b), { s with natives := s.natives + 1 })

/-- A new script function. -/
def makeFunction (body : List Expr) : Act Value :=
  modifyGet fun s => (.fn (.script (s.bodies.size + 1)), { s with bodies := s.bodies.push body })

def emit (e : Event) : Act Unit :=
  modify fun s => { s with events := s.events.push e }

def countCall : Act Unit :=
  modify fun s => { s with calls := s.calls + 1 }

def contents (c : Cell) : Act (Array Value) := do
  let s ← get
  pure (s.heap.contents c)

def write (c : Cell) (items : Array Value) : Act Unit :=
  modify fun s => { s with heap := s.heap.write c items }

end Act

end ScriptValues
