/-
Events: what a run reports about itself as it goes, besides its results. Every reading of a property,
every call of a function by a method, and every `map` and `sort` that succeeds is reported.
-/
import ScriptValues.Config.Basic
import ScriptValues.Value.Basic

namespace ScriptValues

inductive Event
  /-- A property is looked up, whether it is there or not. -/
  | resolve (kind : Kind) (name : String)
  /-- A method is about to call a function. -/
  | callback (method : CallbackMethod) (callee : String)
  /-- A `map` over `count` elements has succeeded. -/
  | mapped (count : Nat) (mode : MapMode)
  /-- A `sort` of `count` elements has succeeded. -/
  | sorted (count comparisons : Nat)
deriving DecidableEq, Inhabited

/-- How much detail a reader must ask for to see an event. -/
inductive Level
  | debug | trace
deriving DecidableEq, Inhabited

def Level.name : Level → String
  | .debug => "DEBUG"
  | .trace => "TRACE"

namespace Event

def level : Event → Level
  | .callback _ _ => .trace
  | _ => .debug

def message : Event → String
  | .resolve _ _ => "resolve prop"
  | .callback _ _ => "invoke callback"
  | .mapped _ _ => "map done"
  | .sorted _ _ => "sort done"

/-- The name of a mode in an event. -/
def modeName : MapMode → String
  | .concurrent => "Concurrent"
  | .sequential => "Sequential"

/-- The fields of an event, by name. -/
def fields : Event → List (String × String)
  | .resolve kind name => [("kind", kind.name), ("name", name)]
  | .callback method callee => [("method", method.name), ("callee", callee)]
  | .mapped count mode => [("len", Nat.repr count), ("mode", modeName mode)]
  | .sorted count comparisons =>
    [("len", Nat.repr count), ("comparisons", Nat.repr comparisons)]

end Event

end ScriptValues
