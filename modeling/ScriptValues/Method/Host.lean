/-
What the evaluator lends to the methods that it runs: a way to call functions, and the configuration. A
method knows nothing else of the evaluator, so what is said of a method holds whatever the functions
that it calls may do.
-/
import ScriptValues.Machine

namespace ScriptValues

/-- The call of a function with arguments. -/
abbrev Invoke := Fn → List Value → Act Value

structure Host where
  invoke : Invoke
  config : Config
  /-- How many elements a method reads at most from an array that grows under it. -/
  limit : Nat

end ScriptValues
