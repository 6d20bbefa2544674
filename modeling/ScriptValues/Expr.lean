/-
Expressions of scripts. An expression is evaluated with the arguments of the innermost call; what is
not bound by it (globals, arrays, functions) lives in the machine.
-/
import ScriptValues.Number.Basic

namespace ScriptValues

/-- Operations on two values: two comparisons of any values, and arithmetic on numbers. -/
inductive Operator
  /-- Structural equality. -/
  | eq
  /-- Identity of arrays and functions. -/
  | same
  | add | sub | mul | modulo
  /-- Less than. -/
  | lt
deriving DecidableEq, Inhabited

inductive Expr
  | null
  | bool (b : Bool)
  | num (n : Num)
  | str (s : String)
  /-- A new array. -/
  | array (items : List Expr)
  | error (name : String)
  | errorWith (name : String) (info : Expr)
  /-- A new function; its value is that of the last expression of its body. -/
  | function (body : List Expr)
  | global (name : String)
  /-- An argument of the current call, null if there is none at the position. -/
  | argument (position : Nat)
  | argumentCount
  | assign (name : String) (value : Expr)
  | property (target : Expr) (name : String)
  /-- A property that is called; it is looked up before the arguments are evaluated. -/
  | method (target : Expr) (name : String) (args : List Expr)
  | apply (callee : Expr) (args : List Expr)
  | branch (test yes no : Expr)
  /-- One after the other; the value of the last, null if there is none. -/
  | block (body : List Expr)
  | times (count : Nat) (body : Expr)
  /-- Gives the turn away a number of times, then goes on. -/
  | suspend (turns next : Expr)
  | raise (text : String)
  /-- The value, or the failure as an error value. -/
  | rescue (body : Expr)
  | log (value : Expr)
  | display (value : Expr)
  | debug (value : Expr)
  | kindName (value : Expr)
  | binary (op : Operator) (left right : Expr)
deriving Inhabited

end ScriptValues
