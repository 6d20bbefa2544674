/-
Script values. Arrays are shared cells of the heap, and a value holds only the cell; functions have an
identity, given when they are made. A native function is a method bound to its target; what a script
function does is known to the machine alone.
-/
import ScriptValues.Number.Basic
import ScriptValues.Value.Method

namespace ScriptValues

/-- The kinds of values that scripts tell apart. -/
inductive Kind
  | null | bool | num | str | arr | fn | error
deriving DecidableEq, Inhabited

def Kind.name : Kind → String
  | .null => "null"
  | .bool => "bool"
  | .num => "num"
  | .str => "str"
  | .arr => "arr"
  | .fn => "fn"
  | .error => "error"

/-- A shared array cell, numbered in order of creation. -/
structure Cell where
  id : Nat
deriving DecidableEq, Inhabited

/-- A method bound to its target. -/
inductive Bound
  | num (target : Num) (method : NumMethod)
  | str (target : String) (method : StrMethod)
  | arr (target : Cell) (method : ArrMethod)
  | callback (target : Cell) (method : CallbackMethod)
deriving DecidableEq, Inhabited

def Bound.name : Bound → String
  | .num _ m => m.name
  | .str _ m => m.name
  | .arr _ m => m.name
  | .callback _ m => m.name

/-- A function: native ones and script ones are numbered apart, in order of creation. -/
inductive Fn
  | native (id : Nat) (bound : Bound)
  | script (id : Nat)
deriving DecidableEq, Inhabited

/-- The name a function shows; those of scripts have none of their own. -/
def Fn.name : Fn → String
  | .native _ b => b.name
  | .script _ => "fn"

/-- One and the same function. -/
def Fn.same : Fn → Fn → Bool
  | .native a _, .native b _ => a == b
  | .script a, .script b => a == b
  | _, _ => false

/-- A script value. An error has a name and may carry another value. -/
inductive Value
  | null
  | bool (b : Bool)
  | num (n : Num)
  | str (s : String)
  | arr (cell : Cell)
  | fn (f : Fn)
  | error (name : String)
  | errorWith (name : String) (info : Value)
deriving DecidableEq, Inhabited

namespace Value

def kind : Value → Kind
  | .null => .null
  | .bool _ => .bool
  | .num _ => .num
  | .str _ => .str
  | .arr _ => .arr
  | .fn _ => .fn
  | .error _ => .error
  | .errorWith _ _ => .error

/-- A text given by its characters. -/
def ofChars (cs : List Char) : Value := .str (.ofList cs)

/-- A natural number as a value. -/
def ofNat (n : Nat) : Value := .num (.ofNat n)

def bool? : Value → Option Bool
  | .bool b => some b
  | _ => none

def num? : Value → Option Num
  | .num n => some n
  | _ => none

def str? : Value → Option String
  | .str s => some s
  | _ => none

def arr? : Value → Option Cell
  | .arr c => some c
  | _ => none

def fn? : Value → Option Fn
  | .fn f => some f
  | _ => none

/-- One and the same array or function; values of other kinds have no identity. -/
def same : Value → Value → Bool
  | .arr a, .arr b => a == b
  | .fn f, .fn g => f.same g
  | _, _ => false

end Value

end ScriptValues
