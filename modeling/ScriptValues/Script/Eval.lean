/-
The evaluator. Evaluation goes from left to right and the first failure ends it. Expressions are
evaluated by recursion on the expression, given how functions are called (`eval`); functions are called
by recursion on how deeply calls may nest (`invoke`), and a call of a native function lends the method
this same `invoke`. A run that nests more deeply than it may is exhausted, which no script can catch.
-/
import ScriptValues.Association
import ScriptValues.Heap.Display
import ScriptValues.Heap.Equal
import ScriptValues.Method.Call
import ScriptValues.Number.Arithmetic
import ScriptValues.Property

namespace ScriptValues

/-- What a run depends on besides the script. -/
structure Setting where
  config : Config
  /-- How many turns a suspension point gives away, by its number in the run and by what the script asks
  for. -/
  delay : Nat → Nat → Nat
  /-- How deeply calls may nest, and how far a method follows an array that grows under it. -/
  limit : Nat

namespace Setting

/-- Suspension points give away what the script asks for, and the limit is out of reach. -/
def ofConfig (config : Config) : Setting := ⟨config, fun _ turns => turns, Nat.pow 2 62⟩

end Setting

/-- What an expression is evaluated in. -/
structure Scope where
  host : Host
  delay : Nat → Nat → Nat
  /-- The arguments of the current call. -/
  args : List Value

namespace Script

def fail {α : Type} (text : String) : Act α := throw (.runtime text)

/-- A failure as a value. -/
def faultValue (e : Fault) : Value := .errorWith e.tag (.str e.message)

/-- Calls a value; `what` is what the message says of one that is no function. -/
def callValue (host : Host) (f : Value) (args : List Value) (what : String) : Act Value :=
  match f with
  | .fn f => host.invoke f args
  | _ => fail (what ++ " cannot be called")

/-- Gives the turn away as often as a value says; one that is no number says never. -/
def suspend (delay : Nat → Nat → Nat) (turns : Value) : Act Unit := do
  let given ← modifyGet fun s =>
    let given := delay s.suspensions.size (turns.num?.elim 0 Num.clampIndex)
    (given, { s with suspensions := s.suspensions.push given })
  Task.pause given

/-- Does a task a number of times; the value of the last, `v` if there is none. -/
def times (task : Act Value) : Nat → (v : Value) → Act Value
  | 0, v => pure v
  | n + 1, _ => do
    let v ← task
    times task n v

/-- The result of an operation on two numbers. -/
def arithmetic (op : Num → Num → Value) (v w : Value) : Act Value :=
  match v, w with
  | .num x, .num y => pure (op x y)
  | _, _ => fail "bad operand"

/-- The result of an operation. -/
def operate (op : Operator) (v w : Value) : Act Value :=
  match op with
  | .eq => do
    let s ← get
    pure (.bool (s.heap.eq v w))
  | .same => pure (.bool (v.same w))
  | .add => arithmetic (fun x y => .num (x.add y)) v w
  | .sub => arithmetic (fun x y => .num (x.sub y)) v w
  | .mul => arithmetic (fun x y => .num (x.mul y)) v w
  | .modulo => arithmetic (fun x y => .num (x.modulo y)) v w
  | .lt => arithmetic (fun x y => .bool (x.lt y)) v w

mutual

/-- The value of an expression. -/
def eval (scope : Scope) : Expr → Act Value
  | .null => pure .null
  | .bool b => pure (.bool b)
  | .num n => pure (.num n)
  | .str s => pure (.str s)
  | .array items => do
    let vs ← evalAll scope items
    Act.alloc vs.toArray
  | .error name => pure (.error name)
  | .errorWith name info => do
    let v ← eval scope info
    pure (.errorWith name v)
  | .function body => Act.makeFunction body
  | .global name => do
    let s ← get
    match s.globals.lookup name with
    | some v => pure v
    | none => fail ("unbound " ++ name)
  | .argument i => pure (scope.args[i]?.getD .null)
  | .argumentCount => pure (.ofNat scope.args.length)
  | .assign name value => do
    let v ← eval scope value
    modify fun s => { s with globals := setKey name v s.globals }
    pure v
  | .property target name => do
    let v ← eval scope target
    resolve v name
  | .method target name args => do
    let v ← eval scope target
    let f ← resolve v name
    let vs ← evalAll scope args
    callValue scope.host f vs (name ++ " is a " ++ f.kind.name ++ " and")
  | .apply callee args => do
    let f ← eval scope callee
    let vs ← evalAll scope args
    callValue scope.host f vs f.kind.name
  | .branch test yes no => do
    match ← eval scope test with
    | .bool b => if b then eval scope yes else eval scope no
    | _ => fail "bad condition"
  | .block body => do
    let vs ← evalAll scope body
    pure (vs.getLast?.getD .null)
  | .times count body => times (eval scope body) count .null
  | .suspend turns next => do
    let v ← eval scope turns
    suspend scope.delay v
    eval scope next
  | .raise text => fail text
  | .rescue body => tryCatch (eval scope body) fun e => pure (faultValue e)
  | .log value => do
    let v ← eval scope value
    modify fun s => { s with log := s.log.push (s.heap.view v) }
    pure v
  | .display value => do
    let v ← eval scope value
    let s ← get
    pure (.str (s.heap.display v))
  | .debug value => do
    let v ← eval scope value
    let s ← get
    pure (.str (s.heap.debug v))
  | .kindName value => do
    let v ← eval scope value
    pure (.str v.kind.name)
  | .binary op left right => do
    let v ← eval scope left
    let w ← eval scope right
    operate op v w

/-- The values of expressions, in order. -/
def evalAll (scope : Scope) : List Expr → Act (List Value)
  | [] => pure []
  | e :: es => do
    let v ← eval scope e
    let vs ← evalAll scope es
    pure (v :: vs)

end

/-- Calls a function, native or not, calls nesting at most `depth` deep. -/
def invoke (setting : Setting) : (depth : Nat) → Invoke
  | 0, _, _ => Task.exhausted
  | depth + 1, f, args => do
    Act.countCall
    let host : Host := ⟨invoke setting depth, setting.config, setting.limit⟩
    match f with
    | .native _ bound => bound.call host args
    | .script id =>
      let s ← get
      eval ⟨host, setting.delay, args⟩ (.block (s.body id))

/-- The scope of an expression outside every call. -/
def topScope (setting : Setting) : Scope :=
  ⟨⟨invoke setting setting.limit, setting.config, setting.limit⟩, setting.delay, []⟩

end Script

end ScriptValues
