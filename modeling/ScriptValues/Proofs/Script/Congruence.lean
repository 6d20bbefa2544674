/-
Runs keep a congruence: with related ways to call functions and to suspend, every expression evaluates
alike (`eval_rel`), and so functions are called alike at every depth (`invokeBy_rel`).

`invokeBy` calls functions as `invoke` does, only that methods may be run in another way, and
`invokeLending` in particular lends them another way to call functions: these say of a run what would become
of it if its methods, or their callbacks, did something else.
-/
import ScriptValues.Proofs.Method.Congruence
import ScriptValues.Script.Eval

namespace ScriptValues.Script

variable {rel : ∀ {α : Type}, Act α → Act α → Prop}

/-- Expressions are evaluated alike in the two scopes as far as functions are called and tasks suspended
alike. -/
structure Related (rel : ∀ {α : Type}, Act α → Act α → Prop) (scope scope' : Scope) : Prop where
  invoke : ∀ f args, rel (scope.host.invoke f args) (scope'.host.invoke f args)
  suspend : ∀ turns, rel (suspend scope.delay turns) (Script.suspend scope'.delay turns)
  args : scope.args = scope'.args

variable {scope scope' : Scope}

theorem callValue_rel (hrel : PlainCongruence @rel) (h : Related @rel scope scope') (f : Value)
    (args : List Value) (what : String) :
    rel (callValue scope.host f args what) (callValue scope'.host f args what) := by
  cases f with
  | fn f => exact h.invoke f args
  | _ => exact hrel.throw _

theorem times_rel (hrel : PlainCongruence @rel) {t t' : Act Value} (h : rel t t') (n : Nat) (v : Value) :
    rel (times t n v) (times t' n v) := by
  induction n generalizing v with
  | zero => exact hrel.pure v
  | succ n ih => exact hrel.bind h ih

theorem arithmetic_rel (hrel : PlainCongruence @rel) (op : Num → Num → Value) (v w : Value) :
    rel (arithmetic op v w) (arithmetic op v w) := by
  unfold arithmetic
  split
  · exact hrel.pure _
  · exact hrel.throw _

theorem operate_rel (hrel : PlainCongruence @rel) (op : Operator) (v w : Value) :
    rel (operate op v w) (operate op v w) := by
  cases op with
  | eq => exact hrel.besideHeap (fun k => (Value.bool (k.heap.eq v w), k)) (fun _ => rfl) fun _ _ => rfl
  | same => exact hrel.pure _
  | _ => exact arithmetic_rel hrel ..

mutual

/-- **Evaluation keeps a congruence.** -/
theorem eval_rel (hrel : PlainCongruence @rel) (h : Related @rel scope scope') :
    (e : Expr) → rel (eval scope e) (eval scope' e)
  | .null => hrel.pure _
  | .bool b => hrel.pure _
  | .num n => hrel.pure _
  | .str s => hrel.pure _
  | .array items => hrel.bind (evalAll_rel hrel h items) fun vs => hrel.alloc _
  | .error name => hrel.pure _
  | .errorWith name info => hrel.bind (eval_rel hrel h info) fun v => hrel.pure _
  | .function body => hrel.makeFunction body
  | .global name => by
    let found : Option Value → Act Value := fun
      | some v => pure v
      | none => fail ("unbound " ++ name)
    have hfound : ∀ r, rel (found r) (found r) := by
      intro r
      cases r with
      | some v => exact hrel.pure v
      | none => exact hrel.throw _
    exact hrel.reading (fun k => k.globals.lookup name) (fun _ _ => rfl) hfound
  | .argument i => by
    rw [eval, eval, h.args]
    exact hrel.pure _
  | .argumentCount => by
    rw [eval, eval, h.args]
    exact hrel.pure _
  | .assign name value => by
    refine hrel.bind (eval_rel hrel h value) fun v => ?_
    refine hrel.bind ?_ fun _ => hrel.pure v
    exact hrel.besideHeap (fun k => ((), { k with globals := setKey name v k.globals })) (fun _ => rfl) fun _ _ => rfl
  | .property target name => hrel.bind (eval_rel hrel h target) fun v => hrel.resolve v name
  | .method target name args => by
    refine hrel.bind (eval_rel hrel h target) fun v => ?_
    refine hrel.bind (hrel.resolve v name) fun f => ?_
    exact hrel.bind (evalAll_rel hrel h args) fun vs => callValue_rel hrel h f vs _
  | .apply callee args => by
    refine hrel.bind (eval_rel hrel h callee) fun f => ?_
    exact hrel.bind (evalAll_rel hrel h args) fun vs => callValue_rel hrel h f vs _
  | .branch test yes no => by
    refine hrel.bind (eval_rel hrel h test) fun v => ?_
    cases v with
    | bool b =>
      cases b with
      | true => exact eval_rel hrel h yes
      | false => exact eval_rel hrel h no
    | _ => exact hrel.throw _
  | .block body => hrel.bind (evalAll_rel hrel h body) fun vs => hrel.pure _
  | .times count body => times_rel hrel (eval_rel hrel h body) count .null
  | .suspend turns next => by
    refine hrel.bind (eval_rel hrel h turns) fun v => ?_
    exact hrel.bind (h.suspend v) fun _ => eval_rel hrel h next
  | .raise text => hrel.throw _
  | .rescue body => hrel.rescue (eval_rel hrel h body) fun e => hrel.pure _
  | .log value => by
    refine hrel.bind (eval_rel hrel h value) fun v => ?_
    refine hrel.bind ?_ fun _ => hrel.pure v
    exact hrel.besideHeap (fun k => ((), { k with log := k.log.push (k.heap.view v) })) (fun _ => rfl) fun _ _ => rfl
  | .display value => by
    refine hrel.bind (eval_rel hrel h value) fun v => ?_
    exact hrel.besideHeap (fun k => (Value.str (k.heap.display v), k)) (fun _ => rfl) fun _ _ => rfl
  | .debug value => by
    refine hrel.bind (eval_rel hrel h value) fun v => ?_
    exact hrel.besideHeap (fun k => (Value.str (k.heap.debug v), k)) (fun _ => rfl) fun _ _ => rfl
  | .kindName value => hrel.bind (eval_rel hrel h value) fun v => hrel.pure _
  | .binary op left right => by
    refine hrel.bind (eval_rel hrel h left) fun v => ?_
    exact hrel.bind (eval_rel hrel h right) fun w => operate_rel hrel op v w

theorem evalAll_rel (hrel : PlainCongruence @rel) (h : Related @rel scope scope') :
    (es : List Expr) → rel (evalAll scope es) (evalAll scope' es)
  | [] => hrel.pure _
  | e :: es => by
    refine hrel.bind (eval_rel hrel h e) fun v => ?_
    exact hrel.bind (evalAll_rel hrel h es) fun vs => hrel.pure _

end

/-! ## Calls -/

/-- Calls functions as `invoke` does, but runs methods as `call` does. -/
def invokeBy (call : Host → Bound → List Value → Act Value) (setting : Setting) : (depth : Nat) → Invoke
  | 0, _, _ => Task.exhausted
  | depth + 1, f, args => do
    Act.countCall
    let host : Host := ⟨invokeBy call setting depth, setting.config, setting.limit⟩
    match f with
    | .native _ bound => call host bound args
    | .script id =>
      let s ← get
      eval ⟨host, setting.delay, args⟩ (.block (s.body id))

theorem invokeBy_call (setting : Setting) (depth : Nat) :
    invokeBy Bound.call setting depth = invoke setting depth := by
  induction depth with
  | zero => rfl
  | succ depth ih =>
    funext f args
    rw [invokeBy, ih]
    rfl

/-- The scope of an expression outside every call, methods being run as `call` does. -/
def topScopeBy (call : Host → Bound → List Value → Act Value) (setting : Setting) : Scope :=
  ⟨⟨invokeBy call setting setting.limit, setting.config, setting.limit⟩, setting.delay, []⟩

theorem topScopeBy_call (setting : Setting) : topScopeBy Bound.call setting = topScope setting := by
  rw [topScopeBy, invokeBy_call, topScope]

/-- Tasks are suspended alike under the settings, and methods that are lent related ways to call functions
are run alike. -/
structure Runs (rel : ∀ {α : Type}, Act α → Act α → Prop) (call call' : Host → Bound → List Value → Act Value)
    (setting setting' : Setting) : Prop where
  limit : setting.limit = setting'.limit
  suspend : ∀ turns, rel (suspend setting.delay turns) (Script.suspend setting'.delay turns)
  call : ∀ {inner inner' : Invoke}, (∀ f args, rel (inner f args) (inner' f args)) → ∀ b args,
    rel (call ⟨inner, setting.config, setting.limit⟩ b args)
      (call' ⟨inner', setting'.config, setting'.limit⟩ b args)

variable {setting setting' : Setting} {call call' : Host → Bound → List Value → Act Value}

/-- **Calls keep a congruence**, however deeply they nest. -/
theorem invokeBy_rel (hrel : Congruence @rel) (h : Runs @rel call call' setting setting') (depth : Nat)
    (f : Fn) (args : List Value) :
    rel (invokeBy call setting depth f args) (invokeBy call' setting' depth f args) := by
  induction depth generalizing f args with
  | zero => exact hrel.exhausted
  | succ depth ih =>
    refine hrel.bind hrel.countCall fun _ => ?_
    cases f with
    | native n bound => exact h.call ih bound args
    | script id =>
      have hscope : Related @rel
          ⟨⟨invokeBy call setting depth, setting.config, setting.limit⟩, setting.delay, args⟩
          ⟨⟨invokeBy call' setting' depth, setting'.config, setting'.limit⟩, setting'.delay, args⟩ :=
        ⟨ih, h.suspend, rfl⟩
      exact hrel.reading (fun k => k.bodies.getD (id - 1) []) (fun _ _ => rfl)
        fun body => eval_rel hrel.toPlainCongruence hscope (.block body)

/-- **Expressions outside every call keep a congruence.** -/
theorem topScopeBy_rel (hrel : Congruence @rel) (h : Runs @rel call call' setting setting') (e : Expr) :
    rel (eval (topScopeBy call setting) e) (eval (topScopeBy call' setting') e) := by
  have hscope : Related @rel (topScopeBy call setting) (topScopeBy call' setting') := by
    refine ⟨fun f args => ?_, h.suspend, rfl⟩
    rw [topScopeBy, topScopeBy, h.limit]
    exact invokeBy_rel hrel h _ f args
  exact eval_rel hrel.toPlainCongruence hscope e

/-! ## Lending another way to call -/

/-- Calls functions as `invoke` does, but lends methods what `lend` makes of it. -/
def invokeLending (lend : Invoke → Invoke) (setting : Setting) : (depth : Nat) → Invoke
  | 0, _, _ => Task.exhausted
  | depth + 1, f, args => do
    Act.countCall
    let inner := invokeLending lend setting depth
    match f with
    | .native _ bound => bound.call ⟨lend inner, setting.config, setting.limit⟩ args
    | .script id =>
      let s ← get
      eval ⟨⟨inner, setting.config, setting.limit⟩, setting.delay, args⟩ (.block (s.body id))

/-- Runs a method with what `lend` makes of the way to call functions. -/
def lending (lend : Invoke → Invoke) (host : Host) (b : Bound) (args : List Value) : Act Value :=
  b.call ⟨lend host.invoke, host.config, host.limit⟩ args

theorem invokeLending_eq (lend : Invoke → Invoke) (setting : Setting) (depth : Nat) :
    invokeLending lend setting depth = invokeBy (lending lend) setting depth := by
  induction depth with
  | zero => rfl
  | succ depth ih =>
    funext f args
    rw [invokeLending, invokeBy, ih]
    rfl

/-- The scope of an expression outside every call, methods being lent what `lend` makes. -/
def topScopeLending (lend : Invoke → Invoke) (setting : Setting) : Scope :=
  ⟨⟨invokeLending lend setting setting.limit, setting.config, setting.limit⟩, setting.delay, []⟩

theorem topScopeLending_eq (lend : Invoke → Invoke) (setting : Setting) :
    topScopeLending lend setting = topScopeBy (lending lend) setting := by
  rw [topScopeLending, invokeLending_eq, topScopeBy]

/-- The settings agree on all but how `map` issues its calls; related ways to call functions are lent as
related ways, and `map` keeps the relation. -/
structure Lends (rel : ∀ {α : Type}, Act α → Act α → Prop) (lend lend' : Invoke → Invoke)
    (setting setting' : Setting) : Prop where
  iteration : setting.config.iteration = setting'.config.iteration
  limit : setting.limit = setting'.limit
  suspend : ∀ turns, rel (suspend setting.delay turns) (Script.suspend setting'.delay turns)
  lent : ∀ {inner inner' : Invoke}, (∀ f args, rel (inner f args) (inner' f args)) →
    ∀ f args, rel (lend inner f args) (lend' inner' f args)
  map : ∀ {inner inner' : Invoke}, (∀ f args, rel (inner f args) (inner' f args)) → ∀ c args,
    rel (Callback.map ⟨lend inner, setting.config, setting.limit⟩ c args)
      (Callback.map ⟨lend' inner', setting'.config, setting'.limit⟩ c args)

variable {lend lend' : Invoke → Invoke}

/-- What is lent alike is run with alike. -/
theorem Lends.runs (hrel : WritingCongruence @rel) (h : Lends @rel lend lend' setting setting') :
    Runs @rel (lending lend) (lending lend') setting setting' where
  limit := h.limit
  suspend := h.suspend
  call hinner b args := Bound.call_rel hrel ⟨h.lent hinner, h.iteration, h.limit⟩ (h.map hinner) b args

end ScriptValues.Script
