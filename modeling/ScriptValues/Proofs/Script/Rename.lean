/-
Scripts do not look at the numbers of native functions. From machines that are alike up to such numbers an expression
is evaluated alike (`eval_renames`) and a function called alike (`invoke_renames`): the runs take the same course, and
what they leave is alike up to the same numbers.
-/
import ScriptValues.Proofs.Method.Rename
import ScriptValues.Script.Eval

namespace ScriptValues.Script

variable {ρ : Nat ↪ Nat}

/-- The second scope calls renamed functions as the first calls the functions, and has the first's arguments
renamed. -/
structure Scope.Renames (ρ : Nat ↪ Nat) (scope scope' : Scope) : Prop where
  host : scope.host.Renames ρ scope'.host
  delay : scope'.delay = scope.delay
  args : scope'.args = scope.args.map (Value.rename ρ)

variable {host host' : Host}

theorem callValue_renames (h : host.Renames ρ host') (f : Value) (args : List Value) (what : String) :
    Task.Renames ρ (Value.rename ρ) (callValue host f args what)
      (callValue host' (f.rename ρ) (args.map (Value.rename ρ)) what) := by
  cases f with
  | fn f => exact h.invoke f args
  | _ => exact .throw _

theorem suspend_renames (delay : Nat → Nat → Nat) (turns : Value) :
    Task.Renames ρ id (suspend delay turns) (suspend delay (turns.rename ρ)) := by
  unfold suspend
  refine Task.Renames.bind (.modifyGet fun s s' hs => ⟨{ hs with suspensions := ?_ }, ?_⟩) Task.Renames.pause
  · rw [hs.suspensions, Value.num?_rename]
  · rw [hs.suspensions, Value.num?_rename]

theorem times_renames {t t' : Act Value} (ht : Task.Renames ρ (Value.rename ρ) t t') (n : Nat) (v : Value) :
    Task.Renames ρ (Value.rename ρ) (times t n v) (times t' n (v.rename ρ)) := by
  induction n generalizing v with
  | zero => exact .pure v
  | succ n ih => exact ht.bind ih

theorem arithmetic_renames {op : Num → Num → Value} (hop : ∀ x y, (op x y).rename ρ = op x y) (v w : Value) :
    Task.Renames ρ (Value.rename ρ) (arithmetic op v w) (arithmetic op (v.rename ρ) (w.rename ρ)) := by
  cases v with
  | num x =>
    cases w with
    | num y =>
      have hresult : Task.Renames ρ (Value.rename ρ) (pure (op x y)) (pure ((op x y).rename ρ)) := .pure _
      rwa [hop] at hresult
    | _ => exact .throw _
  | _ => exact .throw _

theorem operate_renames (op : Operator) (v w : Value) :
    Task.Renames ρ (Value.rename ρ) (operate op v w) (operate op (v.rename ρ) (w.rename ρ)) := by
  cases op with
  | eq =>
    refine .reading fun s s' hs => ?_
    rw [hs.heap, Heap.eq_rename]
    exact .pure (Value.bool _)
  | same =>
    rw [operate, operate, Value.same_rename]
    exact .pure (Value.bool _)
  | add | sub | mul | modulo | lt => exact arithmetic_renames (fun _ _ => rfl) v w

/-! ## Expressions -/

variable {scope scope' : Scope}

mutual

/-- **Evaluation does not look at the numbers of native functions.** -/
theorem eval_renames (h : Scope.Renames ρ scope scope') :
    (e : Expr) → Task.Renames ρ (Value.rename ρ) (eval scope e) (eval scope' e)
  | .null => .pure Value.null
  | .bool b => .pure (Value.bool b)
  | .num n => .pure (Value.num n)
  | .str s => .pure (Value.str s)
  | .array items => (evalAll_renames h items).bind fun vs => by
    rw [← List.map_toArray]
    exact Act.alloc_renames vs.toArray
  | .error name => .pure (Value.error name)
  | .errorWith name info => (eval_renames h info).bind fun v => .pure (Value.errorWith name v)
  | .function body => Act.makeFunction_renames body
  | .global name => by
    refine .reading fun s s' hs => ?_
    rw [hs.globals]
    cases s.globals.lookup name with
    | some v => exact .pure v
    | none => exact .throw _
  | .argument i => by
    rw [eval, eval, h.args, List.getElem?_map]
    cases scope.args[i]? with
    | some v => exact .pure v
    | none => exact .pure Value.null
  | .argumentCount => by
    rw [eval, eval, h.args, List.length_map]
    exact .pure (Value.ofNat _)
  | .assign name value => by
    refine (eval_renames h value).bind fun v => ?_
    refine Task.Renames.bind (.modify fun s s' hs => { hs with globals := fun other => ?_ }) fun _ => .pure v
    by_cases hother : other = name
    · subst hother
      rw [lookup_setKey_self, lookup_setKey_self, Option.map_some]
    · rw [lookup_setKey_other hother, lookup_setKey_other hother, hs.globals]
  | .property target name => (eval_renames h target).bind fun v => resolve_renames v name
  | .method target name args => by
    refine (eval_renames h target).bind fun v => (resolve_renames v name).bind fun f => ?_
    refine (evalAll_renames h args).bind fun vs => ?_
    rw [Value.kind_rename]
    exact callValue_renames h.host f vs _
  | .apply callee args => by
    refine (eval_renames h callee).bind fun f => (evalAll_renames h args).bind fun vs => ?_
    rw [Value.kind_rename]
    exact callValue_renames h.host f vs _
  | .branch test yes no => by
    refine (eval_renames h test).bind fun v => ?_
    cases v with
    | bool b =>
      cases b with
      | true => exact eval_renames h yes
      | false => exact eval_renames h no
    | _ => exact .throw _
  | .block body => by
    refine (evalAll_renames h body).bind fun vs => ?_
    rw [List.getLast?_map]
    cases vs.getLast? with
    | some v => exact .pure v
    | none => exact .pure Value.null
  | .times count body => times_renames (eval_renames h body) count Value.null
  | .suspend turns next => by
    refine (eval_renames h turns).bind fun v => ?_
    rw [h.delay]
    exact (suspend_renames scope.delay v).bind fun _ => eval_renames h next
  | .raise text => .throw _
  | .rescue body => (eval_renames h body).rescue fun e => .pure (faultValue e)
  | .log value => by
    refine (eval_renames h value).bind fun v => ?_
    refine Task.Renames.bind (.modify fun s s' hs => { hs with log := ?_ }) fun _ => .pure v
    rw [hs.log, hs.heap, Heap.view_rename]
  | .display value => by
    refine (eval_renames h value).bind fun v => .reading fun s s' hs => ?_
    rw [hs.heap, Heap.display_rename]
    exact .pure (Value.str _)
  | .debug value => by
    refine (eval_renames h value).bind fun v => .reading fun s s' hs => ?_
    rw [hs.heap, Heap.debug_rename]
    exact .pure (Value.str _)
  | .kindName value => by
    refine (eval_renames h value).bind fun v => ?_
    rw [Value.kind_rename]
    exact .pure (Value.str _)
  | .binary op left right => by
    refine (eval_renames h left).bind fun v => ?_
    exact (eval_renames h right).bind fun w => operate_renames op v w

theorem evalAll_renames (h : Scope.Renames ρ scope scope') :
    (es : List Expr) → Task.Renames ρ (List.map (Value.rename ρ)) (evalAll scope es) (evalAll scope' es)
  | [] => .pure []
  | e :: es => (eval_renames h e).bind fun v => (evalAll_renames h es).bind fun vs => .pure (v :: vs)

end

/-! ## Calls -/

/-- **Calls do not look at the numbers of native functions**, however deeply they nest. -/
theorem invoke_renames (setting : Setting) (depth : Nat) (f : Fn) (args : List Value) :
    Task.Renames ρ (Value.rename ρ) (invoke setting depth f args)
      (invoke setting depth (f.rename ρ) (args.map (Value.rename ρ))) := by
  induction depth generalizing f args with
  | zero => exact .exhausted
  | succ depth ih =>
    have hhost : Host.Renames ρ ⟨invoke setting depth, setting.config, setting.limit⟩
        ⟨invoke setting depth, setting.config, setting.limit⟩ := ⟨ih, rfl, rfl⟩
    refine Act.countCall_renames.bind fun _ => ?_
    cases f with
    | native id bound => exact Bound.call_renames hhost bound args
    | script id =>
      refine .reading fun s s' hs => ?_
      rw [Machine.body, Machine.body, hs.bodies]
      have hscope : Scope.Renames ρ
          ⟨⟨invoke setting depth, setting.config, setting.limit⟩, setting.delay, args⟩
          ⟨⟨invoke setting depth, setting.config, setting.limit⟩, setting.delay, args.map (Value.rename ρ)⟩ :=
        ⟨hhost, rfl, rfl⟩
      exact eval_renames hscope (.block (s.bodies.getD (id - 1) []))

end ScriptValues.Script
