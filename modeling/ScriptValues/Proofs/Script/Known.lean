/-
Runs hold known values only: no array or function that is referred to is missing, and a native function is the
one that was made under its number, all the time that a script runs (`eval_sound`, `invoke_sound`). So the
machines that the steps of a script leave are accounted for (`outcomes_accounted`). In particular a native
function has the name that goes with its number, and values that are equal in such a machine are shown alike
(`outcomes_display_eq`).
-/
import ScriptValues.Proofs.Heap.EqualText
import ScriptValues.Proofs.Method.Known
import ScriptValues.Proofs.Script.Steps

namespace ScriptValues

variable {i j : Inventory}

/-! ## Properties -/

/-- What is read or bound of the target is known. -/
def Property.Sound {τ : Type} (i : Inventory) (target : τ) : Property τ → Prop
  | .attribute read => ∀ h, (read h target).Known i
  | .method bind => (bind target).Known i

theorem Property.read_sound {τ : Type} {table : Table τ} {target : τ}
    (htable : ∀ p ∈ table, p.2.Sound i target) (kind : Kind) (name : String) :
    (Property.read kind table target name).Sound i Value.Known := by
  have hfound : ∀ p, table.lookup name = some p → p.Sound i target :=
    fun p hp => htable (name, p) (mem_of_lookup hp)
  unfold Property.read
  split
  · exact .throw _
  · next read hread =>
    refine .bind .get fun s j hij hs => .pure fun k hjk => ?_
    exact (hfound _ hread s.heap).mono (hij.trans hjk)
  · next bind hbind => exact Act.bindMethod_sound (hfound _ hbind)

theorem resolve_sound {v : Value} (hv : v.Known i) (name : String) : (resolve v name).Sound i Value.Known := by
  refine (Act.emit_sound _).bind fun _ j hij _ => ?_
  have hv' := hv.mono hij
  cases v with
  | null | bool b | fn f => exact .throw _
  | num n =>
    refine Property.read_sound ?_ _ name
    simp [Property.num, Property.ofNum, Property.Sound, Bound.Known]
  | str s =>
    refine Property.read_sound ?_ _ name
    simp [Property.str, Property.ofStr, Property.Sound, Bound.Known, Value.ofNat, Value.Known]
  | arr c =>
    have hc : c.id < j.arrays := hv'
    refine Property.read_sound ?_ _ name
    simp [Property.arr, Property.ofArr, Property.ofCallback, Property.Sound, Bound.Known, Value.ofNat,
      Value.Known, hc]
  | error e =>
    refine Property.read_sound ?_ _ name
    simp [Property.error, Property.Sound, Value.Known]
  | errorWith e info =>
    have hinfo : info.Known j := hv'
    refine Property.read_sound ?_ _ name
    simp [Property.error, Property.Sound, Value.Known, hinfo]

namespace Script

/-! ## Expressions -/

/-- Functions are called soundly in the scope, and its arguments are known. -/
structure Scope.Sound (i : Inventory) (scope : Scope) : Prop where
  host : scope.host.Sound i
  args : AllKnown i scope.args

theorem Scope.Sound.later {scope : Scope} (hij : i.Grows j) (h : Scope.Sound i scope) : Scope.Sound j scope :=
  ⟨h.host.later hij, h.args.mono hij⟩

theorem callValue_sound {host : Host} (hhost : host.Sound i) {f : Value} (hf : f.Known i) {args : List Value}
    (hargs : AllKnown i args) (what : String) : (callValue host f args what).Sound i Value.Known := by
  cases f with
  | fn f => exact hhost f args i (.refl i) hf hargs
  | _ => exact .throw _

theorem suspend_sound (delay : Nat → Nat → Nat) (turns : Value) :
    (suspend delay turns).Sound i fun _ _ => True := by
  have hcounted : (modifyGet fun s : Machine =>
      let given := delay s.suspensions.size (turns.num?.elim 0 Num.clampIndex)
      (given, { s with suspensions := s.suspensions.push given }) : Act Nat).Sound i fun _ _ => True :=
    .beside fun _ => ⟨rfl, rfl, rfl, rfl⟩
  exact hcounted.bind fun given j _ _ => .pause given

theorem times_sound {t : Act Value} (ht : t.Sound i Value.Known) (n : Nat) {v : Value} (hv : v.Known i) :
    (times t n v).Sound i Value.Known := by
  induction n generalizing i v with
  | zero => exact .pure fun j hij => hv.mono hij
  | succ n ih => exact ht.bind fun w j hij hw => ih (ht.later hij) hw

theorem arithmetic_sound {op : Num → Num → Value} (hop : ∀ x y i, (op x y).Known i) (v w : Value) :
    (arithmetic op v w).Sound i Value.Known := by
  unfold arithmetic
  split
  · exact .pure fun j _ => hop _ _ j
  · exact .throw _

theorem operate_sound (op : Operator) (v w : Value) : (operate op v w).Sound i Value.Known := by
  cases op with
  | eq => exact .bind .get fun s j _ _ => .pure fun _ _ => trivial
  | same => exact .pure fun _ _ => trivial
  | add | sub | mul | modulo | lt =>
    refine arithmetic_sound ?_ v w
    exact fun _ _ _ => trivial

variable {scope : Scope}

mutual

/-- **Evaluation holds known values only.** -/
theorem eval_sound {i : Inventory} (h : Scope.Sound i scope) : (e : Expr) → (eval scope e).Sound i Value.Known
  | .null => .pure fun _ _ => trivial
  | .bool b => .pure fun _ _ => trivial
  | .num n => .pure fun _ _ => trivial
  | .str s => .pure fun _ _ => trivial
  | .array items => (evalAll_sound h items).bind fun vs j _ hvs => Act.alloc_sound hvs
  | .error name => .pure fun _ _ => trivial
  | .errorWith name info => (eval_sound h info).bind fun v j _ hv => .pure fun k hjk => Value.Known.mono hjk hv
  | .function body => Act.makeFunction_sound body
  | .global name => by
    refine .bind .get fun s j _ hs => ?_
    cases hfound : s.globals.lookup name with
    | some v => exact .pure fun k hjk => (hs.globals name v hfound).mono hjk
    | none => exact .throw _
  | .argument n => .pure fun j hij => (h.args.getD n).mono hij
  | .argumentCount => .pure fun _ _ => trivial
  | .assign name value => by
    refine (eval_sound h value).bind fun v j _ hv => ?_
    have hassigned : (modify fun s : Machine =>
        { s with globals := setKey name v s.globals } : Act Unit).Sound j fun _ _ => True :=
      .modifyGet fun k s hjk hs => ⟨k, .refl k, hs.assign (Value.Known.mono hjk hv) name, trivial⟩
    exact hassigned.bind fun _ k hjk _ => .pure fun l hkl => Value.Known.mono (hjk.trans hkl) hv
  | .property target name => (eval_sound h target).bind fun v j _ hv => resolve_sound hv name
  | .method target name args => by
    refine (eval_sound h target).bind fun v j hij hv => ?_
    refine (resolve_sound hv name).bind fun f k hjk hf => ?_
    have hik := hij.trans hjk
    refine (evalAll_sound (h.later hik) args).bind fun vs l hkl hvs => ?_
    exact callValue_sound (h.host.later (hik.trans hkl)) (Value.Known.mono hkl hf) hvs _
  | .apply callee args => by
    refine (eval_sound h callee).bind fun f j hij hf => ?_
    refine (evalAll_sound (h.later hij) args).bind fun vs k hjk hvs => ?_
    exact callValue_sound (h.host.later (hij.trans hjk)) (Value.Known.mono hjk hf) hvs _
  | .branch test yes no => by
    refine (eval_sound h test).bind fun v j hij _ => ?_
    cases v with
    | bool b =>
      cases b with
      | true => exact eval_sound (h.later hij) yes
      | false => exact eval_sound (h.later hij) no
    | _ => exact .throw _
  | .block body => by
    refine (evalAll_sound h body).bind fun vs j _ hvs => .pure fun k hjk => ?_
    rw [List.getLast?_eq_getElem?]
    exact (AllKnown.getD hvs _).mono hjk
  | .times count body => times_sound (eval_sound h body) count trivial
  | .suspend turns next => by
    refine (eval_sound h turns).bind fun v j hij _ => ?_
    exact (suspend_sound scope.delay v).bind fun _ k hjk _ => eval_sound (h.later (hij.trans hjk)) next
  | .raise text => .throw _
  | .rescue body => (eval_sound h body).rescue fun e j _ => .pure fun _ _ => trivial
  | .log value => by
    refine (eval_sound h value).bind fun v j _ hv => ?_
    have hlogged : (modify fun s : Machine => { s with log := s.log.push (s.heap.view v) } : Act Unit).Sound j
        fun _ _ => True :=
      .beside fun _ => ⟨rfl, rfl, rfl, rfl⟩
    exact hlogged.bind fun _ k hjk _ => .pure fun l hkl => Value.Known.mono (hjk.trans hkl) hv
  | .display value =>
    (eval_sound h value).bind fun v j _ _ => .bind .get fun s k _ _ => .pure fun _ _ => trivial
  | .debug value =>
    (eval_sound h value).bind fun v j _ _ => .bind .get fun s k _ _ => .pure fun _ _ => trivial
  | .kindName value => (eval_sound h value).bind fun v j _ _ => .pure fun _ _ => trivial
  | .binary op left right => by
    refine (eval_sound h left).bind fun v j hij _ => ?_
    exact (eval_sound (h.later hij) right).bind fun w k _ _ => operate_sound op v w

theorem evalAll_sound {i : Inventory} (h : Scope.Sound i scope) :
    (es : List Expr) → (evalAll scope es).Sound i AllKnown
  | [] => .pure fun _ _ => nofun
  | e :: es => by
    refine (eval_sound h e).bind fun v j hij hv => ?_
    refine (evalAll_sound (h.later hij) es).bind fun vs k hjk hvs => .pure fun l hkl => ?_
    exact List.forall_mem_cons.2 ⟨Value.Known.mono (hjk.trans hkl) hv, AllKnown.mono hkl hvs⟩

end

/-! ## Calls -/

/-- **Calls hold known values only**, however deeply they nest. -/
theorem invoke_sound (setting : Setting) (depth : Nat) {f : Fn} (hf : f.Known i) {args : List Value}
    (hargs : AllKnown i args) : (invoke setting depth f args).Sound i Value.Known := by
  induction depth generalizing i f args with
  | zero => exact .exhausted
  | succ depth ih =>
    have hhost : ∀ j, Host.Sound j ⟨invoke setting depth, setting.config, setting.limit⟩ :=
      fun j f args k _ hf hargs => ih hf hargs
    refine Act.countCall_sound.bind fun _ j hij _ => ?_
    have hf' := hf.mono hij
    cases f with
    | native id bound =>
      -- That the target exists is known of the machine, so the method is looked at where it begins.
      intro k s hjk hs
      have hbound := hs.bounds bound (List.mem_of_getElem? (hf'.mono hjk))
      exact Bound.call_sound (hhost k) hbound (hargs.mono (hij.trans hjk)) k s (.refl k) hs
    | script id =>
      refine .bind .get fun s k hjk _ => ?_
      exact eval_sound ⟨hhost k, hargs.mono (hij.trans hjk)⟩ (.block (s.body id))

theorem topScope_sound (setting : Setting) (i : Inventory) : Scope.Sound i (topScope setting) :=
  ⟨fun _ _ _ _ hf hargs => invoke_sound setting _ hf hargs, nofun⟩

/-! ## Steps -/

/-- The machine that is left, if any, is accounted for, and the value is known. -/
def Accounted (i : Inventory) : Outcome Machine Fault Value → Prop
  | .done s v => ∃ j, i.Grows j ∧ s.Accounted j ∧ v.Known j
  | .failed s _ => ∃ j, i.Grows j ∧ s.Accounted j
  | .exhausted => True

theorem Accounted.before {o : Outcome Machine Fault Value} (hij : i.Grows j) (ho : Accounted j o) :
    Accounted i o := by
  cases o with
  | done s v =>
    obtain ⟨k, hjk, hs, hv⟩ := ho
    exact ⟨k, hij.trans hjk, hs, hv⟩
  | failed s e =>
    obtain ⟨k, hjk, hs⟩ := ho
    exact ⟨k, hij.trans hjk, hs⟩
  | exhausted => trivial

/-- **Steps leave machines that are accounted for**, from one that is. -/
theorem outcomes_accounted (setting : Setting) {s : Machine} (hs : s.Accounted i) (es : List Expr) :
    ∀ o ∈ outcomes (topScope setting) s es, Accounted i o := by
  induction es generalizing i s with
  | nil => exact nofun
  | cons e es ih =>
    have hclear : s.clearRecord.Accounted i := hs.beside rfl rfl rfl rfl
    have hend := (eval_sound (topScope_sound setting i) e i s.clearRecord (.refl i) hclear).finish
    rw [outcomes, Task.run]
    generalize (eval (topScope setting) e s.clearRecord).finish = o at hend
    cases o with
    | done s' v =>
      refine List.forall_mem_cons.2 ⟨hend, ?_⟩
      obtain ⟨j, hij, hs', -⟩ := hend
      exact fun o ho => (ih hs' o ho).before hij
    | failed s' e' =>
      refine List.forall_mem_cons.2 ⟨hend, ?_⟩
      obtain ⟨j, hij, hs'⟩ := hend
      exact fun o ho => (ih hs' o ho).before hij
    | exhausted => exact List.forall_mem_cons.2 ⟨trivial, ih hs⟩

end Script

/-! ## Names -/

/-- The name of the native function with a number. -/
def Inventory.nativeName (i : Inventory) (id : Nat) : String := i.natives[id]?.elim "" Bound.name

theorem Value.Known.named {v : Value} (hv : v.Known i) : v.Named i.nativeName := by
  induction v with
  | fn f =>
    cases f with
    | native id b =>
      have hb : i.natives[id]? = some b := hv
      rw [Value.Named, Fn.Named, Inventory.nativeName, hb, Option.elim_some]
    | script id => trivial
  | errorWith name info ih => exact ih hv
  | null | bool b | num n | str s | arr c | error name => trivial

theorem Machine.Accounted.named {s : Machine} (hs : s.Accounted i) : s.heap.Named i.nativeName :=
  fun c v hv => (hs.contents c v hv).named

/-- Known values of a machine that is accounted for are shown alike if they are equal. -/
theorem Machine.Accounted.display_eq {s : Machine} (hs : s.Accounted i) {v w : Value} (hv : v.Known i)
    (hw : w.Known i) (heq : s.heap.eq v w = true) : s.heap.display v = s.heap.display w :=
  Heap.display_eq_of_related hs.named hv.named hw.named (Heap.eq_iff_related.1 heq)

/-- **In the machines that the steps of a script leave, equal values are shown alike.** -/
theorem Script.outcomes_display_eq (setting : Setting) (es : List Expr) :
    ∀ o ∈ outcomes (topScope setting) .start es,
      match o with
      | .done s _ | .failed s _ => ∃ i, s.Accounted i ∧ ∀ v w, v.Known i → w.Known i →
          s.heap.eq v w = true → s.heap.display v = s.heap.display w
      | .exhausted => True := by
  intro o ho
  have haccounted := outcomes_accounted setting Machine.start_accounted es o ho
  cases o with
  | done s v =>
    obtain ⟨i, -, hs, -⟩ := haccounted
    exact ⟨i, hs, fun v w hv hw => hs.display_eq hv hw⟩
  | failed s e =>
    obtain ⟨i, -, hs⟩ := haccounted
    exact ⟨i, hs, fun v w hv hw => hs.display_eq hv hw⟩
  | exhausted => trivial

end ScriptValues
