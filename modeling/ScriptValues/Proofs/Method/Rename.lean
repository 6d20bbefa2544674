/-
Methods do not look at the numbers of native functions: on renamed values, with functions called alike, a property is
resolved alike (`resolve_renames`) and a bound method does alike (`Bound.call_renames`).
-/
import ScriptValues.Proofs.Machine.Rename
import ScriptValues.Proofs.Method.Congruence
import ScriptValues.Proofs.Method.Known

namespace ScriptValues

variable {ρ : Nat ↪ Nat} {α β : Type}

/-! ## Arguments and answers -/

/-- What the reader selects is the same in a value whose functions have other numbers. -/
def Reader.Fixed (r : Reader α) : Prop := ∀ (ρ : Nat ↪ Nat) (v : Value), r.select (v.rename ρ) = r.select v

theorem Reader.bool_fixed : Reader.bool.Fixed := fun _ => Value.bool?_rename

theorem Reader.num_fixed : Reader.num.Fixed := fun _ => Value.num?_rename

theorem Reader.str_fixed : Reader.str.Fixed := fun _ => Value.str?_rename

theorem Reader.arr_fixed : Reader.arr.Fixed := fun _ => Value.arr?_rename

namespace Argument

variable {args : List Value} {i : Nat}

@[simp] theorem mismatch_rename (expected : Expected) :
    mismatch (args.map (Value.rename ρ)) i expected = mismatch args i expected := by
  rw [mismatch, mismatch, List.getElem?_map]
  cases args[i]? with
  | none => rfl
  | some v => rw [Option.map_some, Option.map_some, Option.map_some, Value.kind_rename]

/-- What is read of a renamed argument is renamed as what is selected is. -/
theorem read_rename {r : Reader α} {g : α → α} (hr : ∀ v, r.select (v.rename ρ) = (r.select v).map g) :
    read r (args.map (Value.rename ρ)) i = (read r args i).map g := by
  have hselect : (args.map (Value.rename ρ))[i]?.bind r.select = (args[i]?.bind r.select).map g := by
    rw [List.getElem?_map]
    cases args[i]? with
    | none => rfl
    | some v => exact hr v
  rw [read, read, mismatch_rename, hselect]
  cases args[i]?.bind r.select <;> rfl

theorem read_any_rename : read .any (args.map (Value.rename ρ)) i = (read .any args i).map (Value.rename ρ) :=
  read_rename fun _ => rfl

theorem read_fn_rename : read .fn (args.map (Value.rename ρ)) i = (read .fn args i).map (Fn.rename ρ) :=
  read_rename Value.fn?_rename

end Argument

namespace Reader.Fixed

variable {r : Reader α} {args : List Value} {i : Nat} (hr : r.Fixed)
include hr

theorem read_rename : Argument.read r (args.map (Value.rename ρ)) i = Argument.read r args i := by
  have hread : Argument.read r (args.map (Value.rename ρ)) i = (Argument.read r args i).map id :=
    Argument.read_rename fun v => (hr ρ v).trans Option.map_id_apply.symm
  rw [hread]
  cases Argument.read r args i <;> rfl

theorem read?_rename : Argument.read? r (args.map (Value.rename ρ)) i = Argument.read? r args i := by
  rw [Argument.read?, Argument.read?, List.length_map, hr.read_rename]

theorem result_rename (m : CallbackMethod) (v : Value) :
    Argument.result r m (v.rename ρ) = Argument.result r m v := by
  rw [Argument.result, Argument.result, hr, Value.kind_rename]

end Reader.Fixed

/-- The answer with the native functions in it under other numbers. -/
def Answer.rename (ρ : Nat ↪ Nat) : Answer → Answer
  | .value v => .value (v.rename ρ)
  | .fresh items => .fresh (items.map (Value.rename ρ))

/-- The reply with the native functions in it under other numbers. -/
def Reply.rename (ρ : Nat ↪ Nat) (r : Reply) : Reply :=
  ⟨r.items.map (Array.map (Value.rename ρ)), r.answer.rename ρ⟩

theorem Answer.commit_renames (a : Answer) : Task.Renames ρ (Value.rename ρ) a.commit (a.rename ρ).commit := by
  cases a with
  | value v => exact .pure v
  | fresh items =>
    have halloc := Act.alloc_renames (ρ := ρ) items.toArray
    rwa [List.map_toArray] at halloc

theorem Reply.commit_renames (c : Cell) (r : Reply) :
    Task.Renames ρ (Value.rename ρ) (r.commit c) ((r.rename ρ).commit c) := by
  obtain ⟨items, answer⟩ := r
  cases items with
  | none => exact Task.Renames.bind (.pure ()) fun _ => answer.commit_renames
  | some items => exact (Act.write_renames c items).bind fun _ => answer.commit_renames

/-- A value that is known when nothing has been made refers to nothing. -/
theorem Value.Known.rename_eq_self {v : Value} (hv : v.Known ⟨0, [], 0⟩) : v.rename ρ = v :=
  (hv.rename_congr nofun).trans v.rename_refl

theorem Answer.Known.rename_eq_self {a : Answer} (ha : a.Known ⟨0, [], 0⟩) : a.rename ρ = a := by
  cases a with
  | value v => exact congrArg Answer.value (Value.Known.rename_eq_self ha)
  | fresh items =>
    have hitems : items.map (Value.rename ρ) = items.map id :=
      List.map_congr_left fun v hv => Value.Known.rename_eq_self (ha v hv)
    rw [rename, hitems, List.map_id]

theorem NumMethod.answer_rename (n : Num) (m : NumMethod) (args : List Value) :
    m.answer n (args.map (Value.rename ρ)) = (m.answer n args).map (Answer.rename ρ) := by
  cases m
  rfl

theorem StrMethod.answer_rename (text : String) (m : StrMethod) (args : List Value) :
    m.answer text (args.map (Value.rename ρ)) = (m.answer text args).map (Answer.rename ρ) := by
  have hsame : m.answer text (args.map (Value.rename ρ)) = m.answer text args := by
    cases m <;> simp only [StrMethod.answer, Reader.str_fixed.read_rename, Reader.str_fixed.read?_rename,
      Reader.num_fixed.read_rename, Reader.num_fixed.read?_rename]
  rw [hsame]
  cases ha : m.answer text args with
  | error e => rfl
  | ok a => exact congrArg Except.ok (Answer.Known.rename_eq_self (StrMethod.answer_known ha)).symm

theorem Reply.rename_eq {r r' : Reply} (hitems : r'.items = r.items.map (Array.map (Value.rename ρ)))
    (hanswer : r'.answer = r.answer.rename ρ) :
    (pure r' : Except Fault Reply) = (pure r : Except Fault Reply).map (Reply.rename ρ) := by
  obtain ⟨items', answer'⟩ := r'
  cases hitems
  cases hanswer
  rfl

theorem ArrMethod.reply_rename (h : Heap) (c : Cell) (m : ArrMethod) (args : List Value) :
    m.reply (h.rename ρ) c (args.map (Value.rename ρ)) = (m.reply h c args).map (Reply.rename ρ) := by
  cases m with
  | push =>
    simp only [reply, Argument.read_any_rename, Heap.contents_rename]
    cases Argument.read .any args 0 with
    | error e => rfl
    | ok v => exact Reply.rename_eq (congrArg some Array.map_push.symm) rfl
  | unshift =>
    simp only [reply, Argument.read_any_rename, Heap.contents_rename]
    cases Argument.read .any args 0 with
    | error e => rfl
    | ok v => exact Reply.rename_eq (congrArg some (by simp)) rfl
  | pop =>
    simp only [reply, Heap.contents_rename]
    refine Reply.rename_eq (congrArg some (by simp)) (congrArg Answer.value ?_)
    rw [Array.back?_map]
    cases (h.contents c).back? <;> rfl
  | shift =>
    simp only [reply, Heap.contents_rename]
    refine Reply.rename_eq (congrArg some (by simp)) (congrArg Answer.value ?_)
    rw [Array.getElem?_map]
    cases (h.contents c)[0]? <;> rfl
  | concat =>
    simp only [reply, Reader.arr_fixed.read_rename, Heap.contents_rename]
    cases Argument.read .arr args 0 with
    | error e => rfl
    | ok d => exact Reply.rename_eq rfl (congrArg Answer.fresh (by simp))
  | slice =>
    simp only [reply, Reader.num_fixed.read_rename, Heap.contents_rename, Items.slice_eq, Array.size_map,
      Array.toList_map]
    cases Argument.read .num args 0 with
    | error e => rfl
    | ok start =>
      cases Argument.read .num args 1 with
      | error e => rfl
      | ok stop => exact Reply.rename_eq rfl (congrArg Answer.fresh (by simp))
  | join =>
    simp only [reply, Reader.str_fixed.read?_rename, Heap.contents_rename, Array.toList_map, List.map_map,
      Function.comp_def, Value.str?_rename]
    cases Argument.read? .str args 0 <;> rfl
  | incl =>
    simp only [reply, Argument.read_any_rename, Heap.contents_rename, Array.toList_map, List.any_map]
    cases Argument.read .any args 0 with
    | error e => rfl
    | ok v =>
      refine Reply.rename_eq rfl (congrArg (fun b => Answer.value (.bool b)) ?_)
      simp only [Function.comp_def, Heap.eq_rename]
  | indexOf =>
    simp only [reply, Argument.read_any_rename, Reader.num_fixed.read?_rename, Heap.contents_rename, Heap.indexOf_eq,
      Array.size_map, Array.toList_map]
    cases Argument.read .any args 0 with
    | error e => rfl
    | ok v =>
      cases Argument.read? .num args 1 with
      | error e => rfl
      | ok start =>
        let position (r : Option Nat) : Answer := .value (.num (r.elim (.ofInt (-1)) .ofNat))
        refine Reply.rename_eq rfl (congrArg position ?_)
        simp only [← List.map_drop, List.findIdx?_map, Function.comp_def, Heap.eq_rename]
  | reverse =>
    simp only [reply, Heap.contents_rename]
    exact Reply.rename_eq (congrArg some Array.map_reverse.symm) rfl
  | copy =>
    simp only [reply, Heap.contents_rename]
    exact Reply.rename_eq rfl (congrArg Answer.fresh Array.toList_map)

/-! ## Properties -/

/-- The property is read or bound of the second target as it is of the first. -/
def Property.Renames {τ : Type} (ρ : Nat ↪ Nat) (target target' : τ) : Property τ → Prop
  | .attribute read => ∀ h, read (h.rename ρ) target' = (read h target).rename ρ
  | .method bind => bind target' = bind target

theorem Property.read_renames {τ : Type} {table : Property.Table τ} {target target' : τ}
    (htable : ∀ p ∈ table, p.2.Renames ρ target target') (kind : Kind) (name : String) :
    Task.Renames ρ (Value.rename ρ) (Property.read kind table target name) (Property.read kind table target' name) := by
  have hfound : ∀ p, table.lookup name = some p → p.Renames ρ target target' :=
    fun p hp => htable (name, p) (mem_of_lookup hp)
  unfold Property.read
  split
  · exact .throw _
  · next read hread =>
    refine .reading fun s s' hs => ?_
    rw [hs.heap, hfound _ hread]
    exact .pure _
  · next bind hbind =>
    have hsame : bind target' = bind target := hfound _ hbind
    rw [hsame]
    exact Act.bindMethod_renames _

theorem resolve_renames (v : Value) (name : String) :
    Task.Renames ρ (Value.rename ρ) (resolve v name) (resolve (v.rename ρ) name) := by
  refine (Act.emit_renames _ _).bind fun _ => ?_
  cases v with
  | null | bool b | fn f => exact .throw _
  | num n =>
    refine Property.read_renames ?_ _ name
    simp [Property.num, Property.ofNum, Property.Renames]
  | str s =>
    refine Property.read_renames ?_ _ name
    simp [Property.str, Property.ofStr, Property.Renames, Value.ofNat, Value.rename]
  | arr c =>
    refine Property.read_renames ?_ _ name
    simp [Property.arr, Property.ofArr, Property.ofCallback, Property.Renames, Value.ofNat, Value.rename]
  | error e =>
    refine Property.read_renames ?_ _ name
    simp [Property.error, Property.Renames, Value.rename]
  | errorWith e info =>
    refine Property.read_renames ?_ _ name
    simp [Property.error, Property.Renames, Value.rename]

/-! ## Methods that call back -/

/-- The second host calls renamed functions as the first calls the functions. -/
structure Host.Renames (ρ : Nat ↪ Nat) (host host' : Host) : Prop where
  invoke : ∀ f args, Task.Renames ρ (Value.rename ρ) (host.invoke f args)
    (host'.invoke (f.rename ρ) (args.map (Value.rename ρ)))
  config : host'.config = host.config
  limit : host'.limit = host.limit

/-- The second elements are the first renamed. -/
structure Elements.Renames (ρ : Nat ↪ Nat) (elements elements' : Elements) : Prop where
  get : ∀ i, Task.Renames ρ (Option.map (Value.rename ρ)) (elements.get i) (elements'.get i)
  bound : elements'.bound = elements.bound

variable {host host' : Host}

/-- A method that goes on alike with elements that are the same renamed, whichever those are. -/
theorem Elements.ofCell_renames (h : host.Renames ρ host') (c : Cell) {g : α → β} {k : Elements → Act α}
    {k' : Elements → Act β}
    (hk : ∀ elements elements', Elements.Renames ρ elements elements' → Task.Renames ρ g (k elements) (k' elements')) :
    Task.Renames ρ g (Elements.ofCell host c >>= k) (Elements.ofCell host' c >>= k') := by
  rw [Elements.ofCell, Elements.ofCell, h.config, h.limit]
  cases host.config.iteration with
  | live =>
    refine hk (live c host.limit) (live c host.limit) ⟨fun i => ?_, rfl⟩
    refine (Act.contents_renames c).bind fun items => ?_
    rw [Array.getElem?_map]
    exact .pure _
  | snapshot =>
    simp only [bind_assoc, pure_bind]
    refine (Act.contents_renames c).bind fun items => hk (snapshot items) _ ⟨fun i => ?_, ?_⟩
    · change Task.Renames ρ _ (pure items[i]?) (pure (items.map (Value.rename ρ))[i]?)
      rw [Array.getElem?_map]
      exact .pure _
    · rw [snapshot, snapshot, Array.size_map]

namespace Callback

theorem callBack_renames (h : host.Renames ρ host') (m : CallbackMethod) (f : Fn) (args : List Value) :
    Task.Renames ρ (Value.rename ρ) (callBack host m f args)
      (callBack host' m (f.rename ρ) (args.map (Value.rename ρ))) :=
  (Act.emit_renames _ _).bind fun _ => h.invoke f args

section Elements

variable {elements elements' : Elements}

theorem filterFrom_renames (h : host.Renames ρ host') (f : Fn) (helements : Elements.Renames ρ elements elements')
    (bound i : Nat) :
    Task.Renames ρ (List.map (Value.rename ρ)) (filterFrom host f elements bound i)
      (filterFrom host' (f.rename ρ) elements' bound i) := by
  induction bound generalizing i with
  | zero => exact .exhausted
  | succ bound ih =>
    refine (helements.get i).bind fun found => ?_
    cases found with
    | none => exact .pure _
    | some v =>
      refine (callBack_renames h .filter f [v, .ofNat i]).bind fun answer => ?_
      rw [Reader.bool_fixed.result_rename]
      refine (Task.Renames.result _).bind fun keep => (ih (i + 1)).bind fun rest => ?_
      cases keep with
      | true => exact .pure (v :: rest)
      | false => exact .pure rest

theorem reduceFrom_renames (h : host.Renames ρ host') (f : Fn) (helements : Elements.Renames ρ elements elements')
    (bound i : Nat) (acc : Value) :
    Task.Renames ρ (Value.rename ρ) (reduceFrom host f elements bound i acc)
      (reduceFrom host' (f.rename ρ) elements' bound i (acc.rename ρ)) := by
  induction bound generalizing i acc with
  | zero => exact .exhausted
  | succ bound ih =>
    refine (helements.get i).bind fun found => ?_
    cases found with
    | none => exact .pure acc
    | some v => exact (callBack_renames h .reduce f [acc, v, .ofNat i]).bind fun acc => ih (i + 1) acc

theorem findFrom_renames (h : host.Renames ρ host') (f : Fn) (helements : Elements.Renames ρ elements elements')
    (bound i : Nat) :
    Task.Renames ρ (Value.rename ρ) (findFrom host f elements bound i)
      (findFrom host' (f.rename ρ) elements' bound i) := by
  induction bound generalizing i with
  | zero => exact .exhausted
  | succ bound ih =>
    refine (helements.get i).bind fun found => ?_
    cases found with
    | none => exact .pure Value.null
    | some v =>
      refine (callBack_renames h .find f [v, .ofNat i]).bind fun answer => ?_
      rw [Reader.bool_fixed.result_rename]
      refine (Task.Renames.result _).bind fun found => ?_
      cases found with
      | true => exact .pure v
      | false => exact ih (i + 1)

end Elements

variable (c : Cell) (args : List Value)

/-- The function that a method is called with. -/
theorem fn_renames {g : α → β} {k : Fn → Act α} {k' : Fn → Act β}
    (hk : ∀ f, Task.Renames ρ g (k f) (k' (f.rename ρ))) :
    Task.Renames ρ g (Task.ofExcept (Argument.read .fn args 0) >>= k)
      (Task.ofExcept (Argument.read .fn (args.map (Value.rename ρ)) 0) >>= k') := by
  rw [Argument.read_fn_rename]
  exact (Task.Renames.ofExcept _).bind hk

theorem filter_renames (h : host.Renames ρ host') :
    Task.Renames ρ (Value.rename ρ) (filter host c args) (filter host' c (args.map (Value.rename ρ))) := by
  refine fn_renames args fun f => Elements.ofCell_renames h c fun elements elements' helements => ?_
  rw [helements.bound]
  refine (filterFrom_renames h f helements _ 0).bind fun kept => ?_
  rw [← List.map_toArray]
  exact Act.alloc_renames _

theorem reduce_renames (h : host.Renames ρ host') :
    Task.Renames ρ (Value.rename ρ) (reduce host c args) (reduce host' c (args.map (Value.rename ρ))) := by
  refine fn_renames args fun f => Elements.ofCell_renames h c fun elements elements' helements => ?_
  rw [List.getElem?_map, helements.bound]
  cases args[1]? with
  | some acc => exact reduceFrom_renames h f helements _ 0 acc
  | none =>
    refine (helements.get 0).bind fun first => ?_
    cases first with
    | some acc => exact reduceFrom_renames h f helements _ 1 acc
    | none => exact .throw _

theorem find_renames (h : host.Renames ρ host') :
    Task.Renames ρ (Value.rename ρ) (find host c args) (find host' c (args.map (Value.rename ρ))) := by
  refine fn_renames args fun f => Elements.ofCell_renames h c fun elements elements' helements => ?_
  rw [helements.bound]
  exact findFrom_renames h f helements _ 0

/-! ### Mapping and sorting -/

theorem mapCalls_renames (h : host.Renames ρ host') (f : Fn) (items : List Value) :
    List.Forall₂ (Task.Renames ρ (Value.rename ρ)) (mapCalls host f items)
      (mapCalls host' (f.rename ρ) (items.map (Value.rename ρ))) := by
  rw [mapCalls, mapCalls, List.mapIdx_eq_zipIdx_map, List.mapIdx_eq_zipIdx_map, List.zipIdx_map, List.map_map,
    List.forall₂_map_left_iff, List.forall₂_map_right_iff]
  exact List.forall₂_same.2 fun p _ => callBack_renames h .map f [p.1, .ofNat p.2]

theorem issue_renames (h : host.Renames ρ host') {calls calls' : List (Act Value)}
    (hcalls : List.Forall₂ (Task.Renames ρ (Value.rename ρ)) calls calls') :
    Task.Renames ρ (List.map (Value.rename ρ)) (issue host calls) (issue host' calls') := by
  unfold issue
  rw [h.config]
  cases host.config.map with
  | concurrent => exact .gather hcalls
  | sequential => exact .sequence hcalls

theorem map_renames (h : host.Renames ρ host') :
    Task.Renames ρ (Value.rename ρ) (map host c args) (map host' c (args.map (Value.rename ρ))) := by
  rw [map_eq, map_eq]
  refine fn_renames args fun f => (Act.contents_renames c).bind fun items => ?_
  rw [Array.toList_map]
  refine (issue_renames h (mapCalls_renames h f items.toList)).bind fun results => ?_
  rw [answerMapped_eq, answerMapped_eq, ← List.map_toArray]
  exact (Act.emit_renames _ _).bind fun _ => Act.alloc_renames _

/-- The questions of a sort, asked of renamed values. -/
theorem perform_renames (h : host.Renames ρ host') (f : Fn) (t : Sort.Inquiry Value α) (n : Nat) :
    Task.Renames ρ id ((t.perform (precedes host f)).run n)
      ((t.perform fun a b => precedes host' (f.rename ρ) (a.rename ρ) (b.rename ρ)).run n) := by
  induction t generalizing n with
  | result b => exact .pure (b, n)
  | ask a b next ih =>
    have hasked : Task.Renames ρ id ((precedes host f a b).run n)
        ((precedes host' (f.rename ρ) (a.rename ρ) (b.rename ρ)).run n) := by
      rw [precedes_run, precedes_run]
      refine (callBack_renames h .sort f [a, b]).bind fun answer => ?_
      rw [Reader.num_fixed.result_rename]
      exact (Task.Renames.result _).bind fun order => .pure _
    exact hasked.bind fun p => ih p.1 p.2

theorem mergeSort_renames (h : host.Renames ρ host') (f : Fn) (items : List Value) :
    Task.Renames ρ (fun p : List Value × Nat => (p.1.map (Value.rename ρ), p.2))
      ((Sort.mergeSort (precedes host f) items).run 0)
      ((Sort.mergeSort (precedes host' (f.rename ρ)) (items.map (Value.rename ρ))).run 0) := by
  rw [Sort.mergeSort_map, Sort.mergeSort_eq_perform (precedes host f) items,
    Sort.mergeSort_eq_perform (fun a b => precedes host' (f.rename ρ) (a.rename ρ) (b.rename ρ)) items, StateT.run_map]
  exact (perform_renames h f _ 0).map _

theorem sort_renames (h : host.Renames ρ host') :
    Task.Renames ρ (Value.rename ρ) (sort host c args) (sort host' c (args.map (Value.rename ρ))) := by
  refine fn_renames args fun f => (Act.contents_renames c).bind fun items => ?_
  rw [Array.toList_map]
  refine (mergeSort_renames h f items.toList).bind fun p => ?_
  obtain ⟨sorted, comparisons⟩ := p
  dsimp only
  rw [← List.map_toArray]
  refine (Act.write_renames c sorted.toArray).bind fun _ => (Act.emit_renames _ _).bind fun _ => ?_
  exact .pure (Value.arr c)

theorem run_renames (h : host.Renames ρ host') (m : CallbackMethod) :
    Task.Renames ρ (Value.rename ρ) (run host c m args) (run host' c m (args.map (Value.rename ρ))) := by
  cases m with
  | map => exact map_renames c args h
  | filter => exact filter_renames c args h
  | reduce => exact reduce_renames c args h
  | find => exact find_renames c args h
  | sort => exact sort_renames c args h

end Callback

/-- **Methods do not look at the numbers of native functions**, as far as the functions that they call do not. -/
theorem Bound.call_renames (h : host.Renames ρ host') (b : Bound) (args : List Value) :
    Task.Renames ρ (Value.rename ρ) (b.call host args) (b.call host' (args.map (Value.rename ρ))) := by
  cases b with
  | num n m =>
    rw [Bound.call, Bound.call, NumMethod.answer_rename]
    exact (Task.Renames.ofExcept _).bind fun answer => answer.commit_renames
  | str s m =>
    rw [Bound.call, Bound.call, StrMethod.answer_rename]
    exact (Task.Renames.ofExcept _).bind fun answer => answer.commit_renames
  | arr c m =>
    refine .reading fun s s' hs => ?_
    rw [hs.heap, ArrMethod.reply_rename]
    exact (Task.Renames.ofExcept _).bind fun reply => reply.commit_renames c
  | callback c m => exact Callback.run_renames c args h m

end ScriptValues
