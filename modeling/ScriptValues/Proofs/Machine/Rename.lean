/-
Native functions under other numbers. What a script sees of a value does not depend on the numbers of the native
functions in it, only on which of them are one and the same: equality, kinds, texts and views are those of the value
with its functions renumbered (`Heap.eq_rename`, `Heap.view_rename`, `Heap.display_rename`, `Heap.debug_rename`).
`Machine.Renamed` relates machines that are alike up to such numbers, those to be given later included, and up to
what they have reported, and `Task.Renames` tasks that are in step from such machines.
-/
import Mathlib.Logic.Embedding.Basic
import ScriptValues.Heap.Display
import ScriptValues.Heap.Equal
import ScriptValues.Proofs.Machine.Inventory
import ScriptValues.Proofs.Task.InStep

namespace ScriptValues

variable {ρ ρ' : Nat ↪ Nat}

/-! ## Values -/

/-- The function, a native one under another number. -/
def Fn.rename (ρ : Nat ↪ Nat) : Fn → Fn
  | .native id b => .native (ρ id) b
  | .script id => .script id

/-- The value, its native functions under other numbers. -/
def Value.rename (ρ : Nat ↪ Nat) : Value → Value
  | .null => .null
  | .bool b => .bool b
  | .num n => .num n
  | .str s => .str s
  | .arr c => .arr c
  | .fn f => .fn (f.rename ρ)
  | .error name => .error name
  | .errorWith name info => .errorWith name (info.rename ρ)

@[simp] theorem Fn.name_rename (f : Fn) : (f.rename ρ).name = f.name := by cases f <;> rfl

@[simp] theorem Fn.same_rename (f g : Fn) : (f.rename ρ).same (g.rename ρ) = f.same g := by
  cases f with
  | native a b =>
    cases g with
    | native a' b' =>
      rw [rename, rename, same, same, Bool.eq_iff_iff, beq_iff_eq, beq_iff_eq]
      exact ρ.injective.eq_iff
    | script id => rfl
  | script id => cases g <;> rfl

namespace Value

@[simp] theorem kind_rename (v : Value) : (v.rename ρ).kind = v.kind := by cases v <;> rfl

@[simp] theorem bool?_rename (v : Value) : (v.rename ρ).bool? = v.bool? := by cases v <;> rfl

@[simp] theorem num?_rename (v : Value) : (v.rename ρ).num? = v.num? := by cases v <;> rfl

@[simp] theorem str?_rename (v : Value) : (v.rename ρ).str? = v.str? := by cases v <;> rfl

@[simp] theorem arr?_rename (v : Value) : (v.rename ρ).arr? = v.arr? := by cases v <;> rfl

@[simp] theorem fn?_rename (v : Value) : (v.rename ρ).fn? = v.fn?.map (Fn.rename ρ) := by cases v <;> rfl

@[simp] theorem same_rename (v w : Value) : (v.rename ρ).same (w.rename ρ) = v.same w := by
  cases v <;> cases w <;> first | rfl | exact Fn.same_rename ..

theorem eqWith_rename (cells : Cell → Cell → Bool) (v w : Value) :
    (v.rename ρ).eqWith cells (w.rename ρ) = v.eqWith cells w := by
  induction v generalizing w with
  | fn f => cases w <;> first | rfl | exact Fn.same_rename ..
  | errorWith name info ih =>
    cases w with
    | errorWith name' info' => rw [rename, rename, eqWith, eqWith, ih]
    | _ => rfl
  | _ => cases w <;> rfl

theorem viewWith_rename (cells : Cell → View) (v : Value) : (v.rename ρ).viewWith cells = v.viewWith cells := by
  induction v with
  | fn f => cases f <;> rfl
  | errorWith name info ih => rw [rename, viewWith, viewWith, ih]
  | _ => rfl

theorem textWith_rename (cells : Cell → List Char) (quoted : Bool) (v : Value) :
    (v.rename ρ).textWith cells quoted = v.textWith cells quoted := by
  cases v with
  | fn f => exact congrArg (fun name : String => '@' :: name.toList) (Fn.name_rename f)
  | _ => rfl

/-- Renamings that agree on the native functions that have been made rename known values alike. -/
theorem Known.rename_congr {i : Inventory} {v : Value} (hv : v.Known i) (h : ∀ n < i.natives.length, ρ n = ρ' n) :
    v.rename ρ = v.rename ρ' := by
  induction v with
  | fn f =>
    cases f with
    | native id b =>
      obtain ⟨hid, -⟩ := List.getElem?_eq_some_iff.1 hv
      rw [rename, rename, Fn.rename, Fn.rename, h id hid]
    | script id => rfl
  | errorWith name info ih => rw [rename, rename, ih hv]
  | _ => rfl

theorem rename_refl (v : Value) : v.rename (.refl Nat) = v := by
  induction v with
  | fn f => cases f <;> rfl
  | errorWith name info ih => rw [rename, ih]
  | _ => rfl

end Value

/-! ## Heaps -/

namespace Heap

/-- The heap with the native functions in it under other numbers. -/
def rename (ρ : Nat ↪ Nat) (h : Heap) : Heap := ⟨h.cells.map fun items => items.map (Value.rename ρ)⟩

variable (h : Heap)

@[simp] theorem contents_rename (c : Cell) : (h.rename ρ).contents c = (h.contents c).map (Value.rename ρ) := by
  rw [contents, contents, Array.getD_eq_getD_getElem?, Array.getD_eq_getD_getElem?, rename, Array.getElem?_map]
  cases h.cells[c.id]? with
  | none => exact Array.map_empty.symm
  | some items => rfl

@[simp] theorem next_rename : (h.rename ρ).next = h.next := by rw [next, next, rename, Array.size_map]

theorem alloc_rename (items : Array Value) :
    (h.alloc items).rename ρ = (h.rename ρ).alloc (items.map (Value.rename ρ)) := by
  rw [alloc, alloc, rename, rename, Array.map_push]

theorem write_rename (c : Cell) (items : Array Value) :
    (h.write c items).rename ρ = (h.rename ρ).write c (items.map (Value.rename ρ)) := by
  rw [write, write, rename, rename, Array.map_setIfInBounds]

theorem pairwise_map {α β : Type} (eq : β → β → Bool) (f : α → β) (xs ys : List α) :
    pairwise eq (xs.map f) (ys.map f) = pairwise (fun a b => eq (f a) (f b)) xs ys := by
  induction xs generalizing ys with
  | nil => cases ys <;> rfl
  | cons x xs ih =>
    cases ys with
    | nil => rfl
    | cons y ys => rw [List.map_cons, List.map_cons, pairwise, pairwise, ih]

theorem eqCells_rename (fuel : Nat) : (h.rename ρ).eqCells fuel = h.eqCells fuel := by
  induction fuel with
  | zero => rfl
  | succ fuel ih =>
    funext path a b
    simp only [eqCells, ih, contents_rename, Array.size_map, Array.toList_map, pairwise_map, Value.eqWith_rename]

/-- Renamed values are equal if the values are. -/
@[simp] theorem eq_rename (v w : Value) : (h.rename ρ).eq (v.rename ρ) (w.rename ρ) = h.eq v w := by
  rw [eq, eq, Value.eqWith_rename, eqCells_rename, pathBound, pathBound, rename, Array.size_map]

theorem viewCell_rename (fuel : Nat) : (h.rename ρ).viewCell fuel = h.viewCell fuel := by
  induction fuel with
  | zero => rfl
  | succ fuel ih =>
    funext path c
    simp only [viewCell, ih, contents_rename, Array.toList_map, List.map_map, Function.comp_def, Value.viewWith_rename]

@[simp] theorem view_rename (v : Value) : (h.rename ρ).view (v.rename ρ) = h.view v := by
  rw [view, view, Value.viewWith_rename, viewCell_rename, rename, Array.size_map]

theorem cellText_rename (levels : Nat) : (h.rename ρ).cellText levels = h.cellText levels := by
  induction levels with
  | zero => rfl
  | succ levels ih =>
    funext c
    simp only [cellText, ih, contents_rename, Array.toList_map, List.map_map, Function.comp_def,
      Value.textWith_rename]

@[simp] theorem display_rename (v : Value) : (h.rename ρ).display (v.rename ρ) = h.display v := by
  rw [display, display, displayChars, displayChars, Value.textWith_rename, cellText_rename]

theorem debugChars_rename (v : Value) : (h.rename ρ).debugChars (v.rename ρ) = h.debugChars v := by
  induction v with
  | arr c => rw [Value.rename, debugChars.eq_def, debugChars.eq_def, cellText_rename]
  | fn f => cases f <;> rw [Value.rename, debugChars.eq_def, debugChars.eq_def] <;> rfl
  | errorWith name info ih =>
    rw [Value.rename, debugChars.eq_def, debugChars.eq_def]
    dsimp only
    rw [ih]
  | null | bool b | num n | str s | error name => rw [Value.rename, debugChars.eq_def, debugChars.eq_def]

@[simp] theorem debug_rename (v : Value) : (h.rename ρ).debug (v.rename ρ) = h.debug v := by
  rw [debug, debug, debugChars_rename]

end Heap

/-! ## Machines -/

/-- The machines are alike up to the numbers of native functions, also of those that they will make, and up to what
they have reported. -/
structure Machine.Renamed (ρ : Nat ↪ Nat) (s s' : Machine) : Prop where
  heap : s'.heap = s.heap.rename ρ
  bodies : s'.bodies = s.bodies
  natives : ∀ n, ρ (s.natives + n) = s'.natives + n
  globals : ∀ name, s'.globals.lookup name = (s.globals.lookup name).map (Value.rename ρ)
  calls : s'.calls = s.calls
  suspensions : s'.suspensions = s.suspensions
  log : s'.log = s.log

namespace Machine

variable {i : Inventory} {s s' : Machine}

/-- Renamings that agree on the native functions that have been made rename the heap alike. -/
theorem Accounted.rename_heap_congr (hs : s.Accounted i) (h : ∀ n < s.natives, ρ n = ρ' n) :
    s.heap.rename ρ = s.heap.rename ρ' := by
  rw [hs.natives] at h
  refine congrArg Heap.mk (Array.map_congr_left fun items hitems => Array.map_congr_left fun v hv => ?_)
  obtain ⟨c, hc, hfound⟩ := Array.mem_iff_getElem.1 hitems
  have hcontents : s.heap.contents ⟨c⟩ = items := by
    rw [Heap.contents, Array.getD_eq_getD_getElem?, Array.getElem?_eq_getElem hc, Option.getD_some, hfound]
  refine (hs.contents ⟨c⟩ v ?_).rename_congr h
  rw [hcontents]
  exact hv.val

theorem Accounted.rename_global_congr (hs : s.Accounted i) (h : ∀ n < s.natives, ρ n = ρ' n) (name : String) :
    (s.globals.lookup name).map (Value.rename ρ) = (s.globals.lookup name).map (Value.rename ρ') := by
  rw [hs.natives] at h
  cases hfound : s.globals.lookup name with
  | none => rfl
  | some v => exact congrArg some ((hs.globals name v hfound).rename_congr h)

theorem Renamed.refl (s : Machine) : s.Renamed (.refl Nat) s := by
  have hvalue : Value.rename (.refl Nat) = id := funext Value.rename_refl
  refine ⟨?_, rfl, fun n => rfl, fun name => ?_, rfl, rfl, rfl⟩
  · have hitems : (fun items : Array Value => items.map (Value.rename (.refl Nat))) = id :=
      funext fun items => by rw [hvalue, Array.map_id, id]
    rw [Heap.rename, hitems, Array.map_id]
  · rw [hvalue, Option.map_id, id]

/-- Native functions that come to be counted in other ways, on each side, are renamed in another way; those that have
been made keep the numbers that they had beside each other. -/
theorem Renamed.recount (h : s.Renamed ρ s') (hs : s.Accounted i) (hmade : ∀ n < s.natives, ρ n = ρ' n) {m m' : Nat}
    (hnew : ∀ n, ρ' (m + n) = m' + n) (events events' : Array Event) :
    { s with natives := m, events := events }.Renamed ρ' { s' with natives := m', events := events' } where
  heap := h.heap.trans (hs.rename_heap_congr hmade)
  bodies := h.bodies
  natives := hnew
  globals name := (h.globals name).trans (hs.rename_global_congr hmade name)
  calls := h.calls
  suspensions := h.suspensions
  log := h.log

end Machine

/-! ## Tasks -/

/-- The tasks are in step up to the numbers of native functions, and the result of the second is what `g` makes of the
result of the first. -/
def Task.Renames {α β : Type} (ρ : Nat ↪ Nat) (g : α → β) (t : Act α) (t' : Act β) : Prop :=
  t.InStep False (Machine.Renamed ρ) (fun a b => b = g a) t'

namespace Task.Renames

variable {α β γ δ : Type} {g : α → β} {h : γ → δ}

theorem pure (a : α) : Task.Renames ρ g (pure a) (pure (g a)) := InStep.pure rfl

theorem throw (e : Fault) : Task.Renames ρ g (throw e) (throw e) := fun _ _ hs => .failed hs

theorem exhausted : Task.Renames ρ g Task.exhausted Task.exhausted := fun _ _ _ => .exhausted

theorem bind {t : Act α} {t' : Act β} {f : α → Act γ} {f' : β → Act δ} (ht : Task.Renames ρ g t t')
    (hf : ∀ a, Task.Renames ρ h (f a) (f' (g a))) : Task.Renames ρ h (t >>= f) (t' >>= f') :=
  InStep.bind ht fun a _ ha => ha ▸ hf a

/-- What is made of results that are the same. -/
theorem map {t t' : Act α} (ht : Task.Renames ρ id t t') (g : α → β) : Task.Renames ρ g t (g <$> t') := by
  have hmade : Task.Renames ρ g (t >>= Pure.pure) (t' >>= fun a => Pure.pure (g a)) := ht.bind fun a => .pure a
  rwa [bind_pure, ← map_eq_pure_bind] at hmade

theorem rescue {t : Act α} {t' : Act β} {f : Fault → Act α} {f' : Fault → Act β} (ht : Task.Renames ρ g t t')
    (hf : ∀ e, Task.Renames ρ g (f e) (f' e)) : Task.Renames ρ g (tryCatch t f) (tryCatch t' f') :=
  fun s s' hs => (ht s s' hs).handle hf

theorem ofExcept (r : Except Fault α) : Task.Renames ρ g (Task.ofExcept r) (Task.ofExcept (r.map g)) := by
  cases r with
  | ok a => exact .pure a
  | error e => exact .throw e

/-- A result that refers to nothing. -/
theorem result (r : Except Fault α) : Task.Renames ρ id (Task.ofExcept r) (Task.ofExcept r) := by
  cases r with
  | ok a => exact .pure a
  | error e => exact .throw e

/-- A change of the machine at once. -/
theorem modifyGet {f : Machine → α × Machine} {f' : Machine → β × Machine}
    (hf : ∀ s s', s.Renamed ρ s' → (f s).2.Renamed ρ (f' s').2 ∧ (f' s').1 = g (f s).1) :
    Task.Renames ρ g (modifyGet f) (modifyGet f') :=
  fun s s' hs => .done (hf s s' hs).1 (hf s s' hs).2

theorem modify {f f' : Machine → Machine} (hf : ∀ s s', s.Renamed ρ s' → (f s).Renamed ρ (f' s')) :
    Task.Renames ρ id (modify f : Act Unit) (modify f') := fun s s' hs => .done (hf s s' hs) rfl

/-- Going on with what is found. -/
theorem reading {k : Machine → Act α} {k' : Machine → Act β}
    (hk : ∀ s s', s.Renamed ρ s' → Task.Renames ρ g (k s) (k' s')) : Task.Renames ρ g (get >>= k) (get >>= k') :=
  fun s s' hs => hk s s' hs s s' hs

theorem pause (n : Nat) : Task.Renames ρ id (Task.pause n) (Task.pause n) := by
  induction n with
  | zero => exact .pure ()
  | succ n ih => exact fun s s' hs => .paused hs ih

/-- Results of tasks in step, taken together. -/
theorem ofForall₂ {t : Act (List α)} {t' : Act (List β)}
    (ht : t.InStep False (Machine.Renamed ρ) (List.Forall₂ fun a b => b = g a) t') :
    Task.Renames ρ (List.map g) t t' := by
  refine fun s s' hs => (ht s s' hs).mono fun as bs has => ?_
  induction has with
  | nil => rfl
  | cons ha _ ih => rw [List.map_cons, ha, ih]

theorem sequence {ts : List (Act α)} {us : List (Act β)} (hts : List.Forall₂ (Task.Renames ρ g) ts us) :
    Task.Renames ρ (List.map g) (Task.sequence ts) (Task.sequence us) := ofForall₂ (sequence_inStep hts)

theorem gather {ts : List (Act α)} {us : List (Act β)} (hts : List.Forall₂ (Task.Renames ρ g) ts us) :
    Task.Renames ρ (List.map g) (Task.gather ts) (Task.gather us) := ofForall₂ (gather_inStep hts)

end Task.Renames

/-! ## What changes the machine -/

namespace Act

theorem alloc_renames (items : Array Value) :
    Task.Renames ρ (Value.rename ρ) (alloc items) (alloc (items.map (Value.rename ρ))) := by
  refine .modifyGet fun s s' hs => ⟨{ hs with heap := ?_ }, ?_⟩
  · rw [hs.heap, Heap.alloc_rename]
  · rw [hs.heap, Heap.next_rename]
    rfl

theorem bindMethod_renames (b : Bound) : Task.Renames ρ (Value.rename ρ) (bindMethod b) (bindMethod b) := by
  refine .modifyGet fun s s' hs => ⟨{ hs with natives := fun n => ?_ }, ?_⟩
  · have hnext := hs.natives (n + 1)
    rw [Nat.add_comm n 1, ← Nat.add_assoc, ← Nat.add_assoc] at hnext
    exact hnext
  · have hnew : ρ s.natives = s'.natives := hs.natives 0
    rw [Value.rename, Fn.rename, hnew]

theorem makeFunction_renames (body : List Expr) :
    Task.Renames ρ (Value.rename ρ) (makeFunction body) (makeFunction body) := by
  refine .modifyGet fun s s' hs => ⟨{ hs with bodies := ?_ }, ?_⟩
  · rw [hs.bodies]
  · rw [hs.bodies]
    rfl

/-- What is reported does not matter. -/
theorem emit_renames (e e' : Event) : Task.Renames ρ id (emit e) (emit e') :=
  .modify fun _ _ hs => { hs with }

theorem countCall_renames : Task.Renames ρ id countCall countCall := by
  refine .modify fun s s' hs => { hs with calls := ?_ }
  rw [hs.calls]

theorem contents_renames (c : Cell) :
    Task.Renames ρ (Array.map (Value.rename ρ)) (contents c) (contents c) := by
  refine .reading fun s s' hs => ?_
  rw [hs.heap, Heap.contents_rename]
  exact .pure _

theorem write_renames (c : Cell) (items : Array Value) :
    Task.Renames ρ id (write c items) (write c (items.map (Value.rename ρ))) := by
  refine .modify fun s s' hs => { hs with heap := ?_ }
  rw [hs.heap, Heap.write_rename]

end Act

end ScriptValues
