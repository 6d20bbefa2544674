/-
Relations between tasks of the machine that everything built from related tasks keeps (`Congruence`). Such
a relation holds of each change of the machine's core, that is of all but the record of its suspensions and
events, and itself, if the change leaves the arrays that exist as they are; going on, failing and being
rescued keep it. A `WritingCongruence` holds of writes to arrays as well, and a `PlainCongruence` need not hold
of counting a call nor of reporting what methods do, which are left to whoever compares calls and methods.

To compare two runs it is enough to name the relation, to show that it is a congruence, and to relate the
places where the runs differ: methods and expressions keep it.
-/
import ScriptValues.Method.Arr
import ScriptValues.Proofs.Task.Follows
import ScriptValues.Property

namespace ScriptValues

/-- A machine without the record of its suspensions and events. -/
structure Core where
  heap : Heap
  bodies : Array (List Expr)
  natives : Nat
  globals : List (String × Value)
  calls : Nat
  log : Array View

namespace Machine

def core (s : Machine) : Core := ⟨s.heap, s.bodies, s.natives, s.globals, s.calls, s.log⟩

/-- The machine with another core. -/
def withCore (s : Machine) (k : Core) : Machine :=
  ⟨k.heap, k.bodies, k.natives, k.globals, k.calls, s.suspensions, k.log, s.events⟩

end Machine

/-! ## Arrays left as they are -/

namespace Heap

/-- The array, if it exists, is there still, with the same contents. -/
def SameAt (c : Cell) (h h' : Heap) : Prop := h.Has c → h'.Has c ∧ h'.contents c = h.contents c

/-- All arrays that exist are there still, with the same contents. -/
def Spares (h h' : Heap) : Prop := ∀ c, h.SameAt c h'

theorem SameAt.refl (c : Cell) (h : Heap) : h.SameAt c h := fun hc => ⟨hc, rfl⟩

theorem SameAt.trans {c : Cell} {h h₁ h₂ : Heap} (h01 : h.SameAt c h₁) (h12 : h₁.SameAt c h₂) :
    h.SameAt c h₂ := by
  intro hc
  obtain ⟨hhas, hcontents⟩ := h01 hc
  obtain ⟨hhas', hcontents'⟩ := h12 hhas
  exact ⟨hhas', hcontents'.trans hcontents⟩

theorem Spares.refl (h : Heap) : h.Spares h := fun c => .refl c h

theorem has_alloc {h : Heap} {c : Cell} (hc : h.Has c) (items : Array Value) : (h.alloc items).Has c := by
  rw [Has, alloc, Array.size_push]
  exact Nat.lt_succ_of_lt hc

theorem spares_alloc (h : Heap) (items : Array Value) : h.Spares (h.alloc items) :=
  fun _ hc => ⟨has_alloc hc items, contents_alloc_other hc⟩

theorem has_write {h : Heap} {d : Cell} (hd : h.Has d) (c : Cell) (items : Array Value) :
    (h.write c items).Has d := by
  rw [Has, write, Array.size_setIfInBounds]
  exact hd

theorem sameAt_write_of_ne {c d : Cell} (hd : d ≠ c) (h : Heap) (items : Array Value) :
    h.SameAt d (h.write c items) :=
  fun hhas => ⟨has_write hhas c items, contents_write_other hd⟩

end Heap

/-! ## Congruences -/

/-- A change of the core. -/
def Act.onCore {α : Type} (f : Core → α × Core) : Act α := fun s =>
  .done (s.withCore (f s.core).2) (f s.core).1

/-- The change neither looks at the count of calls nor changes it. -/
def Uncounting {α : Type} (f : Core → α × Core) : Prop :=
  ∀ (k : Core) (n : Nat), f { k with calls := n } = ((f k).1, { (f k).2 with calls := n })

/-- A relation between tasks that tasks built from related tasks keep, as far as they neither call functions nor
write arrays. -/
structure PlainCongruence (rel : ∀ {α : Type}, Act α → Act α → Prop) : Prop where
  onCore : ∀ {α : Type} (f : Core → α × Core), (∀ k : Core, k.heap.Spares (f k).2.heap) → Uncounting f →
    rel (Act.onCore f) (Act.onCore f)
  resolved : ∀ kind name, rel (Act.emit (.resolve kind name)) (Act.emit (.resolve kind name))
  throw : ∀ {α : Type} (e : Fault), rel (throw e : Act α) (throw e)
  exhausted : ∀ {α : Type}, rel (Task.exhausted : Act α) Task.exhausted
  bind : ∀ {α β : Type} {t t' : Act α} {f f' : α → Act β},
    rel t t' → (∀ a, rel (f a) (f' a)) → rel (t >>= f) (t' >>= f')
  rescue : ∀ {α : Type} {t t' : Act α} {f f' : Fault → Act α},
    rel t t' → (∀ e, rel (f e) (f' e)) → rel (tryCatch t f) (tryCatch t' f')

/-- A relation between tasks that tasks built from related tasks keep, writes apart. -/
structure Congruence (rel : ∀ {α : Type}, Act α → Act α → Prop) : Prop extends PlainCongruence @rel where
  countCall : rel Act.countCall Act.countCall
  emit : ∀ e, rel (Act.emit e) (Act.emit e)

/-- A congruence that writes keep as well. -/
structure WritingCongruence (rel : ∀ {α : Type}, Act α → Act α → Prop) : Prop extends Congruence @rel where
  write : ∀ c items, rel (Act.write c items) (Act.write c items)

variable {rel : ∀ {α : Type}, Act α → Act α → Prop} {α β : Type}

namespace PlainCongruence

/-- A change of the core that is none of the heap. -/
theorem besideHeap (hrel : PlainCongruence @rel) (f : Core → α × Core) (h : ∀ k : Core, (f k).2.heap = k.heap)
    (hf : Uncounting f) : rel (Act.onCore f) (Act.onCore f) :=
  hrel.onCore f (fun k => (h k).symm ▸ Heap.Spares.refl k.heap) hf

theorem pure (hrel : PlainCongruence @rel) (a : α) : rel (pure a : Act α) (pure a) :=
  hrel.besideHeap (fun k => (a, k)) (fun _ => rfl) fun _ _ => rfl

theorem ofExcept (hrel : PlainCongruence @rel) (r : Except Fault α) :
    rel (Task.ofExcept r : Act α) (Task.ofExcept r) := by
  cases r with
  | ok a => exact hrel.pure a
  | error e => exact hrel.throw e

/-- Going on with what is read from the core, the count of calls apart. -/
theorem reading (hrel : PlainCongruence @rel) (g : Core → β) (hg : ∀ k n, g { k with calls := n } = g k)
    {f f' : β → Act α} (h : ∀ b, rel (f b) (f' b)) :
    rel (get >>= fun s => f (g s.core)) (get >>= fun s => f' (g s.core)) := by
  have hread : Uncounting fun k => (g k, k) := fun k n => Prod.ext (hg k n) rfl
  exact hrel.bind (t := Act.onCore fun k => (g k, k)) (hrel.besideHeap _ (fun _ => rfl) hread) h

theorem sequence (hrel : PlainCongruence @rel) {ts us : List (Act α)} (h : List.Forall₂ rel ts us) :
    rel (Task.sequence ts) (Task.sequence us) := by
  induction h with
  | nil => exact hrel.pure _
  | cons ht _ ih => exact hrel.bind ht fun a => hrel.bind ih fun as => hrel.pure _

/-! ## What changes the core -/

theorem alloc (hrel : PlainCongruence @rel) (items : Array Value) : rel (Act.alloc items) (Act.alloc items) :=
  hrel.onCore (fun k => (Value.arr k.heap.next, { k with heap := k.heap.alloc items }))
    (fun k => k.heap.spares_alloc items) fun _ _ => rfl

theorem bindMethod (hrel : PlainCongruence @rel) (b : Bound) : rel (Act.bindMethod b) (Act.bindMethod b) :=
  hrel.besideHeap (fun k => (Value.fn (.native k.natives b), { k with natives := k.natives + 1 }))
    (fun _ => rfl) fun _ _ => rfl

theorem makeFunction (hrel : PlainCongruence @rel) (body : List Expr) :
    rel (Act.makeFunction body) (Act.makeFunction body) :=
  hrel.besideHeap
    (fun k => (Value.fn (.script (k.bodies.size + 1)), { k with bodies := k.bodies.push body }))
    (fun _ => rfl) fun _ _ => rfl

theorem contents (hrel : PlainCongruence @rel) (c : Cell) : rel (Act.contents c) (Act.contents c) :=
  hrel.besideHeap (fun k => (k.heap.contents c, k)) (fun _ => rfl) fun _ _ => rfl

theorem commit (hrel : PlainCongruence @rel) (a : Answer) : rel a.commit a.commit := by
  cases a with
  | value v => exact hrel.pure v
  | fresh items => exact hrel.alloc _

/-! ## Properties -/

theorem readProperty (hrel : PlainCongruence @rel) {τ : Type} (kind : Kind) (table : Property.Table τ)
    (target : τ) (name : String) :
    rel (Property.read kind table target name) (Property.read kind table target name) := by
  unfold Property.read
  split
  · exact hrel.throw _
  · next read _ => exact hrel.besideHeap (fun k => (read k.heap target, k)) (fun _ => rfl) fun _ _ => rfl
  · exact hrel.bindMethod _

theorem resolve (hrel : PlainCongruence @rel) (v : Value) (name : String) :
    rel (resolve v name) (ScriptValues.resolve v name) := by
  refine hrel.bind (hrel.resolved _ _) fun _ => ?_
  cases v with
  | num n => exact hrel.readProperty ..
  | str s => exact hrel.readProperty ..
  | arr c => exact hrel.readProperty ..
  | error e => exact hrel.readProperty ..
  | errorWith e info => exact hrel.readProperty ..
  | null => exact hrel.throw _
  | bool b => exact hrel.throw _
  | fn f => exact hrel.throw _

theorem commitReply (hrel : PlainCongruence @rel)
    (hwrite : ∀ c items, rel (Act.write c items) (Act.write c items)) (c : Cell) (r : Reply) :
    rel (r.commit c) (r.commit c) := by
  obtain ⟨items, answer⟩ := r
  cases items with
  | none => exact hrel.bind (hrel.pure ()) fun _ => hrel.commit answer
  | some items => exact hrel.bind (hwrite c items) fun _ => hrel.commit answer

end PlainCongruence

/-! ## Tasks in step -/

/-- Machines that are the same have the same core, and stay the same when it is changed and when an event
is recorded. -/
structure Machine.Likeness (same : Machine → Machine → Prop) : Prop where
  core : ∀ {s s'}, same s s' → s.core = s'.core
  withCore : ∀ {s s'} (k : Core), same s s' → same (s.withCore k) (s'.withCore k)
  emit : ∀ {s s'} (e : Event), same s s' →
    same { s with events := s.events.push e } { s' with events := s'.events.push e }

theorem Machine.Likeness.eq : Machine.Likeness Eq where
  core hs := congrArg Machine.core hs
  withCore k hs := congrArg (Machine.withCore · k) hs
  emit e hs := by rw [hs]

variable {cut : Prop} {same : Machine → Machine → Prop}

theorem Machine.Likeness.onCore_follows (h : Machine.Likeness same) (f : Core → α × Core) :
    Task.Follows cut same (Act.onCore f) (Act.onCore f) := by
  intro s s' hs
  rw [Act.onCore, Act.onCore, h.core hs]
  exact .done (h.withCore _ hs)

theorem Machine.Likeness.congruence (h : Machine.Likeness same) :
    WritingCongruence fun {α} (t t' : Act α) => t.Follows cut same t' where
  onCore f _ _ := h.onCore_follows f
  write c items := h.onCore_follows fun k => ((), { k with heap := k.heap.write c items })
  countCall := h.onCore_follows fun k => ((), { k with calls := k.calls + 1 })
  resolved kind name := fun _ _ hs => .done (h.emit (.resolve kind name) hs)
  emit e := fun _ _ hs => .done (h.emit e hs)
  throw _ := fun _ _ hs => .failed hs
  exhausted := fun _ _ _ => .exhausted
  bind ht hf := fun s s' hs => (ht s s' hs).bind hf
  rescue ht hf := fun s s' hs => (ht s s' hs).handle hf

end ScriptValues
