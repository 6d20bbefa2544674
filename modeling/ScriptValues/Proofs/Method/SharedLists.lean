/-
Arrays as shared lists. What the methods that grow, shrink, turn and copy arrays do is told by one pure list for each
cell (`ListCall.perform`): a call changes the list of its target or adds a list, and it answers from the lists alone. It
does not matter through which value a cell is reached, whether arrays hold themselves, or whether an array is joined to
itself. The machine keeps to the lists in every sequence of calls (`calls_refine_lists`).
-/
import ScriptValues.Proofs.Method.Writes
import ScriptValues.Script.Eval

namespace ScriptValues

/-! ## Lists -/

/-- The lists that are shared, by the numbers of their cells. -/
structure Lists where
  cells : List (List Value)

namespace Lists

/-- The list of a cell; a cell that does not exist has no elements. -/
def of (lists : Lists) (c : Cell) : List Value := lists.cells.getD c.id []

/-- The lists with another one in a cell, if it exists. -/
def put (lists : Lists) (c : Cell) (l : List Value) : Lists := ⟨lists.cells.set c.id l⟩

/-- The lists and one more, in a new cell. -/
def add (lists : Lists) (l : List Value) : Lists := ⟨lists.cells ++ [l]⟩

/-- The cell that the next list gets. -/
def next (lists : Lists) : Cell := ⟨lists.cells.length⟩

end Lists

/-- The contents of the cells as lists. -/
def Heap.lists (h : Heap) : Lists := ⟨h.cells.toList.map Array.toList⟩

namespace Heap

theorem lists_of (h : Heap) (c : Cell) : h.lists.of c = (h.contents c).toList := by
  simp only [Lists.of, lists, contents, List.getD_eq_getElem?_getD, List.getElem?_map, Array.getElem?_toList,
    Array.getD_eq_getD_getElem?]
  cases h.cells[c.id]? <;> rfl

theorem lists_write (h : Heap) (c : Cell) (items : Array Value) :
    (h.write c items).lists = h.lists.put c items.toList := by
  simp only [lists, write, Lists.put, Array.toList_setIfInBounds, List.map_set]

theorem lists_alloc (h : Heap) (items : Array Value) : (h.alloc items).lists = h.lists.add items.toList := by
  simp only [lists, alloc, Lists.add, Array.toList_push, List.map_append, List.map_cons, List.map_nil]

theorem lists_next (h : Heap) : h.lists.next = h.next := by
  simp only [Lists.next, lists, next, List.length_map, Array.length_toList]

end Heap

/-- The operations on a shared list. -/
inductive ListMethod
  | push | unshift | pop | shift | reverse | len | copy | concat
deriving DecidableEq, Inhabited

/-- An operation on the list of a cell, with arguments. -/
structure ListCall where
  target : Cell
  method : ListMethod
  args : List Value

namespace ListCall

/-- What an operation does to the lists and what it answers. -/
def perform (call : ListCall) (lists : Lists) : Lists × Except Fault Value :=
  let c := call.target
  let l := lists.of c
  match call.method, call.args with
  | .push, v :: _ => (lists.put c (l ++ [v]), .ok (.arr c))
  | .push, [] => (lists, .error (Argument.mismatch [] 0 .anything))
  | .unshift, v :: _ => (lists.put c (v :: l), .ok (.arr c))
  | .unshift, [] => (lists, .error (Argument.mismatch [] 0 .anything))
  | .pop, _ => (lists.put c l.dropLast, .ok (l.getLast?.getD .null))
  | .shift, _ => (lists.put c l.tail, .ok (l.head?.getD .null))
  | .reverse, _ => (lists.put c l.reverse, .ok .null)
  | .len, _ => (lists, .ok (.ofNat l.length))
  | .copy, _ => (lists.add l, .ok (.arr lists.next))
  | .concat, .arr d :: _ => (lists.add (l ++ lists.of d), .ok (.arr lists.next))
  | .concat, args => (lists, .error (Argument.mismatch args 0 (.kind .arr)))

/-- What operations do to the lists, one after the other, and all that they answer. -/
def performAll : List ListCall → Lists → Lists × List (Except Fault Value)
  | [], lists => (lists, [])
  | call :: calls, lists =>
    let (lists, answer) := call.perform lists
    let (lists, answers) := performAll calls lists
    (lists, answer :: answers)

/-- The property that is called; the length is read. -/
def property : ListMethod → String
  | .push => "push"
  | .unshift => "unshift"
  | .pop => "pop"
  | .shift => "shift"
  | .reverse => "reverse"
  | .len => "len"
  | .copy => "copy"
  | .concat => "concat"

/-- The operation on a machine: the property is looked up and, unless it is the length, called. -/
def act (host : Host) (call : ListCall) : Act Value := do
  let v ← resolve (.arr call.target) (property call.method)
  if call.method = .len then pure v
  else Script.callValue host v call.args (property call.method)

end ListCall

/-- The result of a task, also if it has failed. -/
def Task.attempt {α : Type} (t : Act α) : Act (Except Fault α) :=
  tryCatch (Except.ok <$> t) fun e => pure (.error e)

/-! ## One call -/

/-- What a reply does to the heap, and its value. -/
def Reply.run (r : Reply) (c : Cell) (h : Heap) : Heap × Value :=
  let h := r.items.elim h (h.write c)
  match r.answer with
  | .value v => (h, v)
  | .fresh items => (h.alloc items.toArray, .arr h.next)

theorem Reply.commit_eq (r : Reply) (c : Cell) (s : Machine) :
    r.commit c s = .done { s with heap := (r.run c s.heap).1 } (r.run c s.heap).2 := by
  obtain ⟨items, answer⟩ := r
  cases items <;> cases answer <;> rfl

namespace ListCall

/-- The method of arrays that carries out the operation. -/
def method? : ListMethod → Option ArrMethod
  | .push => some .push
  | .unshift => some .unshift
  | .pop => some .pop
  | .shift => some .shift
  | .reverse => some .reverse
  | .len => none
  | .copy => some .copy
  | .concat => some .concat

theorem method?_eq_none_iff {m : ListMethod} : method? m = none ↔ m = .len := by cases m <;> simp [method?]

theorem lookup_property {m : ListMethod} {b : ArrMethod} (hb : method? m = some b) :
    Property.arr.lookup (property m) = some (.method (Bound.arr · b)) := by
  cases m <;> cases hb <;> rfl

/-- The lists after a reply and what the call answers. -/
def outcome (h : Heap) (c : Cell) : Except Fault Reply → Lists × Except Fault Value
  | .error e => (h.lists, .error e)
  | .ok r => ((r.run c h).1.lists, .ok (r.run c h).2)

/-- The replies of the methods do to the heap what the operations do to the lists. -/
theorem perform_eq_outcome (call : ListCall) {b : ArrMethod} (hb : method? call.method = some b) (h : Heap) :
    call.perform h.lists = outcome h call.target (b.reply h call.target call.args) := by
  obtain ⟨c, m, args⟩ := call
  cases m with
  | push =>
    cases hb
    cases args with
    | nil => rfl
    | cons v args =>
      change (h.lists.put c (h.lists.of c ++ [v]), Except.ok (Value.arr c)) = _
      rw [h.lists_of, ← Array.toList_push, ← h.lists_write]
      rfl
  | unshift =>
    cases hb
    cases args with
    | nil => rfl
    | cons v args =>
      have hunshift : v :: (h.contents c).toList = (#[v] ++ h.contents c).toList := by rw [Array.toList_append]; rfl
      change (h.lists.put c (v :: h.lists.of c), Except.ok (Value.arr c)) = _
      rw [h.lists_of, hunshift, ← h.lists_write]
      rfl
  | pop =>
    cases hb
    change (h.lists.put c (h.lists.of c).dropLast, Except.ok ((h.lists.of c).getLast?.getD .null)) = _
    rw [h.lists_of, ← Array.toList_pop, ← h.lists_write, Array.getLast?_toList]
    rfl
  | shift =>
    cases hb
    have htail : (h.contents c).toList.tail = ((h.contents c).extract 1).toList := by
      rw [Array.toList_extract, List.extract_eq_take_drop, List.drop_one, List.take_of_length_le]
      rw [List.length_tail, Array.length_toList]
    change (h.lists.put c (h.lists.of c).tail, Except.ok ((h.lists.of c).head?.getD .null)) = _
    rw [h.lists_of, htail, ← h.lists_write, List.head?_eq_getElem?, Array.getElem?_toList]
    rfl
  | reverse =>
    cases hb
    change (h.lists.put c (h.lists.of c).reverse, Except.ok Value.null) = _
    rw [h.lists_of, ← Array.toList_reverse, ← h.lists_write]
    rfl
  | len => cases hb
  | copy =>
    cases hb
    change (h.lists.add (h.lists.of c), Except.ok (Value.arr h.lists.next)) = _
    rw [h.lists_of, h.lists_next]
    exact Prod.ext (h.lists_alloc (h.contents c).toList.toArray).symm rfl
  | concat =>
    cases hb
    cases args with
    | nil => rfl
    | cons v args =>
      cases v with
      | arr d =>
        change (h.lists.add (h.lists.of c ++ h.lists.of d), Except.ok (Value.arr h.lists.next)) = _
        rw [h.lists_of, h.lists_of, h.lists_next]
        exact Prod.ext (h.lists_alloc ((h.contents c).toList ++ (h.contents d).toList).toArray).symm rfl
      | null | bool | num | str | fn | error | errorWith => rfl

/-- How functions are called in a script. -/
def scriptHost (setting : Setting) (depth : Nat) : Host :=
  ⟨Script.invoke setting (depth + 1), setting.config, setting.limit⟩

/-- A call of a method of the array, the method having been looked up and the call counted. -/
theorem act_eq (call : ListCall) {b : ArrMethod} (hb : method? call.method = some b) (setting : Setting) (depth : Nat)
    (s : Machine) :
    call.act (scriptHost setting depth) s =
      (Bound.arr call.target b).call ⟨Script.invoke setting depth, setting.config, setting.limit⟩ call.args
        { s with
          events := s.events.push (.resolve .arr (property call.method))
          natives := s.natives + 1
          calls := s.calls + 1 } := by
  have hlen : call.method ≠ .len := fun h => by
    rw [h] at hb
    cases hb
  have hresolve : resolve (.arr call.target) (property call.method) s =
      .done { s with events := s.events.push (.resolve .arr (property call.method)), natives := s.natives + 1 }
        (.fn (.native s.natives (.arr call.target b))) := by
    have hread : Property.read .arr Property.arr call.target (property call.method) =
        Act.bindMethod (Bound.arr call.target b) := by
      rw [Property.read, lookup_property hb]
    change Property.read .arr Property.arr call.target (property call.method) _ = _
    rw [hread]
    rfl
  change (resolve (.arr call.target) (property call.method) s).bind _ = _
  rw [hresolve, Turn.bind, if_neg hlen]
  rfl

/-- A call answers what the operation on the lists answers, and leaves the lists that it leaves. -/
theorem attempt_act_eq (call : ListCall) (setting : Setting) (depth : Nat) (s : Machine) :
    ∃ s', Task.attempt (call.act (scriptHost setting depth)) s = .done s' (call.perform s.heap.lists).2 ∧
      s'.heap.lists = (call.perform s.heap.lists).1 := by
  cases hb : method? call.method with
  | none =>
    obtain ⟨c, m, args⟩ := call
    cases method?_eq_none_iff.1 hb
    refine ⟨{ s with events := s.events.push (.resolve .arr "len") }, ?_, rfl⟩
    rw [perform, s.heap.lists_of, Array.length_toList]
    rfl
  | some b =>
    change ∃ s', ((call.act (scriptHost setting depth) s).bind _).handle _ = _ ∧ _
    rw [perform_eq_outcome call hb, act_eq call hb, Bound.arr_call_eq]
    dsimp only
    cases b.reply s.heap call.target call.args with
    | error e => exact ⟨_, rfl, rfl⟩
    | ok r =>
      dsimp only
      rw [Reply.commit_eq]
      exact ⟨_, rfl, rfl⟩

/-- Every other list is as it was. -/
theorem perform_other (call : ListCall) (lists : Lists) {d : Cell} (hd : d ≠ call.target) (hnext : d ≠ lists.next) :
    (call.perform lists).1.of d = lists.of d := by
  have hput (l : List Value) : (lists.put call.target l).of d = lists.of d := by
    have hid : call.target.id ≠ d.id := fun h => hd (congrArg Cell.mk h.symm)
    simp only [Lists.of, Lists.put, List.getD_eq_getElem?_getD, List.getElem?_set_ne hid]
  have hadd (l : List Value) : (lists.add l).of d = lists.of d := by
    have hid : d.id ≠ lists.cells.length := fun h => hnext (congrArg Cell.mk h)
    rcases Nat.lt_or_gt_of_ne hid with hlt | hgt
    · simp only [Lists.of, Lists.add, List.getD_eq_getElem?_getD, List.getElem?_append_left hlt]
    · have hout : (lists.cells ++ [l]).length ≤ d.id := by
        rw [List.length_append, List.length_singleton]
        exact hgt
      simp only [Lists.of, Lists.add, List.getD_eq_getElem?_getD, List.getElem?_eq_none hout,
        List.getElem?_eq_none (Nat.le_of_lt hgt)]
  unfold perform
  split <;> first | exact hput _ | exact hadd _ | rfl

/-! ## Sequences of calls -/

/-- The operations called one after the other, with what each returns, a failure too. -/
def callAll (host : Host) (calls : List ListCall) : Act (List (Except Fault Value)) :=
  Task.sequence (calls.map fun call => Task.attempt (call.act host))

theorem callAll_eq (setting : Setting) (depth : Nat) (calls : List ListCall) (s : Machine) :
    ∃ s', callAll (scriptHost setting depth) calls s = .done s' (performAll calls s.heap.lists).2 ∧
      s'.heap.lists = (performAll calls s.heap.lists).1 := by
  induction calls generalizing s with
  | nil => exact ⟨s, rfl, rfl⟩
  | cons call calls ih =>
    obtain ⟨s₁, hcall, hlists⟩ := call.attempt_act_eq setting depth s
    obtain ⟨s₂, hrest, hend⟩ := ih s₁
    rw [hlists] at hrest hend
    refine ⟨s₂, ?_, hend⟩
    change (Task.attempt (call.act (scriptHost setting depth)) s).bind _ = _
    rw [hcall, Turn.bind]
    change (callAll (scriptHost setting depth) calls s₁).bind _ = _
    rw [hrest]
    rfl

/-- **Arrays are shared lists.** Let operations be called one after the other, on any cells and with any arguments. Then
all that they return, and the contents of every cell in the end, are those of the lists that the operations were
performed on; and each operation leaves all lists alone but that of its target and the one it adds. -/
theorem calls_refine_lists :
    (∀ (setting : Setting) (depth : Nat) (calls : List ListCall) (s : Machine), ∃ s',
      callAll (scriptHost setting depth) calls s = .done s' (performAll calls s.heap.lists).2 ∧
      s'.heap.lists = (performAll calls s.heap.lists).1) ∧
    ∀ (call : ListCall) (lists : Lists) (d : Cell), d ≠ call.target → d ≠ lists.next →
      (call.perform lists).1.of d = lists.of d :=
  ⟨callAll_eq, fun call lists _ => call.perform_other lists⟩

/-- An array that holds itself and another, which holds it: what is pushed onto the first is not seen in the other. -/
theorem push_spares_other :
    let lists : Lists := ⟨[[.arr ⟨0⟩, .arr ⟨1⟩], [.arr ⟨0⟩]]⟩
    let call : ListCall := ⟨⟨0⟩, .push, [.arr ⟨1⟩]⟩
    (⟨1⟩ : Cell) ≠ call.target ∧ (⟨1⟩ : Cell) ≠ lists.next ∧ (call.perform lists).1.of ⟨1⟩ = lists.of ⟨1⟩ := by
  intro lists call
  have htarget : (⟨1⟩ : Cell) ≠ call.target := by decide
  have hnext : (⟨1⟩ : Cell) ≠ lists.next := by decide
  exact ⟨htarget, hnext, calls_refine_lists.2 call lists ⟨1⟩ htarget hnext⟩

end ListCall

end ScriptValues
