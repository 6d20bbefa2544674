/-
What `sort` does to its array. The function that compares may do anything, to this array too, and may fail
at any call; the sort works on the elements that it found and touches the array once, at its end and only if
every call has answered with a number (`sort_all_or_nothing`). Until then the machine is what the calls make
of it.
-/
import ScriptValues.Method.Call
import ScriptValues.Proofs.Method.Congruence
import ScriptValues.Proofs.Method.Refusal
import ScriptValues.Proofs.Sort.Dialogue
import ScriptValues.Proofs.Task.Exchange

open ScriptValues.Task ScriptValues.Sort

namespace ScriptValues

/-- The number is above zero: neither of the two zeros is, nor is NaN. -/
def Num.isPositive (x : Num) : Bool := !x.isNaN && decide (0 < x.scaled)

theorem Num.zero_lt (x : Num) : Num.lt (.zero false) x = x.isPositive := by
  have hnumber : (zero false).isNaN = false := by decide
  have hzero : (zero false).scaled = 0 := by decide
  simp [lt, isPositive, hnumber, hzero]

namespace Callback

/-- The answer of a function that compares two elements, which must be a number. -/
def order (host : Host) (f : Fn) (a b : Value) : Act Num := do
  let answer ← callBack host .sort f [a, b]
  Task.ofExcept (Argument.result .num .sort answer)

/-- What an answer says of the two elements: the left one goes first unless the number is above zero. -/
def verdict (answer : Value × Value × Num) : Value × Value × Bool :=
  (answer.1, answer.2.1, !answer.2.2.isPositive)

/-- What `sort` does after its calls: it writes the array, and reports. -/
def answerSorted (c : Cell) (count : Nat) (result : List Value × Nat) : Act Value := fun s =>
  .done { s with
    heap := s.heap.write c result.1.toArray
    events := s.events.push (.sorted count result.2) } (.arr c)

theorem sort_eq_of_fn (host : Host) (c : Cell) (f : Fn) (rest : List Value) (s : Machine) :
    sort host c (.fn f :: rest) s =
      ((mergeSort (precedes host f) (s.heap.contents c).toList).run 0 s).bind
        (answerSorted c (s.heap.contents c).size) := rfl

theorem run_precedes (host : Host) (f : Fn) (a b : Value) (n : Nat) :
    (precedes host f a b).run n =
      (do let x ← order host f a b
          pure (!x.isPositive, n + 1)) := by
  simp only [precedes_run, order, bind_assoc, Num.zero_lt]

theorem run_perform_ask (host : Host) (f : Fn) {β : Type} (a b : Value)
    (next : Bool → Inquiry Value β) (n : Nat) (s : Machine) :
    ((Inquiry.ask a b next).perform (precedes host f)).run n s =
      (order host f a b s).bind fun x => ((next (!x.isPositive)).perform (precedes host f)).run (n + 1) := by
  rw [Inquiry.perform, StateT.run_bind, run_precedes, bind_assoc]
  simp only [pure_bind]
  rfl

/-- The questions of a sort are put to the function one after the other, and nothing else is done. -/
theorem perform_precedes (host : Host) (f : Fn) {β : Type} (t : Inquiry Value β) (n : Nat) (s : Machine)
    (given : List Machine) :
    ∃ answers s' left, Exchange (order host f) s given answers s' left ∧
      match ((t.perform (precedes host f)).run n s).after given with
      | .done s'' p => s'' = s' ∧ t.Leads (answers.map verdict) p.1 ∧ p.2 = n + answers.length
      | .failed s'' e => ∃ a b, (order host f a b s').after left = .failed s'' e
      | .paused s'' _ => ∃ a b rest, (order host f a b s').after left = .paused s'' rest
      | .exhausted => ∃ a b, (order host f a b s').after left = .exhausted := by
  induction t generalizing n s given with
  | result b =>
    refine ⟨[], s, given, .nil, ?_⟩
    have hdone : (((Inquiry.result b).perform (precedes host f)).run n s).after given = .done s (b, n) :=
      Turn.after_done ..
    rw [hdone]
    exact ⟨rfl, .result b, rfl⟩
  | ask a b next ih =>
    rw [run_perform_ask, Turn.after_bind_eq]
    cases hcall : (order host f a b s).after given with
    | done s₁ x =>
      obtain ⟨answers, s', left, hexchange, hend⟩ := ih (!x.isPositive) (n + 1) s₁
        ((order host f a b s).unused given)
      refine ⟨(a, b, x) :: answers, s', left, .cons hcall hexchange, ?_⟩
      dsimp only
      generalize (((next (!x.isPositive)).perform (precedes host f)).run (n + 1) s₁).after
        ((order host f a b s).unused given) = u at hend ⊢
      cases u with
      | done s'' p =>
        obtain ⟨rfl, hleads, hcount⟩ := hend
        exact ⟨rfl, .ask hleads, by rw [hcount, List.length_cons]; omega⟩
      | failed s'' e => exact hend
      | paused s'' rest => exact hend
      | exhausted => exact hend
    | failed s₁ e => exact ⟨[], s, given, .nil, a, b, hcall⟩
    | paused s₁ rest => exact ⟨[], s, given, .nil, a, b, rest, hcall⟩
    | exhausted => exact ⟨[], s, given, .nil, a, b, hcall⟩

/-! ## A call and its answer -/

/-- How a call stands, seen from the answer it must give. -/
theorem order_after (host : Host) (f : Fn) (a b : Value) (s : Machine) (given : List Machine) :
    match (order host f a b s).after given with
    | .done s' x => (callBack host .sort f [a, b] s).after given = .done s' (.num x)
    | .failed s' e => (callBack host .sort f [a, b] s).after given = .failed s' e ∨
        ∃ v, v.kind ≠ .num ∧ (callBack host .sort f [a, b] s).after given = .done s' v ∧
          e = .argumentType (.result .sort) (.kind .num) (some v.kind)
    | .paused s' _ => ∃ rest, (callBack host .sort f [a, b] s).after given = .paused s' rest
    | .exhausted => (callBack host .sort f [a, b] s).after given = .exhausted := by
  have hturn : order host f a b s = (callBack host .sort f [a, b] s).bind fun v =>
      Task.ofExcept (Argument.result .num .sort v) := rfl
  rw [hturn, Turn.after_bind_eq]
  cases hcall : (callBack host .sort f [a, b] s).after given with
  | done s' v =>
    by_cases hkind : v.kind = .num
    · obtain ⟨x, rfl⟩ := Value.eq_num_of_kind hkind
      have hnumber : (Task.ofExcept (Argument.result .num .sort (.num x)) : Act Num) s' = .done s' x := rfl
      dsimp only
      rw [hnumber, Turn.after_done]
    · have hrefused : Reader.num.expected.admits v = false := beq_false_of_ne hkind
      have hfailed : (Task.ofExcept (Argument.result .num .sort v) : Act Num) s' =
          .failed s' (.argumentType (.result .sort) (.kind .num) (some v.kind)) := by
        rw [Argument.result_eq_error hrefused]
        rfl
      dsimp only
      rw [hfailed, Turn.after_failed]
      exact .inr ⟨v, hkind, rfl, rfl⟩
  | failed s' e => exact .inl rfl
  | paused s' rest => exact ⟨rest, rfl⟩
  | exhausted => rfl

/-- **`sort` is all or nothing.** Let it run from a machine `s`, and go on after its pauses from any machines
`given`; the function that compares may do anything meanwhile, to this array too. It is called for two
elements at a time, each call going on from the machine that the one before has left, and up to the end
nothing else changes the machine.

If all calls answer with numbers the sort is done: the answers put the elements that `s` holds in an order,
left before right unless the number is above zero; the array is written with them once, last of all, and is
the result. If a call fails, or answers with something else, the sort fails, and the machine is as that call
has left it. -/
theorem sort_all_or_nothing (host : Host) (c : Cell) (f : Fn) (rest : List Value) (s : Machine)
    (given : List Machine) :
    let items := (s.heap.contents c).toList
    ∃ answers s' left, Exchange (order host f) s given answers s' left ∧
      match ((Bound.callback c .sort).call host (.fn f :: rest) s).after given with
      | .done s'' v => v = .arr c ∧ ∃ sorted,
          (mergeSort Inquiry.question items).Leads (answers.map verdict) sorted ∧ sorted.Perm items ∧
          s'' = { s' with
            heap := s'.heap.write c sorted.toArray
            events := s'.events.push (.sorted items.length answers.length) } ∧
          (s'.heap.Has c → s''.heap.contents c = sorted.toArray)
      | .failed s'' e => ∃ a b, (callBack host .sort f [a, b] s').after left = .failed s'' e ∨
          ∃ v, v.kind ≠ .num ∧ (callBack host .sort f [a, b] s').after left = .done s'' v ∧
            e = .argumentType (.result .sort) (.kind .num) (some v.kind)
      | .paused s'' _ => ∃ a b rest, (callBack host .sort f [a, b] s').after left = .paused s'' rest
      | .exhausted => ∃ a b, (callBack host .sort f [a, b] s').after left = .exhausted := by
  intro items
  obtain ⟨answers, s', left, hexchange, hend⟩ :=
    perform_precedes host f (mergeSort Inquiry.question items) 0 s given
  refine ⟨answers, s', left, hexchange, ?_⟩
  have hafter : ((Bound.callback c .sort).call host (.fn f :: rest) s).after given =
      ((((mergeSort Inquiry.question items).perform (precedes host f)).run 0 s).after given).bind
        (answerSorted c items.length) := by
    have hbind := Turn.after_bind (f := answerSorted c items.length) (fun _ _ _ => Turn.after_done ..)
      ((mergeSort (precedes host f) items).run 0 s) given
    rw [← mergeSort_eq_perform, ← hbind]
    exact congrArg (Turn.after · given) (sort_eq_of_fn host c f rest s)
  rw [hafter]
  generalize (((mergeSort Inquiry.question items).perform (precedes host f)).run 0 s).after given = u at hend
  cases u with
  | done s'' p =>
    obtain ⟨rfl, hleads, hcount⟩ := hend
    rw [Nat.zero_add] at hcount
    refine ⟨rfl, p.1, hleads, hleads.perm_of_mergeSort, ?_, Heap.contents_write_self⟩
    rw [← hcount]
  | failed s'' e =>
    obtain ⟨a, b, hcall⟩ := hend
    exact ⟨a, b, by simpa only [hcall] using order_after host f a b s' left⟩
  | paused s'' rest =>
    obtain ⟨a, b, rest, hcall⟩ := hend
    exact ⟨a, b, by simpa only [hcall] using order_after host f a b s' left⟩
  | exhausted =>
    obtain ⟨a, b, hcall⟩ := hend
    exact ⟨a, b, by simpa only [hcall] using order_after host f a b s' left⟩

end Callback

end ScriptValues
