/-
Tasks that do nothing by themselves but call, one call at a time. `OneByOne` says so of a turn: either it ends,
in one of the ways given, or it is a call and what follows it, and then it goes on with every answer from where the
call has left the state, except that an answer may be refused, which ends it at once.

`OneByOne.account` is the run: the calls are an `Exchange`, and what the turn has got to is one of the ends given,
or what the last call makes of it. `OneByOne.bind` is for what follows such a turn.
-/
import ScriptValues.Proofs.Task.Exchange

namespace ScriptValues

variable {σ ε α β γ δ η : Type}

/-- A turn that calls `a` again and again, and has `answered` answers so far. An answer with a refusal is its end;
how else it ends, after how many answers and in which state, is what `ends` says. -/
inductive OneByOne (call : α → β → Task σ ε γ) (a : α) (refusal : γ → Option ε)
    (ends : (answered : Nat) → σ → Turn σ ε δ → Prop) : (answered : Nat) → σ → Turn σ ε δ → Prop
  | ended {answered s u} : ends answered s u → OneByOne call a refusal ends answered s u
  | call {answered s} (b : β) {next : γ → Task σ ε δ} :
      (∀ v e s', refusal v = some e → next v s' = .failed s' e) →
      (∀ v s', refusal v = none → OneByOne call a refusal ends (answered + 1) s' (next v s')) →
      OneByOne call a refusal ends answered s ((call a b s).bind next)

/-- What becomes of a turn by its last call: the call has answered and is refused, or all hangs on the call. -/
inductive Turn.Stops (refusal : γ → Option ε) : (call : Turn σ ε γ) → Turn σ ε δ → Prop
  | refused {s v e} : refusal v = some e → Stops refusal (.done s v) (.failed s e)
  | hangs {call stand} : call.Hangs stand → Stops refusal call stand

theorem Turn.not_stops_done {refusal : γ → Option ε} {call : Turn σ ε γ} {s : σ} {v : δ} :
    ¬ call.Stops refusal (.done s v) := by
  intro h
  cases h with
  | hangs h => cases h

theorem Turn.Stops.of_failed {refusal : γ → Option ε} {call : Turn σ ε γ} {s : σ} {e : ε}
    (h : call.Stops refusal (.failed s e : Turn σ ε δ)) :
    call = .failed s e ∨ ∃ v, call = .done s v ∧ refusal v = some e := by
  cases h with
  | @refused s v e hv => exact .inr ⟨v, rfl, hv⟩
  | hangs h =>
    cases h
    exact .inl rfl

namespace OneByOne

variable {call : α → β → Task σ ε γ} {a : α} {refusal : γ → Option ε}
  {ends : Nat → σ → Turn σ ε δ → Prop} {ends' : Nat → σ → Turn σ ε η → Prop} {answered : Nat} {s : σ}
  {u : Turn σ ε δ}

/-- What follows goes on from each end. -/
theorem bind {f : δ → Task σ ε η} (h : OneByOne call a refusal ends answered s u)
    (hf : ∀ answered s u, ends answered s u → OneByOne call a refusal ends' answered s (u.bind f)) :
    OneByOne call a refusal ends' answered s (u.bind f) := by
  induction h with
  | ended hend => exact hf _ _ _ hend
  | call b hrefused _ ih =>
    rw [Turn.bind_assoc]
    refine .call b (fun v e s' hv => ?_) ih
    rw [hrefused v e s' hv]
    rfl

/-- **One call after the other.** Whatever states are found at the pauses: the calls that have been answered go on
from each other, none of their answers is refused, and then either the turn has come to one of its ends, or it
stands as one more call makes it. -/
theorem account (h : OneByOne call a refusal ends answered s u) (given : List σ) :
    ∃ answers s' left, Task.Exchange call s given answers s' left ∧
      (∀ q ∈ answers, q.1 = a ∧ refusal q.2.2 = none) ∧
      ((∃ u', ends (answered + answers.length) s' u' ∧ u.after given = u'.after left) ∨
        ∃ b, ((call a b s').after left).Stops refusal (u.after given)) := by
  induction h generalizing given with
  | @ended answered s u hend =>
    exact ⟨[], s, given, .nil, fun _ hq => absurd hq List.not_mem_nil, .inl ⟨u, hend, rfl⟩⟩
  | @call answered s b next hrefused _ ih =>
    rcases Turn.done_or_hangs (call a b s) next given with ⟨s₁, v, hcall, hrest⟩ | hhangs
    · rw [hrest]
      cases hv : refusal v with
      | none =>
        obtain ⟨answers, s', left, hexchange, haccepted, hend⟩ := ih v s₁ hv ((call a b s).unused given)
        refine ⟨(a, b, v) :: answers, s', left, .cons hcall hexchange, ?_, ?_⟩
        · intro q hq
          rcases List.mem_cons.1 hq with rfl | hq
          · exact ⟨rfl, hv⟩
          · exact haccepted q hq
        · rwa [List.length_cons, Nat.add_comm answers.length, ← Nat.add_assoc]
      | some e =>
        refine ⟨[], s, given, .nil, fun _ hq => absurd hq List.not_mem_nil, .inr ⟨b, ?_⟩⟩
        rw [hcall, hrefused v e s₁ hv, Turn.after_failed]
        exact .refused hv
    · exact ⟨[], s, given, .nil, fun _ hq => absurd hq List.not_mem_nil, .inr ⟨b, .hangs hhangs⟩⟩

end OneByOne

end ScriptValues
