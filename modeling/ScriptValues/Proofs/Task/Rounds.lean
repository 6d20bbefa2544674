/-
Calls made one at a time, with the state in which each was issued. A `Round` is a call that has been answered, and
`Rounds` the course of them, each going on from the state that the one before has left. `ByRounds` says of a turn
that it goes so: by the rounds so far and by the state that it finds, it either issues one more call or is at an end.

`ByRounds.account` is the run: whatever states are found at the pauses, the rounds are as the turn asks for them, and
then it is at one of its ends, or all hangs on one more call. Beside `OneByOne`, which counts the answers only, this
says which call is issued when, and so it can speak of what a method reads between two calls.
-/
import ScriptValues.Proofs.Task.OneByOne

open ScriptValues.Task

namespace ScriptValues

variable {σ ε β γ δ η : Type}

/-- A call that has been answered. -/
structure Round (σ β γ : Type) where
  /-- The state in which it was issued. -/
  before : σ
  asked : β
  answer : γ

/-- The rounds, one after the other, lead from `s` to `s'`; of the states `given`, those in `left` are still to be
found. -/
inductive Task.Rounds (call : β → Task σ ε γ) :
    (s : σ) → (given : List σ) → (rounds : List (Round σ β γ)) → (s' : σ) → (left : List σ) → Prop
  | nil {s given} : Rounds call s given [] s given
  | cons {s given b c s₁ rounds s' left} : (call b s).after given = .done s₁ c →
      Rounds call s₁ ((call b s).unused given) rounds s' left →
      Rounds call s given (⟨s, b, c⟩ :: rounds) s' left

/-- A turn that has come to a state after some rounds. Either it `ends` there, or it issues a call that it `asks` for
by then: an answer with a refusal is its end, and with any other it goes on, after one round more. -/
inductive ByRounds (call : β → Task σ ε γ) (refusal : γ → Option ε)
    (asks : List (Round σ β γ) → σ → β → Prop) (ends : List (Round σ β γ) → σ → Turn σ ε δ → Prop) :
    (rounds : List (Round σ β γ)) → σ → Turn σ ε δ → Prop
  | ended {rounds s u} : ends rounds s u → ByRounds call refusal asks ends rounds s u
  | call {rounds s} (b : β) {next : γ → Task σ ε δ} : asks rounds s b →
      (∀ c e s', refusal c = some e → next c s' = .failed s' e) →
      (∀ c s', refusal c = none → ByRounds call refusal asks ends (rounds ++ [⟨s, b, c⟩]) s' (next c s')) →
      ByRounds call refusal asks ends rounds s ((call b s).bind next)

/-- After `rounds` there are `more`: each was asked for by the rounds before it, and its answer was not refused. -/
def Answered (refusal : γ → Option ε) (asks : List (Round σ β γ) → σ → β → Prop)
    (rounds more : List (Round σ β γ)) : Prop :=
  ∀ k r, more[k]? = some r → asks (rounds ++ more.take k) r.before r.asked ∧ refusal r.answer = none

section

variable {refusal : γ → Option ε} {asks : List (Round σ β γ) → σ → β → Prop}
  {rounds more : List (Round σ β γ)} {r : Round σ β γ}

theorem Answered.nil : Answered refusal asks rounds [] := by simp [Answered]

theorem Answered.cons (hasks : asks rounds r.before r.asked) (haccepted : refusal r.answer = none)
    (h : Answered refusal asks (rounds ++ [r]) more) : Answered refusal asks rounds (r :: more) := by
  intro k r' hr'
  cases k with
  | zero =>
    obtain rfl : r = r' := by simpa using hr'
    simpa using ⟨hasks, haccepted⟩
  | succ k => simpa using h k r' (by simpa using hr')

theorem Answered.accepted (h : Answered refusal asks rounds more) (hr : r ∈ more) : refusal r.answer = none := by
  obtain ⟨k, hk⟩ := List.mem_iff_getElem?.1 hr
  exact (h k r hk).2

end

namespace ByRounds

variable {call : β → Task σ ε γ} {refusal : γ → Option ε} {asks : List (Round σ β γ) → σ → β → Prop}
  {ends : List (Round σ β γ) → σ → Turn σ ε δ → Prop} {ends' : List (Round σ β γ) → σ → Turn σ ε η → Prop}
  {rounds : List (Round σ β γ)} {s : σ} {u : Turn σ ε δ}

/-- What follows goes on from each end, which comes after more rounds. -/
theorem bind {f : δ → Task σ ε η} (h : ByRounds call refusal asks ends rounds s u)
    (hf : ∀ more s u, Answered refusal asks rounds more → ends (rounds ++ more) s u →
      ByRounds call refusal asks ends' (rounds ++ more) s (u.bind f)) :
    ByRounds call refusal asks ends' rounds s (u.bind f) := by
  induction h with
  | @ended rounds s u hend =>
    have hhere := hf [] s u .nil
    rw [List.append_nil] at hhere
    exact hhere hend
  | @call rounds s b next hasks hrefused _ ih =>
    rw [Turn.bind_assoc]
    refine .call b hasks (fun c e s' hc => ?_) (fun c s' hc => ih c s' hc fun more s u hmore hend => ?_)
    · rw [hrefused c e s' hc]
      rfl
    · rw [List.append_assoc] at hend ⊢
      exact hf _ s u (.cons hasks hc hmore) hend

/-- What goes by rounds calls one call at a time. -/
theorem oneByOne {α κ : Type} {issue : α → κ → Task σ ε γ} {a : α} {args : β → κ} {ends' : Nat → σ → Turn σ ε δ → Prop}
    (h : ByRounds call refusal asks ends rounds s u) (hcall : ∀ b, call b = issue a (args b))
    (hends : ∀ more s u, Answered refusal asks rounds more → ends (rounds ++ more) s u →
      ends' (rounds ++ more).length s u) :
    OneByOne issue a refusal ends' rounds.length s u := by
  induction h with
  | @ended rounds s u hend =>
    have hhere := hends [] s u .nil
    rw [List.append_nil] at hhere
    exact .ended (hhere hend)
  | @call rounds s b next hasks hrefused _ ih =>
    rw [hcall]
    refine .call (args b) hrefused fun c s' hc => ?_
    have hrest := ih c s' hc fun more s u hmore hend => by
      rw [List.append_assoc] at hend ⊢
      exact hends _ s u (.cons hasks hc hmore) hend
    rwa [List.length_append] at hrest

/-- **Round after round.** Whatever states are found at the pauses: the calls that have been answered are those that
the turn asks for, each by the rounds before it and in the state in which it was issued, none of their answers is
refused, and then either the turn has come to one of its ends, or it stands as one more call makes it. -/
theorem account (h : ByRounds call refusal asks ends rounds s u) (given : List σ) :
    ∃ more s' left, Rounds call s given more s' left ∧ Answered refusal asks rounds more ∧
      ((∃ u', ends (rounds ++ more) s' u' ∧ u.after given = u'.after left) ∨
        ∃ b, asks (rounds ++ more) s' b ∧ ((call b s').after left).Stops refusal (u.after given)) := by
  induction h generalizing given with
  | @ended rounds s u hend =>
    refine ⟨[], s, given, .nil, .nil, .inl ⟨u, ?_, rfl⟩⟩
    rwa [List.append_nil]
  | @call rounds s b next hasks hrefused _ ih =>
    rcases Turn.done_or_hangs (call b s) next given with ⟨s₁, c, hcall, hrest⟩ | hhangs
    · rw [hrest]
      cases hc : refusal c with
      | none =>
        obtain ⟨more, s', left, hrounds, hmore, hend⟩ := ih c s₁ hc ((call b s).unused given)
        rw [List.append_assoc, List.singleton_append] at hend
        exact ⟨⟨s, b, c⟩ :: more, s', left, .cons hcall hrounds, .cons hasks hc hmore, hend⟩
      | some e =>
        refine ⟨[], s, given, .nil, .nil, .inr ⟨b, by rwa [List.append_nil], ?_⟩⟩
        rw [hcall, hrefused c e s₁ hc, Turn.after_failed]
        exact .refused hc
    · exact ⟨[], s, given, .nil, .nil, .inr ⟨b, by rwa [List.append_nil], .hangs hhangs⟩⟩

end ByRounds

end ScriptValues
