/-
Two tasks in step, with states and results of their own. `Turn.InStep cut same R` holds of two turns that end in the
same way, with results related by `R` or with the same failure, in states related by `same`, and that pause together; with
`cut` the first may also be cut off early. What is built alike from tasks in step is in step, gatherings included
(`gather_inStep`): each member has its turns when the member beside it has its own, so the two take the same course.
-/
import Mathlib.Data.List.Forall2
import ScriptValues.Task.Gather

namespace ScriptValues

variable {σ σ' ε α α' β β' : Type} {cut : Prop} {same : σ → σ' → Prop} {R : α → α' → Prop} {S : β → β' → Prop}

/-- The turns end in the same way, with related results, and pause together; with `cut` the first may be cut off
instead. -/
inductive Turn.InStep (cut : Prop) (same : σ → σ' → Prop) (R : α → α' → Prop) : Turn σ ε α → Turn σ' ε α' → Prop
  | done {s s' a a'} : same s s' → R a a' → InStep cut same R (.done s a) (.done s' a')
  | failed {s s' e} : same s s' → InStep cut same R (.failed s e) (.failed s' e)
  | paused {s s' rest rest'} : same s s' → (∀ s₁ s₁', same s₁ s₁' → InStep cut same R (rest s₁) (rest' s₁')) →
      InStep cut same R (.paused s rest) (.paused s' rest')
  | exhausted : InStep cut same R .exhausted .exhausted
  | cut {u} : cut → InStep cut same R .exhausted u

/-- The runs ended in the same way, with related results. -/
inductive Outcome.InStep (same : σ → σ' → Prop) (R : α → α' → Prop) : Outcome σ ε α → Outcome σ' ε α' → Prop
  | done {s s' a a'} : same s s' → R a a' → InStep same R (.done s a) (.done s' a')
  | failed {s s' e} : same s s' → InStep same R (.failed s e) (.failed s' e)
  | exhausted : InStep same R .exhausted .exhausted

/-- In step from any states that are related. -/
def Task.InStep (cut : Prop) (same : σ → σ' → Prop) (R : α → α' → Prop) (t : Task σ ε α) (t' : Task σ' ε α') : Prop :=
  ∀ s s', same s s' → (t s).InStep cut same R (t' s')

namespace Turn.InStep

theorem bind {u : Turn σ ε α} {u' : Turn σ' ε α'} {f : α → Task σ ε β} {f' : α' → Task σ' ε β'}
    (h : InStep cut same R u u') (hf : ∀ a a', R a a' → (f a).InStep cut same S (f' a')) :
    InStep cut same S (u.bind f) (u'.bind f') := by
  induction h with
  | done hs ha => exact hf _ _ ha _ _ hs
  | failed hs => exact .failed hs
  | paused hs _ ih => exact .paused hs ih
  | exhausted => exact .exhausted
  | cut hcut => exact .cut hcut

theorem handle {u : Turn σ ε α} {u' : Turn σ' ε α'} {f : ε → Task σ ε α} {f' : ε → Task σ' ε α'}
    (h : InStep cut same R u u') (hf : ∀ e, (f e).InStep cut same R (f' e)) :
    InStep cut same R (u.handle f) (u'.handle f') := by
  induction h with
  | done hs ha => exact .done hs ha
  | failed hs => exact hf _ _ _ hs
  | paused hs _ ih => exact .paused hs ih
  | exhausted => exact .exhausted
  | cut hcut => exact .cut hcut

theorem mono {R' : α → α' → Prop} {u : Turn σ ε α} {u' : Turn σ' ε α'} (h : InStep cut same R u u')
    (hR : ∀ a a', R a a' → R' a a') : InStep cut same R' u u' := by
  induction h with
  | done hs ha => exact .done hs (hR _ _ ha)
  | failed hs => exact .failed hs
  | paused hs _ ih => exact .paused hs ih
  | exhausted => exact .exhausted
  | cut hcut => exact .cut hcut

/-- Tasks in step end in the same way, if neither is cut off. -/
theorem finish {u : Turn σ ε α} {u' : Turn σ' ε α'} (h : InStep False same R u u') :
    u.finish.InStep same R u'.finish := by
  induction h with
  | done hs ha => exact .done hs ha
  | failed hs => exact .failed hs
  | paused hs _ ih => exact ih _ _ hs
  | exhausted => exact .exhausted
  | cut hcut => exact hcut.elim

end Turn.InStep

namespace Task

theorem InStep.pure {a : α} {a' : α'} (ha : R a a') :
    (pure a : Task σ ε α).InStep cut same R (pure a' : Task σ' ε α') := fun _ _ hs => .done hs ha

theorem InStep.bind {t : Task σ ε α} {t' : Task σ' ε α'} {f : α → Task σ ε β} {f' : α' → Task σ' ε β'}
    (h : t.InStep cut same R t') (hf : ∀ a a', R a a' → (f a).InStep cut same S (f' a')) :
    (t >>= f).InStep cut same S (t' >>= f') := fun s s' hs => (h s s' hs).bind hf

/-! ## One after the other -/

theorem sequence_inStep {ts : List (Task σ ε α)} {us : List (Task σ' ε α')}
    (h : List.Forall₂ (InStep cut same R) ts us) :
    (sequence ts).InStep cut same (List.Forall₂ R) (sequence us) := by
  induction h with
  | nil => exact .pure .nil
  | cons ht _ ih => exact ht.bind fun a a' ha => ih.bind fun as as' has => .pure (.cons ha has)

end Task

/-! ## Side by side -/

theorem Turn.InStep.beside {u : Turn σ ε α} {u' : Turn σ' ε α'} (hu : u.InStep cut same R u') {t : Task σ ε β}
    {t' : Task σ' ε β'} (ht : t.InStep cut same S t') :
    (u.beside t).InStep cut same (fun p p' => R p.1 p'.1 ∧ S p.2 p'.2) (u'.beside t') := by
  induction hu generalizing t t' with
  | done hs ha => exact (ht _ _ hs).bind fun b b' hb => .pure ⟨ha, hb⟩
  | failed hs => exact .failed hs
  | @paused s s' rest rest' hs hrest ih =>
    have hturn := ht s s' hs
    rw [Turn.beside, Turn.beside]
    generalize t s = w at hturn
    generalize t' s' = w' at hturn
    cases hturn with
    | done hs₁ hb => exact .paused hs₁ fun s₂ s₂' hs₂ => (hrest s₂ s₂' hs₂).bind fun a a' ha => .pure ⟨ha, hb⟩
    | failed hs₁ => exact .failed hs₁
    | paused hs₁ hnext => exact .paused hs₁ fun s₂ s₂' hs₂ => ih s₂ s₂' hs₂ hnext
    | exhausted => exact .exhausted
    | cut hcut => exact .cut hcut
  | exhausted => exact .exhausted
  | cut hcut => exact .cut hcut

namespace Task

theorem gatherFew_inStep {ts : List (Task σ ε α)} {us : List (Task σ' ε α')}
    (h : List.Forall₂ (InStep cut same R) ts us) :
    (gatherFew ts).InStep cut same (List.Forall₂ R) (gatherFew us) := by
  induction h with
  | nil => exact .pure .nil
  | cons ht _ ih =>
    intro s s' hs
    exact ((ht s s' hs).beside ih).bind fun p p' hp => .pure (.cons hp.1 hp.2)

/-- Two members are both still to run, and in step, or have related results. -/
inductive Member.InStep (cut : Prop) (same : σ → σ' → Prop) (R : α → α' → Prop) :
    Member σ ε α → Member σ' ε α' → Prop
  | running {t t'} : t.InStep cut same R t' → InStep cut same R (.running t) (.running t')
  | returned {a a'} : R a a' → InStep cut same R (.settled (.ok a)) (.settled (.ok a'))
  | failed (e) : InStep cut same R (.settled (.error e)) (.settled (.error e))

variable {ms : List (Member σ ε α)} {ms' : List (Member σ' ε α')}

theorem any_isRunning_eq (h : List.Forall₂ (Member.InStep cut same R) ms ms') :
    ms.any Member.isRunning = ms'.any Member.isRunning := by
  induction h with
  | nil => rfl
  | cons hm _ ih =>
    rw [List.any_cons, List.any_cons, ih]
    cases hm <;> rfl

theorem sweep_inStep {next : Nat → List (Member σ ε α) → Task σ ε β}
    {next' : Nat → List (Member σ' ε α') → Task σ' ε β'}
    (hnext : ∀ pauses {ms ms'}, List.Forall₂ (Member.InStep cut same R) ms ms' →
      (next pauses ms).InStep cut same S (next' pauses ms'))
    (pauses : Nat) {before after : List (Member σ ε α)} {before' after' : List (Member σ' ε α')}
    (hbefore : List.Forall₂ (Member.InStep cut same R) before before')
    (hafter : List.Forall₂ (Member.InStep cut same R) after after') :
    (sweep next pauses before after).InStep cut same S (sweep next' pauses before' after') := by
  induction hafter generalizing pauses before before' with
  | nil => exact hnext pauses (List.rel_reverse hbefore)
  | cons hm _ ih =>
    cases hm with
    | returned ha => exact ih pauses (.cons (.returned ha) hbefore)
    | failed e => exact ih pauses (.cons (.failed e) hbefore)
    | @running t t' ht =>
      intro s s' hs
      have hturn := ht s s' hs
      simp only [sweep]
      generalize t s = w at hturn
      generalize t' s' = w' at hturn
      cases hturn with
      | done hs₁ ha => exact ih 0 (.cons (.returned ha) hbefore) _ _ hs₁
      | failed hs₁ => exact ih 0 (.cons (.failed _) hbefore) _ _ hs₁
      | paused hs₁ hrest =>
        dsimp only
        split
        · exact ih 1 (.cons (.running hrest) hbefore) _ _ hs₁
        · exact .paused hs₁ (ih 0 (.cons (.running hrest) hbefore))
      | exhausted => exact .exhausted
      | cut hcut => exact .cut hcut

theorem lead_inStep {next : α → List (Member σ ε α) → Task σ ε β} {next' : α' → List (Member σ' ε α') → Task σ' ε β'}
    (hnext : ∀ {a a'}, R a a' → ∀ {ms ms'}, List.Forall₂ (Member.InStep cut same R) ms ms' →
      (next a ms).InStep cut same S (next' a' ms'))
    {u : Turn σ ε α} {u' : Turn σ' ε α'} (hu : u.InStep cut same R u') (pauses : Nat)
    {others : List (Member σ ε α)} {others' : List (Member σ' ε α')}
    (hothers : List.Forall₂ (Member.InStep cut same R) others others') :
    (lead next u pauses others).InStep cut same S (lead next' u' pauses others') := by
  induction hu generalizing pauses others others' with
  | done hs ha => exact hnext ha hothers _ _ hs
  | failed hs => exact .failed hs
  | @paused s s' rest rest' hs hrest ih =>
    have hsweep : ∀ k, (sweep (fun pauses others s => lead next (rest s) pauses others) k [] others).InStep
        cut same S (sweep (fun pauses others s => lead next' (rest' s) pauses others) k [] others') :=
      fun k => sweep_inStep (fun pauses _ _ hms s₁ s₁' hs₁ => ih s₁ s₁' hs₁ pauses hms) k .nil hothers
    rw [lead, lead, any_isRunning_eq hothers]
    split
    · exact hsweep 1 s s' hs
    · exact .paused hs (hsweep 0)
  | exhausted => exact .exhausted
  | cut hcut => exact .cut hcut

theorem collect_inStep (count : Nat) (h : List.Forall₂ (Member.InStep cut same R) ms ms') :
    (collect count ms).InStep cut same (List.Forall₂ R) (collect count ms') := by
  induction count generalizing ms ms' with
  | zero => exact .pure .nil
  | succ count ih =>
    -- A result is taken, and then the others'.
    have htake : ∀ {a a'}, R a a' → ∀ {ms ms'}, List.Forall₂ (Member.InStep cut same R) ms ms' →
        InStep cut same (List.Forall₂ R) (do let as ← collect count ms; pure (a :: as) : Task σ ε (List α))
          (do let as ← collect count ms'; pure (a' :: as)) :=
      fun ha _ _ hms => (ih hms).bind fun as as' has => .pure (.cons ha has)
    cases h with
    | nil => exact .pure .nil
    | cons hm hrest =>
      cases hm with
      | returned ha => exact htake ha hrest
      | failed e => exact fun s s' hs => .failed hs
      | running ht => exact fun s s' hs => lead_inStep htake (ht s s' hs) 0 hrest

/-- **Tasks in step are in step side by side.** -/
theorem gather_inStep {ts : List (Task σ ε α)} {us : List (Task σ' ε α')}
    (h : List.Forall₂ (InStep cut same R) ts us) : (gather ts).InStep cut same (List.Forall₂ R) (gather us) := by
  rw [gather, gather, h.length_eq]
  split
  · exact gatherFew_inStep h
  · have hmembers : List.Forall₂ (Member.InStep cut same R) (ts.map .running) (us.map .running) := by
      rw [List.forall₂_map_left_iff, List.forall₂_map_right_iff]
      exact h.imp fun _ _ ht => .running ht
    rw [gatherMany, gatherMany, h.length_eq]
    exact collect_inStep us.length hmembers

end Task

end ScriptValues
