/-
Two tasks in step with equal results. `Follows same` holds of two turns that end alike, in states that are the same
as far as `same` looks, and that pause together; with `cut` the first may also be cut off early. Tasks in step stay in
step under whatever is built from them, and end alike when run alone (`Follows.finish`).

`gather_follows`: tasks in step are in step side by side; `sequence_follows_gather`: tasks that never pause are in step
one after the other with side by side.
-/
import ScriptValues.Proofs.Task.InStep

namespace ScriptValues

variable {σ ε α β : Type} {cut : Prop} {same : σ → σ → Prop}

/-- The turns end alike and pause together; with `cut` the first may be cut off instead. -/
inductive Turn.Follows (cut : Prop) (same : σ → σ → Prop) : Turn σ ε α → Turn σ ε α → Prop
  | done {s s' a} : same s s' → Follows cut same (.done s a) (.done s' a)
  | failed {s s' e} : same s s' → Follows cut same (.failed s e) (.failed s' e)
  | paused {s s' rest rest'} : same s s' →
      (∀ s₁ s₁', same s₁ s₁' → Follows cut same (rest s₁) (rest' s₁')) →
      Follows cut same (.paused s rest) (.paused s' rest')
  | exhausted : Follows cut same .exhausted .exhausted
  | cut {u} : cut → Follows cut same .exhausted u

/-- The runs ended alike. -/
inductive Outcome.Alike (same : σ → σ → Prop) : Outcome σ ε α → Outcome σ ε α → Prop
  | done {s s' a} : same s s' → Alike same (.done s a) (.done s' a)
  | failed {s s' e} : same s s' → Alike same (.failed s e) (.failed s' e)
  | exhausted : Alike same .exhausted .exhausted

/-- The run came to an end. -/
def Outcome.ended : Outcome σ ε α → Bool
  | .done _ _ => true
  | .failed _ _ => true
  | .exhausted => false

theorem Outcome.Alike.refl (o : Outcome σ ε α) : o.Alike Eq o := by
  cases o with
  | done s a => exact .done rfl
  | failed s e => exact .failed rfl
  | exhausted => exact .exhausted

theorem Outcome.Alike.mono {same' : σ → σ → Prop} {o o' : Outcome σ ε α} (h : o.Alike same o')
    (hsame : ∀ s s', same s s' → same' s s') : o.Alike same' o' := by
  cases h with
  | done hs => exact .done (hsame _ _ hs)
  | failed hs => exact .failed (hsame _ _ hs)
  | exhausted => exact .exhausted

theorem Outcome.Alike.eq {o o' : Outcome σ ε α} (h : o.Alike Eq o') : o = o' := by
  cases h with
  | done hs => rw [hs]
  | failed hs => rw [hs]
  | exhausted => rfl

namespace Turn.Follows

theorem bind {u u' : Turn σ ε α} {f f' : α → Task σ ε β} (h : Follows cut same u u')
    (hf : ∀ a s s', same s s' → Follows cut same (f a s) (f' a s')) :
    Follows cut same (u.bind f) (u'.bind f') := by
  induction h with
  | done hs => exact hf _ _ _ hs
  | failed hs => exact .failed hs
  | paused hs _ ih => exact .paused hs ih
  | exhausted => exact .exhausted
  | cut hcut => exact .cut hcut

theorem handle {u u' : Turn σ ε α} {f f' : ε → Task σ ε α} (h : Follows cut same u u')
    (hf : ∀ e s s', same s s' → Follows cut same (f e s) (f' e s')) :
    Follows cut same (u.handle f) (u'.handle f') := by
  induction h with
  | done hs => exact .done hs
  | failed hs => exact hf _ _ _ hs
  | paused hs _ ih => exact .paused hs ih
  | exhausted => exact .exhausted
  | cut hcut => exact .cut hcut

/-- Tasks in step end alike, if the first comes to an end. -/
theorem finish {u u' : Turn σ ε α} (h : Follows cut same u u') (hend : u.finish.ended = true) :
    u.finish.Alike same u'.finish := by
  induction h with
  | done hs => exact .done hs
  | failed hs => exact .failed hs
  | paused hs _ ih => exact ih _ _ hs hend
  | exhausted => exact .exhausted
  | cut _ => exact absurd hend Bool.false_ne_true

theorem refl (u : Turn σ ε α) : Follows cut Eq u u := by
  induction u with
  | done s a => exact .done rfl
  | failed s e => exact .failed rfl
  | paused s rest ih => exact .paused rfl fun s₁ s₁' hs₁ => hs₁ ▸ ih s₁
  | exhausted => exact .exhausted

/-- In step from equal states and never cut off: the same. -/
theorem eq {u u' : Turn σ ε α} (h : Follows False Eq u u') : u = u' := by
  induction h with
  | done hs => rw [hs]
  | failed hs => rw [hs]
  | paused hs _ ih =>
    rw [hs]
    exact congrArg _ (funext fun s => ih s s rfl)
  | exhausted => rfl
  | cut hcut => exact hcut.elim

end Turn.Follows

/-- To end alike is to end in step with equal results. -/
theorem Turn.follows_iff_inStep {u u' : Turn σ ε α} : u.Follows cut same u' ↔ u.InStep cut same Eq u' := by
  constructor
  · intro h
    induction h with
    | done hs => exact .done hs rfl
    | failed hs => exact .failed hs
    | paused hs _ ih => exact .paused hs ih
    | exhausted => exact .exhausted
    | cut hcut => exact .cut hcut
  · intro h
    induction h with
    | done hs ha => exact ha ▸ .done hs
    | failed hs => exact .failed hs
    | paused hs _ ih => exact .paused hs ih
    | exhausted => exact .exhausted
    | cut hcut => exact .cut hcut

namespace Task

/-- In step from any states that are the same. -/
def Follows (cut : Prop) (same : σ → σ → Prop) (t t' : Task σ ε α) : Prop :=
  ∀ s s', same s s' → (t s).Follows cut same (t' s')

/-- The task never pauses: it ends in its first turn. -/
def Prompt (t : Task σ ε α) : Prop := ∀ s s' rest, t s ≠ .paused s' rest

/-- The task, cut off if it pauses. -/
def atOnce (t : Task σ ε α) : Task σ ε α := fun s =>
  match t s with
  | .paused _ _ => .exhausted
  | u => u

theorem prompt_atOnce (t : Task σ ε α) : (atOnce t).Prompt := by
  intro s s' rest h
  rw [atOnce] at h
  split at h
  · cases h
  · next hnot => exact hnot s' rest h

theorem Follows.atOnce {t t' : Task σ ε α} (h : t.Follows True same t') :
    (Task.atOnce t).Follows True same t' := by
  intro s s' hs
  have hturn := h s s' hs
  rw [Task.atOnce]
  split
  · exact .cut trivial
  · exact hturn

/-! ## One after the other and side by side -/

/-- Tasks in step are in step side by side. -/
theorem gather_follows {ts us : List (Task σ ε α)} (h : List.Forall₂ (Follows cut same) ts us) :
    (gather ts).Follows cut same (gather us) := by
  have hsteps : List.Forall₂ (InStep cut same Eq) ts us :=
    h.imp fun t t' ht s s' hs => Turn.follows_iff_inStep.1 (ht s s' hs)
  intro s s' hs
  have hgather := gather_inStep hsteps s s' hs
  rw [List.forall₂_eq_eq_eq] at hgather
  exact Turn.follows_iff_inStep.2 hgather

/-- A prompt task, and what follows it in another task that is in step. -/
theorem Follows.bind_of_prompt {t t' : Task σ ε α} (h : t.Follows cut same t') (hprompt : t.Prompt)
    {f : α → Task σ ε β} {w : Turn σ ε α → Turn σ ε β} {s s' : σ} (hs : same s s')
    (hdone : ∀ a s₁ s₁', same s₁ s₁' → (f a s₁).Follows cut same (w (.done s₁' a)))
    (hfailed : ∀ e s', w (.failed s' e) = .failed s' e) (hexhausted : w .exhausted = .exhausted) :
    ((t s).bind f).Follows cut same (w (t' s')) := by
  have hturn := h s s' hs
  have hnot := hprompt s
  generalize t s = u at hturn hnot
  generalize t' s' = u' at hturn
  cases hturn with
  | done hs' => exact hdone _ _ _ hs'
  | failed hs' =>
    rw [hfailed]
    exact .failed hs'
  | paused _ _ => exact absurd rfl (hnot _ _)
  | exhausted =>
    rw [hexhausted]
    exact .exhausted
  | cut hcut => exact .cut hcut

theorem sequence_follows_gatherFew {ts us : List (Task σ ε α)}
    (h : List.Forall₂ (Follows cut same) ts us) (hprompt : ∀ t ∈ ts, t.Prompt) :
    (sequence ts).Follows cut same (gatherFew us) := by
  induction h with
  | nil => exact fun s s' hs => .done hs
  | @cons t u ts us ht _ ih =>
    intro s s' hs
    refine ht.bind_of_prompt (w := fun w => (w.beside (gatherFew us)).bind fun p => pure (p.1 :: p.2))
      (hprompt t List.mem_cons_self) hs (fun a s₁ s₁' hs₁ => ?_) (fun e s' => rfl) rfl
    have hrest := ih (fun t ht => hprompt t (List.mem_cons_of_mem _ ht)) s₁ s₁' hs₁
    have hpair : Turn.Follows cut same ((sequence ts s₁).bind fun as s => .done s (a :: as))
        ((gatherFew us s₁').bind fun as s => .done s (a :: as)) :=
      hrest.bind fun as s₂ s₂' hs₂ => .done hs₂
    have hassoc := Turn.bind_assoc (gatherFew us s₁') (fun as s => .done s (a, as))
      (fun p s => .done s (p.1 :: p.2))
    exact hassoc ▸ hpair

theorem sequence_follows_collect {ts us : List (Task σ ε α)}
    (h : List.Forall₂ (Follows cut same) ts us) (hprompt : ∀ t ∈ ts, t.Prompt) :
    (sequence ts).Follows cut same (collect us.length (us.map .running)) := by
  induction h with
  | nil => exact fun s s' hs => .done hs
  | @cons t u ts us ht _ ih =>
    intro s s' hs
    let next := fun a others => collect us.length others >>= fun as => (pure (a :: as) : Task σ ε (List α))
    refine ht.bind_of_prompt (w := fun w => lead next w 0 (us.map .running))
      (hprompt t List.mem_cons_self) hs (fun a s₁ s₁' hs₁ => ?_) (fun e s' => rfl) rfl
    have hrest := ih (fun t ht => hprompt t (List.mem_cons_of_mem _ ht)) s₁ s₁' hs₁
    exact hrest.bind fun as s₂ s₂' hs₂ => .done hs₂

/-- Prompt tasks one after the other are in step with tasks side by side that they are in step with. -/
theorem sequence_follows_gather {ts us : List (Task σ ε α)}
    (h : List.Forall₂ (Follows cut same) ts us) (hprompt : ∀ t ∈ ts, t.Prompt) :
    (sequence ts).Follows cut same (gather us) := by
  rw [gather]
  split
  · exact sequence_follows_gatherFew h hprompt
  · exact sequence_follows_collect h hprompt

theorem sequence_follows_sequence {ts us : List (Task σ ε α)}
    (h : List.Forall₂ (Follows cut same) ts us) : (sequence ts).Follows cut same (sequence us) := by
  induction h with
  | nil => exact fun s s' hs => .done hs
  | cons ht _ ih =>
    intro s s' hs
    refine (ht s s' hs).bind fun a s₁ s₁' hs₁ => ?_
    exact (ih s₁ s₁' hs₁).bind fun as s₂ s₂' hs₂ => .done hs₂

/-- Prompt tasks side by side run one after the other. -/
theorem gather_eq_sequence {tasks : List (Task σ ε α)} (hprompt : ∀ t ∈ tasks, t.Prompt) :
    gather tasks = sequence tasks := by
  have hself : List.Forall₂ (Follows False Eq) tasks tasks :=
    List.forall₂_same.2 fun t _ s s' hs => hs ▸ .refl (t s)
  exact funext fun s => (sequence_follows_gather hself hprompt s s rfl).eq.symm

end Task

end ScriptValues
