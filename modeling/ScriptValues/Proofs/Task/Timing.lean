/-
Tasks whose pauses and result are fixed, whatever states they find, and what a gathering of such tasks ends
with.

* Side by side and with failures let through at once (`gatherFew`), it is a race (`raceAll`): the failure
  that comes after the fewest pauses decides, the first in the list among equals
  (`raceAll_leastFailure`).
* With failures held back, and one after the other, the number of pauses is nothing: the first in the list
  decides (`Conducts.finish_of_settles`).
-/
import Mathlib.Data.List.Forall2
import ScriptValues.Proofs.Task.Conduct

namespace ScriptValues

variable {σ ε α β : Type}

/-- The turn and what follows it pause so often and end so, whatever states they find. -/
inductive Turn.Takes : Turn σ ε α → (pauses : Nat) → (result : Except ε α) → Prop
  | done {s a} : Takes (.done s a) 0 (.ok a)
  | failed {s e} : Takes (.failed s e) 0 (.error e)
  | paused {s rest k r} : (∀ s', Takes (rest s') k r) → Takes (.paused s rest) (k + 1) r

namespace Turn.Takes

theorem bind_ok {u : Turn σ ε α} {k a} (h : u.Takes k (.ok a)) (f : α → β) :
    (u.bind fun a => pure (f a)).Takes k (.ok (f a)) := by
  generalize hr : Except.ok a = r at h
  induction h with
  | done => cases hr; exact .done
  | failed => cases hr
  | paused _ ih => exact .paused fun s' => ih s' hr

theorem bind_error {u : Turn σ ε α} {k e} (h : u.Takes k (.error e)) (f : α → Task σ ε β) :
    (u.bind f).Takes k (.error e) := by
  generalize hr : Except.error e = r at h
  induction h with
  | done => cases hr
  | failed => cases hr; exact .failed
  | paused _ ih => exact .paused fun s' => ih s' hr

theorem finish_ok {u : Turn σ ε α} {k a} (h : u.Takes k (.ok a)) : ∃ s', u.finish = .done s' a := by
  generalize hr : Except.ok a = r at h
  induction h with
  | @done s a => cases hr; exact ⟨s, rfl⟩
  | failed => cases hr
  | @paused s rest k r _ ih => exact ih s hr

theorem finish_error {u : Turn σ ε α} {k e} (h : u.Takes k (.error e)) :
    ∃ s', u.finish = .failed s' e := by
  generalize hr : Except.error e = r at h
  induction h with
  | done => cases hr
  | @failed s e => cases hr; exact ⟨s, rfl⟩
  | @paused s rest k r _ ih => exact ih s hr

end Turn.Takes

namespace Task

/-- The task pauses so often and ends so, whatever states it finds. -/
def Takes (t : Task σ ε α) (pauses : Nat) (result : Except ε α) : Prop := ∀ s, (t s).Takes pauses result

theorem takes_pause (k : Nat) (r : Except ε α) :
    (do pause k; ofExcept r : Task σ ε α).Takes k r := by
  induction k with
  | zero => cases r <;> intro s <;> constructor
  | succ k ih => exact fun s => .paused fun s' => ih s'

/-! ## A race -/

/-- Of two side by side: when the pair ends, and how. -/
def race : Nat × Except ε α → Nat × Except ε β → Nat × Except ε (α × β)
  | (k, .ok a), (l, .ok b) => (max k l, .ok (a, b))
  | (_, .ok _), (l, .error e) => (l, .error e)
  | (k, .error e), (_, .ok _) => (k, .error e)
  | (k, .error e), (l, .error e') => if k ≤ l then (k, .error e) else (l, .error e')

/-- Of many side by side: when all end, and how. -/
def raceAll : List (Nat × Except ε α) → Nat × Except ε (List α)
  | [] => (0, .ok [])
  | p :: ps =>
    match race p (raceAll ps) with
    | (k, .ok (a, as)) => (k, .ok (a :: as))
    | (k, .error e) => (k, .error e)

theorem race_succ (k l : Nat) (r : Except ε α) (q : Except ε β) :
    race (k + 1, r) (l + 1, q) = ((race (k, r) (l, q)).1 + 1, (race (k, r) (l, q)).2) := by
  cases r with
  | ok a =>
    cases q with
    | ok b => simp only [race, Nat.add_max_add_right]
    | error e' => rfl
  | error e =>
    cases q with
    | ok b => rfl
    | error e' =>
      simp only [race, Nat.add_le_add_iff_right]
      split <;> rfl

/-- Two side by side run their race. -/
theorem Takes.beside {u : Turn σ ε α} {others : Task σ ε β} {k l : Nat} {r : Except ε α}
    {q : Except ε β} (h : u.Takes k r) (hothers : others.Takes l q) :
    (u.beside others).Takes (race (k, r) (l, q)).1 (race (k, r) (l, q)).2 := by
  induction h generalizing others l with
  | @done s a =>
    rw [Turn.beside]
    cases q with
    | ok b =>
      rw [race, Nat.zero_max]
      exact (hothers s).bind_ok (a, ·)
    | error e => exact (hothers s).bind_error _
  | @failed s e =>
    rw [Turn.beside]
    cases q with
    | ok b => exact .failed
    | error e' =>
      rw [race, if_pos (Nat.zero_le l)]
      exact .failed
  | @paused s rest k r hrest ih =>
    have hturn := hothers s
    rw [Turn.beside]
    generalize others s = w at hturn
    cases hturn with
    | @done s' b =>
      cases r with
      | ok a => exact .paused fun s'' => (hrest s'').bind_ok (·, b)
      | error e => exact .paused fun s'' => (hrest s'').bind_error _
    | failed =>
      cases r with
      | ok a => exact .failed
      | error e =>
        rw [race, if_neg (Nat.not_succ_le_zero k)]
        exact .failed
    | paused hrest' =>
      rw [race_succ]
      exact .paused fun s'' => ih s'' hrest'

theorem gatherFew_takes {tasks : List (Task σ ε α)} {timings : List (Nat × Except ε α)}
    (h : List.Forall₂ (fun t p => t.Takes p.1 p.2) tasks timings) :
    (gatherFew tasks).Takes (raceAll timings).1 (raceAll timings).2 := by
  induction h with
  | nil => exact fun _ => .done
  | @cons t p ts ps ht _ ih =>
    intro s
    have hpair := Takes.beside (ht s) ih
    rw [raceAll]
    change ((t s).beside (gatherFew ts)).Takes (race p (raceAll ps)).1 (race p (raceAll ps)).2 at hpair
    generalize race p (raceAll ps) = q at hpair
    obtain ⟨k, e | ⟨a, as⟩⟩ := q
    · exact hpair.bind_error _
    · exact hpair.bind_ok fun p => p.1 :: p.2

/-- The failure that comes after the fewest pauses, the first of several such. -/
def LeastFailure (timings : List (Nat × Except ε α)) (k : Nat) (e : ε) : Prop :=
  ∃ front others, timings = front ++ (k, .error e) :: others ∧
    (∀ l e', (l, .error e') ∈ front → k < l) ∧ ∀ l e', (l, .error e') ∈ others → k ≤ l

theorem LeastFailure.le {timings : List (Nat × Except ε α)} {k : Nat} {e : ε}
    (h : LeastFailure timings k e) {l : Nat} {e' : ε} (hl : (l, .error e') ∈ timings) : k ≤ l := by
  obtain ⟨front, others, rfl, hfront, hothers⟩ := h
  rcases List.mem_append.1 hl with hl | hl
  · exact Nat.le_of_lt (hfront l e' hl)
  · rcases List.mem_cons.1 hl with heq | hl
    · cases heq
      exact Nat.le_refl _
    · exact hothers l e' hl

/-- The race is won by the least failure; without one, all have results. -/
theorem raceAll_leastFailure (timings : List (Nat × Except ε α)) :
    match raceAll timings with
    | (_, .ok as) => timings.map Prod.snd = as.map .ok
    | (k, .error e) => LeastFailure timings k e := by
  induction timings with
  | nil => rfl
  | cons p ps ih =>
    rw [raceAll]
    generalize raceAll ps = q at ih ⊢
    obtain ⟨k, e | a⟩ := p <;> obtain ⟨l, e' | as⟩ := q <;> simp only [race]
    · by_cases hkl : k ≤ l
      · rw [if_pos hkl]
        exact ⟨[], ps, rfl, fun _ _ h => absurd h List.not_mem_nil, fun _ _ h => Nat.le_trans hkl (ih.le h)⟩
      · rw [if_neg hkl]
        obtain ⟨front, others, rfl, hfront, hothers⟩ := ih
        refine ⟨(k, .error e) :: front, others, rfl, fun l' e'' h => ?_, hothers⟩
        rcases List.mem_cons.1 h with heq | h
        · cases heq
          omega
        · exact hfront l' e'' h
    · refine ⟨[], ps, rfl, fun _ _ h => absurd h List.not_mem_nil, fun l' e'' h => ?_⟩
      have hmem : Except.error e'' ∈ ps.map Prod.snd := List.mem_map.2 ⟨_, h, rfl⟩
      rw [ih] at hmem
      obtain ⟨a, -, ha⟩ := List.mem_map.1 hmem
      cases ha
    · obtain ⟨front, others, rfl, hfront, hothers⟩ := ih
      refine ⟨(k, .ok a) :: front, others, rfl, fun l' e'' h => ?_, hothers⟩
      rcases List.mem_cons.1 h with heq | h
      · cases heq
      · exact hfront l' e'' h
    · rw [List.map_cons, List.map_cons, ih]

/-! ## Failures held back -/

/-- The member has the result, or will have it. -/
def Member.Settles : Member σ ε α → Except ε α → Prop
  | .running t, r => ∃ k, t.Takes k r
  | .settled r', r => r' = r

theorem Member.Settles.turn {m m' : Member σ ε α} {r : Except ε α} {s s' : σ} (h : m.Settles r)
    (hturn : m.turn s = some (m', s')) : m'.Settles r := by
  cases m with
  | settled r' => cases hturn
  | running t =>
    obtain ⟨k, ht⟩ := h
    have hs := ht s
    rw [Member.turn] at hturn
    generalize t s = u at hs hturn
    cases hs with
    | done => cases hturn; rfl
    | failed => cases hturn; rfl
    | @paused s rest k r hrest => cases hturn; exact ⟨k, hrest⟩

theorem forall₂_append_cons {γ δ : Type} {R : γ → δ → Prop} {front others : List γ} {x : γ}
    {ys : List δ} (h : List.Forall₂ R (front ++ x :: others) ys) :
    ∃ front' y others', ys = front' ++ y :: others' ∧ List.Forall₂ R front front' ∧ R x y ∧
      List.Forall₂ R others others' := by
  induction front generalizing ys with
  | nil =>
    cases h with
    | cons hx hothers => exact ⟨[], _, _, rfl, .nil, hx, hothers⟩
  | cons z front ih =>
    cases h with
    | @cons _ w _ _ hz hrest =>
      obtain ⟨front', y, others', rfl, hfront, hy, hothers⟩ := ih hrest
      exact ⟨w :: front', y, others', rfl, .cons hz hfront, hy, hothers⟩

theorem eq_of_settles_returned {results : List α} {rs : List (Except ε α)}
    (h : List.Forall₂ Member.Settles (results.map (Member.returned (σ := σ))) rs) :
    rs = results.map .ok := by
  induction results generalizing rs with
  | nil => cases h; rfl
  | cons a as ih =>
    cases h with
    | cons ha has => rw [List.map_cons, ← ih has, ha]

/-- **The first failure decides** where a conductor ends only with the failure of the first that does not
succeed: what the members' results are is then all that matters. -/
theorem Conducts.finish_of_settles {values : β → List α} {members begun s} {u : Turn σ ε β}
    (h : Conducts FailsFirst values members begun s u) {rs : List (Except ε α)}
    (hs : List.Forall₂ Member.Settles members rs) :
    match u.finish with
    | .done _ b => rs = (values b).map .ok
    | .failed _ e => ∃ (results : List α) (others : List (Except ε α)),
        rs = results.map .ok ++ .error e :: others
    | .exhausted => False := by
  induction h generalizing rs with
  | turn front _ hturn _ ih =>
    obtain ⟨front', r, others', rfl, hfront, hr, hothers⟩ := forall₂_append_cons hs
    exact ih (List.rel_append hfront (.cons (hr.turn hturn) hothers))
  | @exhausted front others t begun s _ ht =>
    obtain ⟨_, r, _, rfl, _, ⟨k, hk⟩, _⟩ := forall₂_append_cons hs
    have htakes := hk s
    rw [ht] at htakes
    cases htakes
  | @paused members begun s rest _ ih => exact ih s hs
  | done hall =>
    rw [hall] at hs
    exact eq_of_settles_returned hs
  | failed hf =>
    obtain ⟨results, others, rfl⟩ := hf
    obtain ⟨front', r, others', rfl, hfront, hr, -⟩ := forall₂_append_cons hs
    rw [eq_of_settles_returned hfront, ← hr]
    exact ⟨results, others', rfl⟩

end Task

end ScriptValues
