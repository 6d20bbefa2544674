/-
What a gathering may do with its members. `Conducts` says of a turn that it is led by the rules of a
conductor: it lets members take turns, each beginning only after all those before it have begun; it pauses,
and then the state may be anything; it ends with the results of the members, in their order, when all have
one; or it fails with the failure of a member. It never touches the state itself.

All three ways to gather keep these rules (`sequence_conducts`, `gatherFew_conducts`,
`gatherMany_conducts`), the first and the last failing only for the first member that does not succeed.
-/
import ScriptValues.Task.Gather

namespace ScriptValues

variable {σ ε α β γ : Type}

/-- How a task stands after a turn, and the state it leaves; none if the turn was cut off. -/
def Turn.leaves : Turn σ ε α → Option (Task.Member σ ε α × σ)
  | .done s a => some (.settled (.ok a), s)
  | .failed s e => some (.settled (.error e), s)
  | .paused s t => some (.running t, s)
  | .exhausted => none

namespace Task

/-- The member with its result. -/
def Member.returned (a : α) : Member σ ε α := .settled (.ok a)

/-- The member with its failure. -/
def Member.raised (e : ε) : Member σ ε α := .settled (.error e)

/-- A turn of the member, if it is still to run. -/
def Member.turn : Member σ ε α → σ → Option (Member σ ε α × σ)
  | .running t, s => (t s).leaves
  | .settled _, _ => none

/-- The turn is that of a conductor of `members`, `begun` of which have begun, in the state `s`.
`values` reads the results off what it ends with; `fails` says which failures it may end with. -/
inductive Conducts (fails : List (Member σ ε α) → ε → Prop) (values : β → List α) :
    (members : List (Member σ ε α)) → (begun : Nat) → (s : σ) → Turn σ ε β → Prop
  /-- A member has a turn: one that has begun, or the next to begin. -/
  | turn (front) {others m m' begun s s' u} : front.length ≤ begun → m.turn s = some (m', s') →
      Conducts fails values (front ++ m' :: others) (max begun (front.length + 1)) s' u →
      Conducts fails values (front ++ m :: others) begun s u
  | exhausted (front) {others t begun s} : front.length ≤ begun → t s = .exhausted →
      Conducts fails values (front ++ .running t :: others) begun s .exhausted
  | paused {members begun s rest} : (∀ s', Conducts fails values members begun s' (rest s')) →
      Conducts fails values members begun s (.paused s rest)
  | done {members begun s b} : members = (values b).map Member.returned →
      Conducts fails values members begun s (.done s b)
  | failed {members begun s e} : fails members e → Conducts fails values members begun s (.failed s e)

/-- A member has failed so. -/
def Fails (members : List (Member σ ε α)) (e : ε) : Prop := Member.raised e ∈ members

/-- A member has failed so, and all before it have results. -/
def FailsFirst (members : List (Member σ ε α)) (e : ε) : Prop :=
  ∃ (results : List α) (others : List (Member σ ε α)),
    members = results.map Member.returned ++ .raised e :: others

theorem FailsFirst.fails {members : List (Member σ ε α)} {e : ε} (h : FailsFirst members e) :
    Fails members e := by
  obtain ⟨results, others, rfl⟩ := h
  exact List.mem_append_right _ List.mem_cons_self

namespace Conducts

variable {fails : List (Member σ ε α) → ε → Prop} {values : β → List α}

theorem mono {fails' : List (Member σ ε α) → ε → Prop} (hmono : ∀ members e, fails members e → fails' members e)
    {members begun s} {u : Turn σ ε β} (h : Conducts fails values members begun s u) :
    Conducts fails' values members begun s u := by
  induction h with
  | turn front hbegun hturn _ ih => exact .turn front hbegun hturn ih
  | exhausted front hbegun ht => exact .exhausted front hbegun ht
  | paused _ ih => exact .paused ih
  | done hall => exact .done hall
  | failed hf => exact .failed (hmono _ _ hf)

theorem map {f : γ → β} {members begun s} {u : Turn σ ε γ}
    (h : Conducts fails (fun c => values (f c)) members begun s u) :
    Conducts fails values members begun s (u.bind fun c => pure (f c)) := by
  induction h with
  | turn front hbegun hturn _ ih => exact .turn front hbegun hturn ih
  | exhausted front hbegun ht => exact .exhausted front hbegun ht
  | paused _ ih => exact .paused ih
  | done hall => exact .done hall
  | failed hf => exact .failed hf

/-- A task and what follows it, as the turns of one member. -/
theorem lead {f : α → Task σ ε β} (front) {others t begun s} (hbegun : front.length ≤ begun)
    (hfail : ∀ e, fails (front ++ .raised e :: others) e)
    (hnext : ∀ a s', Conducts fails values (front ++ .returned a :: others)
      (max begun (front.length + 1)) s' (f a s')) :
    Conducts fails values (front ++ .running t :: others) begun s ((t s).bind f) := by
  generalize hw : t s = w
  induction w generalizing t begun s with
  | done s' a => exact .turn _ hbegun (by rw [Member.turn, hw, Turn.leaves]; rfl) (hnext a s')
  | failed s' e => exact .turn _ hbegun (by rw [Member.turn, hw, Turn.leaves]; rfl) (.failed (hfail e))
  | paused s' rest ih =>
    refine .turn _ hbegun (by rw [Member.turn, hw, Turn.leaves]) (.paused fun s'' => ?_)
    refine ih s'' (by omega) (fun a s₁ => ?_) rfl
    rw [Nat.max_assoc, Nat.max_self]
    exact hnext a s₁
  | exhausted => exact .exhausted _ hbegun hw

end Conducts

/-! ## One after the other -/

theorem sequence_conducts_from (tasks : List (Task σ ε α)) (front : List α) (s : σ) :
    Conducts FailsFirst (front ++ ·) (front.map Member.returned ++ tasks.map .running) front.length s
      (sequence tasks s) := by
  induction tasks generalizing front s with
  | nil => exact .done (by rw [List.map_nil, List.append_nil, List.append_nil])
  | cons t ts ih =>
    refine Conducts.lead _ (Nat.le_of_eq (List.length_map _)) (fun e => ⟨front, _, rfl⟩) fun a s' => ?_
    refine Conducts.map (f := (a :: ·)) ?_
    have hrest := ih (front ++ [a]) s'
    simp only [List.map_append, List.append_assoc, List.length_append] at hrest
    rw [List.length_map, Nat.max_eq_right (Nat.le_succ _)]
    exact hrest

theorem sequence_conducts (tasks : List (Task σ ε α)) (s : σ) :
    Conducts FailsFirst id (tasks.map .running) 0 s (sequence tasks s) :=
  sequence_conducts_from tasks [] s

/-! ## Few side by side -/

namespace Conducts

variable {values : β → List α}

/-- One more member in front, which has its result already. -/
theorem behind {members begun s} {u : Turn σ ε β} (a : α) (h : Conducts Fails values members begun s u) :
    Conducts Fails (fun p => p.1 :: values p.2) (.returned a :: members) (begun + 1) s
      (u.bind fun b => pure (a, b)) := by
  induction h with
  | turn front hbegun hturn _ ih =>
    refine .turn (.returned a :: front) (by simpa using hbegun) hturn ?_
    rwa [List.length_cons, Nat.add_max_add_right]
  | exhausted front hbegun ht =>
    exact .exhausted (.returned a :: front) (by simpa using hbegun) ht
  | paused _ ih => exact .paused ih
  | done hall => exact .done (by rw [hall, List.map_cons])
  | failed hf => exact .failed (List.mem_cons_of_mem _ hf)

/-- The first of two side by side has paused, the others have their turn `u`. -/
theorem beside_paused {members begun s t} {u : Turn σ ε β}
    (hbeside : ∀ members begun s (others : Task σ ε β),
      (∀ s', Conducts Fails values members begun s' (others s')) →
      Conducts Fails (fun p => p.1 :: values p.2) (.running t :: members) (begun + 1) s
        ((t s).beside others))
    (h : Conducts Fails values members begun s u) :
    Conducts Fails (fun p => p.1 :: values p.2) (.running t :: members) (begun + 1) s
      (match u with
        | .done s b => .paused s fun s => (t s).bind fun a => pure (a, b)
        | .failed s e => .failed s e
        | .exhausted => .exhausted
        | .paused s u => .paused s fun s => (t s).beside u) := by
  induction h with
  | turn front hbegun hturn _ ih =>
    refine .turn (.running t :: front) (by simpa using hbegun) hturn ?_
    rwa [List.length_cons, Nat.add_max_add_right]
  | exhausted front hbegun ht =>
    exact .exhausted (.running t :: front) (by simpa using hbegun) ht
  | paused hrest _ => exact .paused fun s' => hbeside _ _ s' _ hrest
  | @done members begun s b hall =>
    refine .paused fun s' => lead [] (Nat.zero_le _) (fun e => List.mem_cons_self) ?_
    exact fun a s₁ => .done (by rw [hall]; rfl)
  | failed hf => exact .failed (List.mem_cons_of_mem _ hf)

/-- Two side by side, the second conducting members of its own; `started` counts all that have begun. -/
theorem beside {members} (begun) {started s t} {others : Task σ ε β} (hstarted : max started 1 = begun + 1)
    (h : ∀ s', Conducts Fails values members begun s' (others s')) :
    Conducts Fails (fun p => p.1 :: values p.2) (.running t :: members) started s
      ((t s).beside others) := by
  generalize hw : t s = w
  induction w generalizing t members begun started s others with
  | done s' a =>
    refine .turn [] (Nat.zero_le _) (by rw [Member.turn, hw, Turn.leaves]) ?_
    rw [List.length_nil, Nat.zero_add, hstarted]
    exact (h s').behind a
  | failed s' e =>
    refine .turn [] (Nat.zero_le _) (by rw [Member.turn, hw, Turn.leaves]) ?_
    exact .failed List.mem_cons_self
  | paused s' rest ih =>
    refine .turn [] (Nat.zero_le _) (by rw [Member.turn, hw, Turn.leaves]) ?_
    rw [List.length_nil, Nat.zero_add, hstarted]
    rw [Turn.beside]
    exact beside_paused (fun ms k s₁ us hus => ih s₁ k (by omega) hus rfl) (h s')
  | exhausted => exact .exhausted [] (Nat.zero_le _) hw

end Conducts

theorem gatherFew_conducts (tasks : List (Task σ ε α)) (s : σ) :
    Conducts Fails id (tasks.map .running) 0 s (gatherFew tasks s) := by
  induction tasks generalizing s with
  | nil => exact .done rfl
  | cons t ts ih => exact Conducts.map (Conducts.beside 0 rfl ih)

/-! ## Many side by side -/

/-- Those that have not begun are still to run. -/
def Fresh (members : List (Member σ ε α)) (begun : Nat) : Prop :=
  ∀ m ∈ members.drop begun, ∃ t, m = .running t

theorem Fresh.turn {front others : List (Member σ ε α)} {m begun}
    (h : Fresh (front ++ m :: others) begun) (m' : Member σ ε α) :
    Fresh (front ++ m' :: others) (max begun (front.length + 1)) := by
  intro x hx
  refine h x ?_
  have hle : front.length + 1 ≤ max begun (front.length + 1) := Nat.le_max_right ..
  obtain ⟨k, hk⟩ := Nat.exists_eq_add_of_le hle
  rw [hk, List.drop_append, List.drop_eq_nil_of_le (by omega), List.nil_append,
    show front.length + 1 + k - front.length = k + 1 by omega, List.drop_succ_cons] at hx
  have hmax : begun ≤ front.length + 1 + k := hk ▸ Nat.le_max_left ..
  rw [List.drop_append]
  refine List.mem_append_right _ ?_
  rcases Nat.lt_or_ge front.length begun with hlt | hge
  · obtain ⟨j, hj⟩ := Nat.exists_eq_add_of_lt hlt
    rw [show begun - front.length = j + 1 by omega, List.drop_succ_cons]
    exact (List.drop_sublist_drop_left others (by omega)).subset hx
  · rw [Nat.sub_eq_zero_of_le hge, List.drop_zero]
    exact List.mem_cons_of_mem _ (List.mem_of_mem_drop hx)

/-- One that has a result or a failure has begun. -/
theorem Fresh.settled {front others : List (Member σ ε α)} {r begun}
    (h : Fresh (front ++ .settled r :: others) begun) (hbegun : front.length ≤ begun) :
    front.length + 1 ≤ begun := by
  rcases Nat.lt_or_eq_of_le hbegun with hlt | heq
  · exact hlt
  · subst heq
    rw [Fresh, List.drop_left] at h
    obtain ⟨t, ht⟩ := h _ List.mem_cons_self
    cases ht

theorem fresh_of_length_le {members : List (Member σ ε α)} {begun} (h : members.length ≤ begun) :
    Fresh members begun := by
  intro m hm
  rw [List.drop_eq_nil_of_le h] at hm
  cases hm

section Many

variable {fails : List (Member σ ε α) → ε → Prop} {values : β → List α} {front : List (Member σ ε α)}
  {n : Nat}

/-- A sweep begins whoever has not begun: after it all have. -/
theorem sweep_conducts {next : Nat → List (Member σ ε α) → Task σ ε β}
    (hnext : ∀ pauses members s, members.length = n →
      Conducts fails values (front ++ members) (front.length + n) s (next pauses members s))
    (pauses : Nat) (before after : List (Member σ ε α)) (begun : Nat) (s : σ)
    (hn : before.length + after.length = n) (hbegun : front.length + before.length ≤ begun)
    (hle : begun ≤ front.length + n) (hfresh : Fresh (front ++ before.reverse ++ after) begun) :
    Conducts fails values (front ++ before.reverse ++ after) begun s
      (sweep next pauses before after s) := by
  induction after generalizing pauses before begun s with
  | nil =>
    rw [List.length_nil] at hn
    rw [sweep, List.append_nil, show begun = front.length + n by omega]
    exact hnext pauses _ s (by rw [List.length_reverse]; omega)
  | cons m after ih =>
    have hpos : (front ++ before.reverse).length = front.length + before.length := by
      rw [List.length_append, List.length_reverse]
    have hshift : ∀ m' : Member σ ε α,
        front ++ before.reverse ++ m' :: after = front ++ (m' :: before).reverse ++ after := by
      intro m'
      rw [List.reverse_cons]
      simp only [List.append_assoc, List.singleton_append]
    rw [List.length_cons] at hn
    cases m with
    | settled r =>
      have hsettled := hfresh.settled (by omega)
      rw [sweep, hshift]
      rw [hshift] at hfresh
      exact ih _ _ _ _ (by rw [List.length_cons]; omega) (by rw [List.length_cons]; omega) hle hfresh
    | running t =>
      -- Whatever the turn leaves, the rest of the sweep goes on behind it.
      have hrest : ∀ (m' : Member σ ε α) pauses s', Conducts fails values
          (front ++ before.reverse ++ m' :: after) (max begun ((front ++ before.reverse).length + 1)) s'
          (sweep next pauses (m' :: before) after s') := by
        intro m' pauses s'
        have hfresh' := hfresh.turn m'
        rw [hshift] at hfresh' ⊢
        exact ih _ _ _ _ (by rw [List.length_cons]; omega) (by rw [List.length_cons]; omega) (by omega)
          hfresh'
      have hturn : (front ++ before.reverse).length ≤ begun := by omega
      cases hw : t s with
      | done s' a =>
        simp only [sweep, hw]
        exact .turn _ hturn (by rw [Member.turn, hw, Turn.leaves]) (hrest _ _ s')
      | failed s' e =>
        simp only [sweep, hw]
        exact .turn _ hturn (by rw [Member.turn, hw, Turn.leaves]) (hrest _ _ s')
      | paused s' rest =>
        simp only [sweep, hw]
        refine .turn _ hturn (by rw [Member.turn, hw, Turn.leaves]) ?_
        split
        · exact hrest _ _ s'
        · exact .paused fun s'' => hrest _ _ s''
      | exhausted =>
        simp only [sweep, hw]
        exact .exhausted _ hturn hw

theorem sweep_conducts_all {next : Nat → List (Member σ ε α) → Task σ ε β}
    (hnext : ∀ pauses members s, members.length = n →
      Conducts fails values (front ++ members) (front.length + n) s (next pauses members s))
    (pauses : Nat) (members : List (Member σ ε α)) (begun : Nat) (s : σ) (hn : members.length = n)
    (hbegun : front.length ≤ begun) (hle : begun ≤ front.length + n)
    (hfresh : Fresh (front ++ members) begun) :
    Conducts fails values (front ++ members) begun s (sweep next pauses [] members s) := by
  have h := sweep_conducts hnext pauses [] members begun s (by rwa [List.length_nil, Nat.zero_add])
    hbegun hle
  rw [List.reverse_nil, List.append_nil] at h
  exact h hfresh

theorem lead_conducts {next : α → List (Member σ ε α) → Task σ ε β}
    (hfail : ∀ e others, fails (front ++ .raised e :: others) e)
    (hnext : ∀ a others begun s, others.length = n → front.length + 1 ≤ begun →
      begun ≤ front.length + 1 + n → Fresh (front ++ .returned a :: others) begun →
      Conducts fails values (front ++ .returned a :: others) begun s (next a others s))
    (t : Task σ ε α) (pauses : Nat) (others : List (Member σ ε α)) (begun : Nat) (s : σ)
    (hn : others.length = n) (hbegun : front.length ≤ begun) (hle : begun ≤ front.length + 1 + n)
    (hfresh : Fresh (front ++ .running t :: others) begun) :
    Conducts fails values (front ++ .running t :: others) begun s (lead next (t s) pauses others) := by
  generalize hw : t s = w
  induction w generalizing t pauses others begun s with
  | done s' a =>
    refine .turn _ hbegun (by rw [Member.turn, hw, Turn.leaves]) ?_
    exact hnext a others _ s' hn (Nat.le_max_right ..) (by omega) (hfresh.turn _)
  | failed s' e =>
    exact .turn _ hbegun (by rw [Member.turn, hw, Turn.leaves]; rfl) (.failed (hfail e others))
  | paused s' rest ih =>
    refine .turn _ hbegun (by rw [Member.turn, hw, Turn.leaves]) ?_
    have hall : ∀ members : List (Member σ ε α),
        front ++ .running rest :: members = front ++ [.running rest] ++ members := by
      intro members
      rw [List.append_assoc, List.singleton_append]
    have hlen : (front ++ [Member.running rest]).length = front.length + 1 := by
      rw [List.length_append, List.length_singleton]
    have hsweep : ∀ pauses s'', Conducts fails values (front ++ .running rest :: others)
        (max begun (front.length + 1)) s''
        (sweep (fun pauses others s => lead next (rest s) pauses others) pauses [] others s'') := by
      intro pauses s''
      have hfresh' := hfresh.turn (.running rest)
      rw [hall] at hfresh' ⊢
      refine sweep_conducts_all (n := n) (fun pauses members s₁ hmembers => ?_) pauses others _ s'' hn
        (by omega) (by omega) hfresh'
      rw [← hall]
      exact ih s₁ rest pauses members _ s₁ hmembers (by omega) (by omega)
        (fresh_of_length_le (by rw [List.length_append, List.length_cons]; omega)) rfl
    rw [lead]
    split
    · exact hsweep 1 s'
    · exact .paused fun s'' => hsweep 0 s''
  | exhausted => exact .exhausted _ hbegun hw

end Many

theorem collect_returned (count : Nat) (a : α) (others : List (Member σ ε α)) (s : σ) :
    collect (count + 1) (.settled (.ok a) :: others) s =
      (collect count others s).bind fun as => pure (a :: as) := rfl

theorem collect_raised (count : Nat) (e : ε) (others : List (Member σ ε α)) (s : σ) :
    collect (count + 1) (.settled (.error e) :: others) s = .failed s e := rfl

theorem collect_running (count : Nat) (t : Task σ ε α) (others : List (Member σ ε α)) (s : σ) :
    collect (count + 1) (.running t :: others) s =
      lead (fun a others s => (collect count others s).bind fun as => pure (a :: as)) (t s) 0 others := rfl

theorem collect_conducts (count : Nat) (results : List α) (members : List (Member σ ε α)) (begun : Nat)
    (s : σ) (hcount : members.length = count) (hbegun : results.length ≤ begun)
    (hle : begun ≤ results.length + count)
    (hfresh : Fresh (results.map Member.returned ++ members) begun) :
    Conducts FailsFirst (results ++ ·) (results.map Member.returned ++ members) begun s
      (collect count members s) := by
  induction count generalizing results members begun s with
  | zero =>
    rw [List.eq_nil_of_length_eq_zero hcount] at *
    exact .done (by rw [List.append_nil, List.append_nil])
  | succ count ih =>
    -- The first member's result is taken, and the others go on as before.
    have htake : ∀ (a : α) (others : List (Member σ ε α)) begun s, others.length = count →
        results.length + 1 ≤ begun → begun ≤ results.length + 1 + count →
        Fresh (results.map Member.returned ++ .returned a :: others) begun →
        Conducts FailsFirst (results ++ ·) (results.map Member.returned ++ .returned a :: others) begun s
          ((collect count others s).bind fun as => pure (a :: as)) := by
      intro a others begun s hothers hbegun hle hfresh
      refine Conducts.map (f := (a :: ·)) ?_
      have hcut : results.map (Member.returned (σ := σ) (ε := ε)) ++ .returned a :: others =
          (results ++ [a]).map Member.returned ++ others := by
        rw [List.map_append, List.append_assoc]
        rfl
      rw [hcut] at hfresh ⊢
      have hrest := ih (results ++ [a]) others begun s hothers
        (by rw [List.length_append, List.length_singleton]; omega)
        (by rw [List.length_append, List.length_singleton]; omega) hfresh
      simpa only [List.append_assoc, List.singleton_append] using hrest
    obtain ⟨m, others, rfl⟩ := List.exists_cons_of_length_eq_add_one hcount
    rw [List.length_cons, Nat.add_right_cancel_iff] at hcount
    have hlen : (results.map (Member.returned (σ := σ) (ε := ε))).length = results.length :=
      List.length_map _
    have hfront : (results.map (Member.returned (σ := σ) (ε := ε))).length ≤ begun := hlen ▸ hbegun
    rcases m with t | e | a
    · rw [collect_running]
      refine lead_conducts (n := count) (fun e others => ⟨results, others, rfl⟩) ?_ t 0 others begun s
        hcount hfront (by rw [hlen]; omega) hfresh
      intro a others begun s hothers hbegun hle hfresh
      rw [hlen] at hbegun hle
      exact htake a others begun s hothers hbegun hle hfresh
    · rw [collect_raised]
      exact .failed ⟨results, others, rfl⟩
    · have hsettled := hfresh.settled hfront
      rw [hlen] at hsettled
      rw [collect_returned]
      exact htake a others begun s hcount (by omega) (by omega) hfresh

theorem gatherMany_conducts (tasks : List (Task σ ε α)) (s : σ) :
    Conducts FailsFirst id (tasks.map .running) 0 s (gatherMany tasks s) := by
  refine collect_conducts tasks.length [] _ 0 s (List.length_map _) (Nat.zero_le _) (Nat.zero_le _) ?_
  intro m hm
  obtain ⟨t, -, rfl⟩ := List.mem_map.1 hm
  exact ⟨t, rfl⟩

theorem gather_conducts (tasks : List (Task σ ε α)) (s : σ) :
    Conducts Fails id (tasks.map .running) 0 s (gather tasks s) := by
  rw [gather]
  split
  · exact gatherFew_conducts tasks s
  · exact (gatherMany_conducts tasks s).mono fun _ _ => FailsFirst.fails

end Task

end ScriptValues
