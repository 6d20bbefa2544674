/-
The course of a gathering as a list of moments: a member has a turn, or the gathering has paused and finds
the state that others have left. A list of moments can be played from the members and the state at the
start (`play`), and nothing but the turns of members changes the state between two pauses.

`Conducts.history`: whatever states a conductor finds after its pauses, its course is such a list; in it
members begin in their order, none left out and each once, and the end of the course can be told from the
members alone (`Accounts`).
-/
import ScriptValues.Proofs.Task.Conduct

namespace ScriptValues

variable {σ ε α β : Type}

/-- Where a turn has got to when the states found after its pauses are those given, in order. -/
def Turn.after : Turn σ ε α → List σ → Turn σ ε α
  | .paused _ rest, s :: given => (rest s).after given
  | u, _ => u

@[simp] theorem Turn.after_nil (u : Turn σ ε α) : u.after [] = u := by
  cases u <;> rfl

@[simp] theorem Turn.after_done (s : σ) (a : α) (given : List σ) :
    (Turn.done s a : Turn σ ε α).after given = .done s a := by
  cases given <;> rfl

@[simp] theorem Turn.after_failed (s : σ) (e : ε) (given : List σ) :
    (Turn.failed s e : Turn σ ε α).after given = .failed s e := by
  cases given <;> rfl

@[simp] theorem Turn.after_exhausted (given : List σ) :
    (Turn.exhausted : Turn σ ε α).after given = .exhausted := by
  cases given <;> rfl

/-- What follows without a pause does not change how far a turn gets. -/
theorem Turn.after_bind {f : α → Task σ ε β} (hf : ∀ a s given, (f a s).after given = f a s)
    (u : Turn σ ε α) (given : List σ) : (u.bind f).after given = (u.after given).bind f := by
  induction u generalizing given with
  | done s a => rw [after_done]; exact hf a s given
  | failed s e => rw [after_failed]; exact after_failed ..
  | paused s rest ih =>
    cases given with
    | nil => rw [after_nil, after_nil]
    | cons s' given => exact ih s' given
  | exhausted => rw [after_exhausted]; exact after_exhausted ..

namespace Task

/-- A moment in the course of a gathering. -/
inductive Moment (σ : Type)
  /-- A member has a turn. -/
  | turn (member : Nat)
  /-- The gathering has paused, and goes on in this state. -/
  | resumed (s : σ)

/-- The members after their turns and the state then; none if one cannot have its turn. -/
def play : List (Moment σ) → List (Member σ ε α) → σ → Option (List (Member σ ε α) × σ)
  | [], members, s => some (members, s)
  | .resumed s :: moments, members, _ => play moments members s
  | .turn i :: moments, members, s => do
    let m ← members[i]?
    let (m', s') ← m.turn s
    play moments (members.set i m') s'

/-- Who has turns, in order. -/
def turns (moments : List (Moment σ)) : List Nat :=
  moments.filterMap fun
    | .turn i => some i
    | .resumed _ => none

/-- The states found after the pauses, in order. -/
def resumptions (moments : List (Moment σ)) : List σ :=
  moments.filterMap fun
    | .turn _ => none
    | .resumed s => some s

/-- What the members tell of the turn that a conductor has got to in the state `s`. -/
def Accounts (fails : List (Member σ ε α) → ε → Prop) (values : β → List α)
    (members : List (Member σ ε α)) (s : σ) : Turn σ ε β → Prop
  | .done s' b => s' = s ∧ members = (values b).map Member.returned
  | .failed s' e => s' = s ∧ fails members e
  | .paused s' _ => s' = s
  | .exhausted => ∃ t, .running t ∈ members ∧ t s = .exhausted

theorem play_turn {front others : List (Member σ ε α)} {m m' : Member σ ε α} {s s' : σ}
    (hturn : m.turn s = some (m', s')) (moments : List (Moment σ)) :
    play (.turn front.length :: moments) (front ++ m :: others) s =
      play moments (front ++ m' :: others) s' := by
  have hget : (front ++ m :: others)[front.length]? = some m := by
    rw [List.getElem?_append_right (Nat.le_refl _), Nat.sub_self, List.getElem?_cons_zero]
  have hset : (front ++ m :: others).set front.length m' = front ++ m' :: others := by
    rw [List.set_append_right _ _ (Nat.le_refl _), Nat.sub_self, List.set_cons_zero]
  rw [play, hget, ← hset]
  change (m.turn s >>= _) = _
  rw [hturn]
  rfl

/-- The first turns from number `k` on, when the turn of `k` is first. -/
theorem eraseDups_filter_cons (k : Nat) (l : List Nat) :
    ((k :: l).filter (k ≤ ·)).eraseDups = k :: (l.filter (k + 1 ≤ ·)).eraseDups := by
  rw [List.filter_cons_of_pos (by simp), List.eraseDups_cons, List.filter_filter]
  congr 2
  refine List.filter_congr fun i _ => ?_
  rw [Bool.eq_iff_iff]
  simp only [Bool.and_eq_true, Bool.not_eq_true', beq_eq_false_iff_ne, decide_eq_true_eq]
  omega

/-- The moments lead from `members`, `begun` of which have begun, to `members'`, and the states found after
the pauses are the first of those given. -/
structure Course (members : List (Member σ ε α)) (begun : Nat) (s : σ) (given : List σ)
    (moments : List (Moment σ)) (members' : List (Member σ ε α)) (begun' : Nat) (s' : σ) : Prop where
  played : play moments members s = some (members', s')
  le : begun ≤ begun'
  inOrder : ((turns moments).filter (begun ≤ ·)).eraseDups = List.range' begun (begun' - begun)
  fresh : Fresh members' begun'
  length : members'.length = members.length
  within : begun ≤ members.length → begun' ≤ members.length
  found : resumptions moments <+: given

section Course

variable {members others front : List (Member σ ε α)} {begun : Nat} {s : σ} {given : List σ}
  {moments : List (Moment σ)} {members' : List (Member σ ε α)} {begun' : Nat} {s' : σ}

theorem Course.nil (hfresh : Fresh members begun) : Course members begun s given [] members begun s :=
  ⟨rfl, Nat.le_refl _, by rw [Nat.sub_self]; rfl, hfresh, rfl, id, List.nil_prefix⟩

theorem Course.resumed {s₁ : σ} (h : Course members begun s₁ given moments members' begun' s') :
    Course members begun s (s₁ :: given) (.resumed s₁ :: moments) members' begun' s' :=
  ⟨h.played, h.le, h.inOrder, h.fresh, h.length, h.within, List.cons_prefix_cons.2 ⟨rfl, h.found⟩⟩

theorem Course.turn {m m' : Member σ ε α} {s₁ : σ} (hbegun : front.length ≤ begun)
    (hturn : m.turn s = some (m', s₁))
    (h : Course (front ++ m' :: others) (max begun (front.length + 1)) s₁ given moments members' begun' s') :
    Course (front ++ m :: others) begun s given (.turn front.length :: moments) members' begun' s' := by
  have hle := h.le
  have hturns := h.inOrder
  have hlen : (front ++ m' :: others).length = (front ++ m :: others).length := by
    rw [List.length_append, List.length_append, List.length_cons, List.length_cons]
  have hfront : front.length + 1 ≤ (front ++ m :: others).length := by
    rw [List.length_append, List.length_cons]
    omega
  refine ⟨by rw [play_turn hturn, h.played], by omega, ?_, h.fresh, h.length.trans hlen,
    fun hwithin => hlen ▸ h.within (by omega), h.found⟩
  change ((front.length :: turns moments).filter _).eraseDups = _
  rcases Nat.lt_or_eq_of_le hbegun with hlt | heq
  · rw [Nat.max_eq_left hlt] at hturns
    rwa [List.filter_cons_of_neg (by simpa using hlt)]
  · subst heq
    rw [Nat.max_eq_right (Nat.le_succ _)] at hturns hle
    rw [eraseDups_filter_cons, hturns,
      show begun' - front.length = begun' - (front.length + 1) + 1 by omega, List.range'_succ]

/-- When all have results, all have begun. -/
theorem Course.begun_eq {results : List α} (h : Course members begun s given moments members' begun' s')
    (hall : members' = results.map Member.returned) (hwithin : begun ≤ members.length) :
    begun' = members.length := by
  have hle := h.within hwithin
  rcases Nat.lt_or_eq_of_le hle with hlt | heq
  · have hlen := h.length
    obtain ⟨m, hm⟩ : ∃ m, m ∈ members'.drop begun' :=
      List.exists_mem_of_length_pos (by rw [List.length_drop]; omega)
    obtain ⟨t, rfl⟩ := h.fresh m hm
    rw [hall] at hm
    obtain ⟨a, -, ha⟩ := List.mem_map.1 (List.mem_of_mem_drop hm)
    cases ha
  · exact heq

end Course

/-- **The course of a conductor** is a list of turns of its members and of resumptions with the states
given, and what it has got to can be told from the members. -/
theorem Conducts.history {fails : List (Member σ ε α) → ε → Prop} {values : β → List α}
    {members begun s} {u : Turn σ ε β} (h : Conducts fails values members begun s u)
    (hfresh : Fresh members begun) (given : List σ) :
    ∃ moments members' begun' s', Course members begun s given moments members' begun' s' ∧
      Accounts fails values members' s' (u.after given) ∧
      ∀ s₁ rest, u.after given = .paused s₁ rest → resumptions moments = given := by
  induction h generalizing given with
  | turn front hbegun hturn _ ih =>
    obtain ⟨moments, members', begun', s', hcourse, hrest⟩ := ih (hfresh.turn _) given
    exact ⟨_, members', begun', s', hcourse.turn hbegun hturn, hrest⟩
  | @exhausted front others t begun s _ ht =>
    refine ⟨[], _, _, s, .nil hfresh, ?_⟩
    rw [Turn.after_exhausted]
    exact ⟨⟨t, List.mem_append_right _ List.mem_cons_self, ht⟩, fun _ _ h => nomatch h⟩
  | @paused members begun s rest _ ih =>
    cases given with
    | nil => exact ⟨[], _, _, s, .nil hfresh, rfl, fun _ _ _ => rfl⟩
    | cons s₁ given =>
      obtain ⟨moments, members', begun', s', hcourse, hend, hall⟩ := ih s₁ hfresh given
      refine ⟨_, members', begun', s', hcourse.resumed, hend, fun s₂ rest' h => ?_⟩
      exact congrArg (s₁ :: ·) (hall s₂ rest' h)
  | @done members begun s b hall =>
    refine ⟨[], _, _, s, .nil hfresh, ?_⟩
    rw [Turn.after_done]
    exact ⟨⟨rfl, hall⟩, fun _ _ h => nomatch h⟩
  | @failed members begun s e hf =>
    refine ⟨[], _, _, s, .nil hfresh, ?_⟩
    rw [Turn.after_failed]
    exact ⟨⟨rfl, hf⟩, fun _ _ h => nomatch h⟩

end Task

end ScriptValues
