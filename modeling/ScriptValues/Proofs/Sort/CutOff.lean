/-
A comparison that fails, at whatever call, ends the sort at that call. To say so the calls are counted: a
comparison that keeps a record of its calls (`recorded`) sorts as it does without (`forget_mergeSort`), and one
that fails once it has answered `k` calls (`failingAfter`) does the same as the recorded one up to then.

`cutOff_perform` goes through the sort's tree of questions: up to `k` calls both are at the same question, and
past that the record of the unfailing run only grows (`begins_perform`).
-/
import ScriptValues.Proofs.Sort.Inquiry
import ScriptValues.Proofs.Task.Exchange

namespace ScriptValues

variable {σ ρ ε α β : Type}

/-! ## Turns beside which something is kept -/

namespace Turn

/-- The turn with something kept beside its state. What others put there at the pauses is not looked at. -/
def keeping (r : ρ) : Turn σ ε α → Turn (σ × ρ) ε α
  | .done s a => .done (s, r) a
  | .failed s e => .failed (s, r) e
  | .paused s rest => .paused (s, r) fun p => (rest p.1).keeping r
  | .exhausted => .exhausted

/-- The turn without what is kept beside its state. -/
def forget : Turn (σ × ρ) ε α → Turn σ ε α
  | .done p a => .done p.1 a
  | .failed p e => .failed p.1 e
  | .paused p rest => .paused p.1 fun s => (rest (s, p.2)).forget
  | .exhausted => .exhausted

theorem forget_bind_keeping (u : Turn σ ε α) (r : ρ) (f : α → Task (σ × ρ) ε β) :
    ((u.keeping r).bind f).forget = u.bind fun a s => (f a (s, r)).forget := by
  induction u with
  | done s a => rfl
  | failed s e => rfl
  | paused s rest ih => simp only [keeping, bind, forget, ih]
  | exhausted => rfl

theorem after_keeping (u : Turn σ ε α) (r : ρ) (given : List (σ × ρ)) :
    (u.keeping r).after given = (u.after (given.map Prod.fst)).keeping r := by
  induction u generalizing given with
  | done s a => rw [after_done]; exact after_done ..
  | failed s e => rw [after_failed]; exact after_failed ..
  | paused s rest ih =>
    cases given with
    | nil => rw [after_nil, List.map_nil, after_nil]
    | cons p given => exact ih p.1 given
  | exhausted => rw [after_exhausted]; exact after_exhausted ..

theorem after_bind_keeping (u : Turn σ ε α) (r : ρ) (f : α → Task (σ × ρ) ε β) (given : List (σ × ρ)) :
    ((u.keeping r).bind f).after given =
      match u.after (given.map Prod.fst) with
      | .done s a => (f a (s, r)).after ((u.keeping r).unused given)
      | .failed s e => .failed (s, r) e
      | .paused s rest => .paused (s, r) fun p => ((rest p.1).keeping r).bind f
      | .exhausted => .exhausted := by
  rw [after_bind_eq, after_keeping]
  cases u.after (given.map Prod.fst) with
  | done s a => rfl
  | failed s e => rfl
  | paused s rest => rfl
  | exhausted => rfl

end Turn

end ScriptValues

namespace ScriptValues.Sort

variable {σ ε α β : Type}

/-- The comparison with a record of its calls, in their order. -/
def recorded (precedes : α → α → Task σ ε Bool) (a c : α) : Task (σ × List (α × α)) ε Bool :=
  fun (s, calls) => (precedes a c s).keeping (calls ++ [(a, c)])

/-- The comparison until there are `k` calls on record; the next call fails with `e`. -/
def failingAfter (k : Nat) (e : ε) (precedes : α → α → Task σ ε Bool) (a c : α) :
    Task (σ × List (α × α)) ε Bool :=
  fun (s, calls) =>
    if calls.length = k then .failed (s, calls ++ [(a, c)]) e else recorded precedes a c (s, calls)

variable (precedes : α → α → Task σ ε Bool)

/-- With a record or without, the sort is the same. -/
theorem forget_mergeSort (xs : List α) (s : σ) (calls : List (α × α)) :
    (mergeSort (recorded precedes) xs (s, calls)).forget = mergeSort precedes xs s := by
  rw [mergeSort_eq_perform (recorded precedes), mergeSort_eq_perform precedes]
  induction mergeSort Inquiry.question xs generalizing s calls with
  | result out => rfl
  | ask a c next ih =>
    change (((precedes a c s).keeping _).bind _).forget = (precedes a c s).bind _
    rw [Turn.forget_bind_keeping]
    exact congrArg _ (funext fun answer => funext fun s' => ih answer s' _)

/-! ## The record -/

/-- The record begins with these calls. -/
def Begins (calls : List (α × α)) : Turn (σ × List (α × α)) ε β → Prop
  | .done (_, r) _ => calls <+: r
  | .failed (_, r) _ => calls <+: r
  | .paused (_, r) _ => calls <+: r
  | .exhausted => True

theorem Begins.trans {calls r : List (α × α)} {u : Turn (σ × List (α × α)) ε β} (h : calls <+: r)
    (hu : Begins r u) : Begins calls u := by
  cases u with
  | done p a => exact h.trans hu
  | failed p e => exact h.trans hu
  | paused p rest => exact h.trans hu
  | exhausted => exact trivial

/-- A call is on record when it ends, and stays there if what follows keeps the record. -/
theorem begins_recorded {a c : α} {s : σ} {calls : List (α × α)} {f : Bool → Task (σ × List (α × α)) ε β}
    (hf : ∀ answer s' given, Begins (calls ++ [(a, c)]) ((f answer (s', calls ++ [(a, c)])).after given))
    (given : List (σ × List (α × α))) :
    Begins (calls ++ [(a, c)]) (((recorded precedes a c (s, calls)).bind f).after given) := by
  change Begins _ ((((precedes a c s).keeping (calls ++ [(a, c)])).bind f).after given)
  rw [Turn.after_bind_keeping]
  cases (precedes a c s).after (given.map Prod.fst) with
  | done s' answer => exact hf answer s' _
  | failed s' e => exact List.prefix_refl _
  | paused s' rest => exact List.prefix_refl _
  | exhausted => exact trivial

theorem begins_perform (t : Inquiry α β) (s : σ) (calls : List (α × α)) (given : List (σ × List (α × α))) :
    Begins calls ((t.perform (recorded precedes) (s, calls)).after given) := by
  induction t generalizing s calls given with
  | result b =>
    change Begins calls (Turn.after (.done (s, calls) b) given)
    rw [Turn.after_done]
    exact List.prefix_refl calls
  | ask a c next ih =>
    exact .trans (List.prefix_append calls [(a, c)])
      (begins_recorded precedes (fun answer s' given => ih answer s' _ given) given)

/-! ## The failing run beside the unfailing one -/

/-- How a run whose comparison fails after `k` calls stands beside the `whole` run. If the whole run has made more
calls, the other one has failed at the call after the first `k`, with these calls on its record; otherwise both
are at the same point, in the same state and with the same record. -/
def CutOff (k : Nat) (e : ε) (whole cut : Turn (σ × List (α × α)) ε β) : Prop :=
  match whole with
  | .done (s, calls) b =>
    if k < calls.length then ∃ s', cut = .failed (s', calls.take (k + 1)) e else cut = .done (s, calls) b
  | .failed (s, calls) e' =>
    if k < calls.length then ∃ s', cut = .failed (s', calls.take (k + 1)) e else cut = .failed (s, calls) e'
  | .paused (s, calls) _ =>
    if k < calls.length then ∃ s', cut = .failed (s', calls.take (k + 1)) e
    else ∃ rest, cut = .paused (s, calls) rest
  | .exhausted => cut = .exhausted ∨ ∃ s' calls, calls.length = k + 1 ∧ cut = .failed (s', calls) e

/-- The whole run is past the failing call. -/
theorem CutOff.of_begins {k : Nat} {e : ε} {whole cut : Turn (σ × List (α × α)) ε β} {s : σ}
    {calls : List (α × α)} (h : Begins calls whole) (hlen : calls.length = k + 1)
    (hcut : cut = .failed (s, calls) e) : CutOff k e whole cut := by
  have hpast : ∀ {r : List (α × α)}, calls <+: r → k < r.length ∧ r.take (k + 1) = calls := by
    intro r hr
    refine ⟨?_, by rw [← hlen]; exact (List.prefix_iff_eq_take.1 hr).symm⟩
    have hle := hr.length_le
    omega
  cases whole with
  | done p b =>
    obtain ⟨hlt, htake⟩ := hpast h
    exact (if_pos hlt).mpr ⟨s, htake.symm ▸ hcut⟩
  | failed p e' =>
    obtain ⟨hlt, htake⟩ := hpast h
    exact (if_pos hlt).mpr ⟨s, htake.symm ▸ hcut⟩
  | paused p rest =>
    obtain ⟨hlt, htake⟩ := hpast h
    exact (if_pos hlt).mpr ⟨s, htake.symm ▸ hcut⟩
  | exhausted => exact .inr ⟨s, calls, hlen, hcut⟩

theorem cutOff_perform (k : Nat) (e : ε) (t : Inquiry α β) (s : σ) {calls : List (α × α)}
    (hlen : calls.length ≤ k) (given : List (σ × List (α × α))) :
    CutOff k e ((t.perform (recorded precedes) (s, calls)).after given)
      ((t.perform (failingAfter k e precedes) (s, calls)).after given) := by
  induction t generalizing s calls given with
  | result b =>
    change CutOff k e (Turn.after (.done (s, calls) b) given) (Turn.after (.done (s, calls) b) given)
    rw [Turn.after_done]
    exact (if_neg (Nat.not_lt.2 hlen)).mpr rfl
  | ask a c next ih =>
    have hmore : (calls ++ [(a, c)]).length = calls.length + 1 := List.length_append
    rcases Nat.eq_or_lt_of_le hlen with hfull | hroom
    · -- The call that fails: what the other run does next comes after it on the record.
      have hfails : failingAfter k e precedes a c (s, calls) = .failed (s, calls ++ [(a, c)]) e :=
        if_pos hfull
      have hbegins : Begins (calls ++ [(a, c)])
          (((Inquiry.ask a c next).perform (recorded precedes) (s, calls)).after given) :=
        begins_recorded precedes (fun answer s' given => begins_perform precedes (next answer) s' _ given) given
      have hcut : ((Inquiry.ask a c next).perform (failingAfter k e precedes) (s, calls)).after given =
          .failed (s, calls ++ [(a, c)]) e := by
        change ((failingAfter k e precedes a c (s, calls)).bind _).after given = _
        rw [hfails]
        exact Turn.after_failed ..
      exact .of_begins hbegins (by rw [hmore, hfull]) hcut
    · have hsame : failingAfter k e precedes a c (s, calls) = recorded precedes a c (s, calls) :=
        if_neg (Nat.ne_of_lt hroom)
      change CutOff k e ((((precedes a c s).keeping (calls ++ [(a, c)])).bind _).after given)
        (((failingAfter k e precedes a c (s, calls)).bind _).after given)
      rw [hsame]
      change CutOff k e _ ((((precedes a c s).keeping (calls ++ [(a, c)])).bind _).after given)
      rw [Turn.after_bind_keeping, Turn.after_bind_keeping]
      cases (precedes a c s).after (given.map Prod.fst) with
      | done s' answer => exact ih answer s' (by rw [hmore]; exact hroom) _
      | failed s' e' => exact (if_neg (by omega)).mpr rfl
      | paused s' rest => exact (if_neg (by omega)).mpr ⟨_, rfl⟩
      | exhausted => exact .inl rfl

/-- **A failing comparison cuts the sort off at that call.** Take any comparison, and let its call after the first
`k` fail with `e`. If the sort makes more than `k` calls as the comparison is, then it now fails with just `e`, and
the calls it has made are the first `k + 1` of the same calls; if it makes no more than `k`, nothing changes. This
holds at every point of the run, whatever states are found at the pauses. The calls are known by a record, and the
sort with the record is the sort without it. -/
theorem mergeSort_cutOff (k : Nat) (e : ε) (xs : List α) (s : σ) (given : List (σ × List (α × α))) :
    (mergeSort (recorded precedes) xs (s, [])).forget = mergeSort precedes xs s ∧
      CutOff k e ((mergeSort (recorded precedes) xs (s, [])).after given)
        ((mergeSort (failingAfter k e precedes) xs (s, [])).after given) := by
  refine ⟨forget_mergeSort precedes xs s [], ?_⟩
  have hnone : ([] : List (α × α)).length ≤ k := Nat.zero_le k
  rw [mergeSort_eq_perform (recorded precedes), mergeSort_eq_perform (failingAfter k e precedes)]
  exact cutOff_perform precedes k e _ s hnone given

end ScriptValues.Sort
