/-
What the sort asks of its comparison, whatever it is answered and however far it gets. `Inquiry.Asks` lists
the questions that a tree of questions puts one after the other, up to any point. A merge asks of what is left
of its two lists, the first against the first, and each answer takes one of them away (`Duel`); from this it
follows for the sort that an item is only ever compared with a later one of its list, no two items twice, and
how many questions there are at most (`Asks.sublist_of_mergeSort`, `Asks.nodup_of_mergeSort`,
`Asks.length_of_mergeSort`).

`perform_exchange` says that the calls of the comparison are just these questions; with it
`mergeSort_disciplined` is the statement about the sort under any comparison.
-/
import Mathlib.Algebra.Order.Group.Nat
import Mathlib.Data.List.Nodup
import Mathlib.Data.Nat.Log
import ScriptValues.Proofs.Sort.Dialogue
import ScriptValues.Proofs.Task.Exchange

open ScriptValues.Task

namespace ScriptValues.Sort

variable {α β γ : Type}

/-- The two that a question and its answer are about. -/
def asked (q : α × α × Bool) : α × α := (q.1, q.2.1)

/-- The tree puts these questions first, if it is answered somehow. -/
inductive Inquiry.Asks : Inquiry α β → List (α × α) → Prop
  | nil (t) : Asks t []
  | ask {a c next answer calls} : Asks (next answer) calls → Asks (.ask a c next) ((a, c) :: calls)

namespace Inquiry

theorem Leads.asks {t : Inquiry α β} {dialogue : List (α × α × Bool)} {b : β}
    (h : t.Leads dialogue b) : t.Asks (dialogue.map asked) := by
  induction h with
  | result b => exact .nil _
  | ask _ ih => exact .ask ih

namespace Asks

theorem of_pure {b : β} {calls : List (α × α)} (h : (pure b : Inquiry α β).Asks calls) : calls = [] := by
  cases h with
  | nil => rfl

/-- Either the first part is still asking, or it has come to a result and what follows asks. -/
theorem of_bind {t : Inquiry α β} {f : β → Inquiry α γ} {calls : List (α × α)}
    (h : (t >>= f).Asks calls) : t.Asks calls ∨ ∃ dialogue b rest,
      t.Leads dialogue b ∧ calls = dialogue.map asked ++ rest ∧ (f b).Asks rest := by
  change (t.bind f).Asks calls at h
  induction t generalizing calls with
  | result b => exact .inr ⟨[], b, calls, .result b, rfl, h⟩
  | ask a c next ih =>
    cases h with
    | nil => exact .inl (.nil _)
    | @ask _ _ _ answer _ hnext =>
      rcases ih answer hnext with hfirst | ⟨dialogue, b, rest, hleads, rfl, hrest⟩
      · exact .inl (.ask hfirst)
      · exact .inr ⟨(a, c, answer) :: dialogue, b, rest, .ask hleads, rfl, hrest⟩

theorem of_bind_pure {t : Inquiry α β} {f : β → γ} {calls : List (α × α)}
    (h : (t >>= fun b => pure (f b)).Asks calls) : t.Asks calls := by
  rcases of_bind h with hfirst | ⟨dialogue, b, rest, hleads, rfl, hrest⟩
  · exact hfirst
  · rw [of_pure hrest, List.append_nil]
    exact hleads.asks

end Asks

end Inquiry

/-! ## Merging -/

/-- The questions of a merge: the first of the one list against the first of the other, of which one goes. -/
inductive Duel : List α → List α → List (α × α) → Prop
  | stop {xs ys} : Duel xs ys []
  | left {x xs y ys calls} : Duel xs (y :: ys) calls → Duel (x :: xs) (y :: ys) ((x, y) :: calls)
  | right {x xs y ys calls} : Duel (x :: xs) ys calls → Duel (x :: xs) (y :: ys) ((x, y) :: calls)

theorem Inquiry.Asks.duel {xs ys : List α} {calls : List (α × α)}
    (h : (merge question xs ys).Asks calls) : Duel xs ys calls := by
  induction xs generalizing ys calls with
  | nil =>
    rw [merge] at h
    rw [of_pure h]
    exact .stop
  | cons x xs ihx =>
    induction ys generalizing calls with
    | nil =>
      simp only [merge] at h
      rw [of_pure h]
      exact .stop
    | cons y ys ihy =>
      rw [merge] at h
      cases h with
      | nil => exact .stop
      | @ask _ _ _ answer _ hrest =>
        cases answer with
        | true => exact .left (ihx (of_bind_pure hrest))
        | false => exact .right (ihy (of_bind_pure hrest))

namespace Duel

variable {xs ys : List α} {calls : List (α × α)}

theorem mem (h : Duel xs ys calls) : ∀ q ∈ calls, q.1 ∈ xs ∧ q.2 ∈ ys := by
  induction h with
  | stop => exact fun q hq => absurd hq List.not_mem_nil
  | left _ ih =>
    intro q hq
    rcases List.mem_cons.1 hq with rfl | hq
    · exact ⟨List.mem_cons_self, List.mem_cons_self⟩
    · exact ⟨List.mem_cons_of_mem _ (ih q hq).1, (ih q hq).2⟩
  | right _ ih =>
    intro q hq
    rcases List.mem_cons.1 hq with rfl | hq
    · exact ⟨List.mem_cons_self, List.mem_cons_self⟩
    · exact ⟨(ih q hq).1, List.mem_cons_of_mem _ (ih q hq).2⟩

/-- One of the two just compared is not compared again. -/
theorem nodup (h : Duel xs ys calls) (hxs : xs.Nodup) (hys : ys.Nodup) : calls.Nodup := by
  induction h with
  | stop => exact .nil
  | left hrest ih =>
    obtain ⟨hx, hxs⟩ := List.nodup_cons.1 hxs
    exact List.nodup_cons.2 ⟨fun hagain => hx (hrest.mem _ hagain).1, ih hxs hys⟩
  | right hrest ih =>
    obtain ⟨hy, hys⟩ := List.nodup_cons.1 hys
    exact List.nodup_cons.2 ⟨fun hagain => hy (hrest.mem _ hagain).2, ih hxs hys⟩

/-- The last item left is not compared. -/
theorem length_le (h : Duel xs ys calls) : calls.length ≤ xs.length + ys.length - 1 := by
  induction h with
  | stop => exact Nat.zero_le _
  | left _ ih => simp only [List.length_cons] at *; omega
  | right _ ih => simp only [List.length_cons] at *; omega

end Duel

/-! ## Sorting -/

namespace Inquiry

variable {xs : List α} {calls : List (α × α)}

/-- What a sort of more than one item asks, as far as it gets. -/
theorem Asks.of_mergeSort_halves (h : (mergeSort question xs).Asks calls) (hlong : ¬ xs.length ≤ 1) :
    ∃ left right merging, calls = left ++ right ++ merging ∧
      (mergeSort question (xs.take (xs.length / 2))).Asks left ∧
      (mergeSort question (xs.drop (xs.length / 2))).Asks right ∧
      ∃ l r, l.Perm (xs.take (xs.length / 2)) ∧ r.Perm (xs.drop (xs.length / 2)) ∧ Duel l r merging := by
  rw [mergeSort_halves _ hlong] at h
  rcases of_bind h with hleft | ⟨left, l, rest, hl, rfl, hrest⟩
  · exact ⟨calls, [], [], by simp, hleft, .nil _, _, _, .rfl, .rfl, .stop⟩
  · rcases of_bind hrest with hright | ⟨right, r, merging, hr, rfl, hmerging⟩
    · exact ⟨_, rest, [], by simp, hl.asks, hright, _, _, .rfl, .rfl, .stop⟩
    · exact ⟨_, _, merging, by simp, hl.asks, hr.asks, l, r, hl.perm_of_mergeSort, hr.perm_of_mergeSort,
        hmerging.duel⟩

/-- An item is compared only with one that stands after it. -/
theorem Asks.sublist_of_mergeSort (h : (mergeSort question xs).Asks calls) :
    ∀ q ∈ calls, [q.1, q.2].Sublist xs := by
  induction xs using mergeSort.induct generalizing calls with
  | case1 xs hshort =>
    rw [mergeSort_short _ hshort] at h
    rw [of_pure h]
    exact fun q hq => absurd hq List.not_mem_nil
  | case2 xs hlong ihl ihr =>
    obtain ⟨left, right, merging, rfl, hleft, hright, l, r, hl, hr, hduel⟩ := h.of_mergeSort_halves hlong
    intro q hq
    rcases List.mem_append.1 hq with hq | hq
    · rcases List.mem_append.1 hq with hq | hq
      · exact (ihl hleft q hq).trans (List.take_sublist ..)
      · exact (ihr hright q hq).trans (List.drop_sublist ..)
    · obtain ⟨h₁, h₂⟩ := hduel.mem q hq
      have hboth := (List.singleton_sublist.2 (hl.subset h₁)).append (List.singleton_sublist.2 (hr.subset h₂))
      rwa [List.take_append_drop] at hboth

theorem Asks.mem_of_mergeSort (h : (mergeSort question xs).Asks calls) {q : α × α} (hq : q ∈ calls) :
    q.1 ∈ xs ∧ q.2 ∈ xs :=
  have hsub := (h.sublist_of_mergeSort q hq).subset
  ⟨hsub (by simp), hsub (by simp)⟩

/-- No two items are compared twice. -/
theorem Asks.nodup_of_mergeSort (h : (mergeSort question xs).Asks calls) (hxs : xs.Nodup) :
    calls.Nodup := by
  induction xs using mergeSort.induct generalizing calls with
  | case1 xs hshort =>
    rw [mergeSort_short _ hshort] at h
    rw [of_pure h]
    exact .nil
  | case2 xs hlong ihl ihr =>
    obtain ⟨left, right, merging, rfl, hleft, hright, l, r, hl, hr, hduel⟩ := h.of_mergeSort_halves hlong
    have hcut := hxs
    rw [← List.take_append_drop (xs.length / 2) xs, List.nodup_append'] at hcut
    obtain ⟨htake, hdrop, hapart⟩ := hcut
    -- The calls of a half stay in it, and those of the merge go from one half to the other.
    rw [List.nodup_append', List.nodup_append']
    refine ⟨⟨ihl hleft htake, ihr hright hdrop, fun q hq hq' => ?_⟩,
      hduel.nodup (hl.nodup_iff.2 htake) (hr.nodup_iff.2 hdrop), fun q hq hq' => ?_⟩
    · exact hapart (hleft.mem_of_mergeSort hq).1 (hright.mem_of_mergeSort hq').1
    · obtain ⟨h₁, h₂⟩ := hduel.mem q hq'
      rcases List.mem_append.1 hq with hq | hq
      · exact hapart (hleft.mem_of_mergeSort hq).2 (hr.subset h₂)
      · exact hapart (hl.subset h₁) (hright.mem_of_mergeSort hq).1

theorem length_halves (xs : List α) : (xs.take (xs.length / 2)).length = xs.length / 2 ∧
    (xs.drop (xs.length / 2)).length = xs.length - xs.length / 2 :=
  ⟨List.length_take_of_le (Nat.div_le_self _ _), List.length_drop⟩

/-- The half that is rounded down has as many items as half the power of two below. -/
theorem pow_le_two_mul_half {n k : Nat} (hn : ¬ n ≤ 1) (h : 2 ^ k ≤ n) : 2 ^ k ≤ 2 * (n / 2) := by
  cases k with
  | zero => rw [Nat.pow_zero]; omega
  | succ k => rw [Nat.pow_succ] at *; omega

/-- Of a list that has as many items as a power of two or fewer, but as many as half of it or more, the halves
do so of half that power. So one step down each item is asked about once more. -/
theorem Asks.length_of_mergeSort (h : (mergeSort question xs).Asks calls) {k : Nat}
    (hle : xs.length ≤ 2 ^ k) (hge : 2 ^ k ≤ 2 * xs.length) :
    calls.length + 2 ^ k ≤ xs.length * k + 1 := by
  induction xs using mergeSort.induct generalizing calls k with
  | case1 xs hshort =>
    rw [mergeSort_short _ hshort] at h
    rw [of_pure h, List.length_nil]
    have hpos : 0 < 2 ^ k := Nat.two_pow_pos k
    obtain hone : xs.length = 1 := by omega
    rw [hone] at hge ⊢
    have hlt : k < 2 ^ k := Nat.lt_two_pow_self
    obtain rfl | rfl : k = 0 ∨ k = 1 := by omega
    · decide
    · decide
  | case2 xs hlong ihl ihr =>
    obtain ⟨left, right, merging, rfl, hleft, hright, l, r, hl, hr, hduel⟩ := h.of_mergeSort_halves hlong
    obtain ⟨j, rfl⟩ : ∃ j, k = j + 1 := by
      refine Nat.exists_eq_succ_of_ne_zero fun hzero => ?_
      rw [hzero] at hle
      exact hlong hle
    rw [Nat.pow_succ] at hle hge ⊢
    obtain ⟨htake, hdrop⟩ := length_halves xs
    have hhalf : 2 ^ j ≤ 2 * (xs.length / 2) := pow_le_two_mul_half hlong (by omega)
    have hcountl := ihl hleft (k := j) (by omega) (by omega)
    have hcountr := ihr hright (k := j) (by omega) (by omega)
    have hcount := hduel.length_le
    rw [hl.length_eq, hr.length_eq] at hcount
    rw [htake] at hcountl hcount
    rw [hdrop] at hcountr hcount
    have hsum : xs.length * (j + 1) = xs.length / 2 * j + (xs.length - xs.length / 2) * j + xs.length := by
      rw [← Nat.add_mul, Nat.add_sub_cancel' (Nat.div_le_self _ _), Nat.mul_succ]
    rw [List.length_append, List.length_append, hsum]
    omega

/-- All items but one have been put behind another when the sort ends. -/
theorem Leads.length_of_mergeSort {out : List α} {dialogue : List (α × α × Bool)}
    (h : (mergeSort question xs).Leads dialogue out) : xs.length ≤ dialogue.length + 1 := by
  induction xs using mergeSort.induct generalizing out dialogue with
  | case1 xs hshort => omega
  | case2 xs hlong ihl ihr =>
    obtain ⟨left, right, merging, l, r, rfl, hl, hr, hmerging⟩ := of_mergeSort_halves h hlong
    have hleft := ihl hl
    have hright := ihr hr
    obtain ⟨htake, hdrop⟩ := length_halves xs
    -- Neither half is empty, so the merge asks at least once.
    obtain ⟨x, l, rfl⟩ := List.exists_cons_of_length_pos (l := l) (by rw [hl.perm_of_mergeSort.length_eq]; omega)
    obtain ⟨y, r, rfl⟩ := List.exists_cons_of_length_pos (l := r) (by rw [hr.perm_of_mergeSort.length_eq]; omega)
    have hasked : 0 < merging.length := by
      obtain ⟨rest, out', ⟨rfl, -, -⟩ | ⟨rfl, -, -⟩⟩ := of_merge_cons hmerging
      · exact Nat.succ_pos _
      · exact Nat.succ_pos _
    simp only [List.length_append]
    omega

end Inquiry

/-! ## Under a comparison -/

/-- Calls of a comparison on the positions of `n` items: each on an earlier and a later one, on no two of them
twice, and not too many. -/
structure Disciplined (n : Nat) (calls : List (Fin n × Fin n)) : Prop where
  inOrder : ∀ q ∈ calls, q.1 < q.2
  once : calls.Pairwise fun q q' => q' ≠ q ∧ q' ≠ q.swap
  few : calls.length + 2 ^ Nat.clog 2 n ≤ n * Nat.clog 2 n + 1

theorem pow_clog_le_two_mul {n : Nat} (hn : 0 < n) : 2 ^ Nat.clog 2 n ≤ 2 * n := by
  rcases Nat.lt_or_ge 1 n with hlt | hle
  · have hpred := Nat.pow_pred_clog_lt_self Nat.one_lt_two hlt
    have hpos := Nat.clog_pos Nat.one_lt_two hlt
    rw [← Nat.succ_pred_eq_of_pos hpos, Nat.pow_succ]
    omega
  · obtain rfl : n = 1 := by omega
    decide

theorem disciplined_of_asks {n : Nat} {calls : List (Fin n × Fin n)}
    (h : (mergeSort Inquiry.question (List.finRange n)).Asks calls) : Disciplined n calls := by
  have hlen : (List.finRange n).length = n := List.length_finRange
  have hinOrder : ∀ q ∈ calls, q.1 < q.2 := by
    intro q hq
    have hpair := (List.pairwise_lt_finRange n).sublist (h.sublist_of_mergeSort q hq)
    exact List.rel_of_pairwise_cons hpair List.mem_cons_self
  refine ⟨hinOrder, ?_, ?_⟩
  · have hnodup := h.nodup_of_mergeSort (List.nodup_finRange n)
    refine hnodup.imp_of_mem fun {q q'} hq hq' hne => ⟨hne.symm, ?_⟩
    rintro rfl
    exact absurd (hinOrder q hq) (Nat.lt_asymm (hinOrder q.swap hq'))
  · rcases Nat.eq_zero_or_pos n with rfl | hpos
    · have hnone : calls = [] := List.eq_nil_iff_forall_not_mem.2 fun q _ => q.1.elim0
      rw [hnone]
      decide
    · have hcount := h.length_of_mergeSort (k := Nat.clog 2 n)
        (by rw [hlen]; exact Nat.le_pow_clog Nat.one_lt_two n)
        (by rw [hlen]; exact pow_clog_le_two_mul hpos)
      rwa [hlen] at hcount

section Task

variable {σ ε : Type}

/-- The calls of a comparison are the questions of the tree, one after the other. -/
theorem perform_exchange (precedes : α → α → Task σ ε Bool) (t : Inquiry α β) (s : σ) (given : List σ) :
    ∃ answers s' left, Exchange precedes s given answers s' left ∧
      ((∃ b, t.Leads answers b ∧ (t.perform precedes s).after given = .done s' b) ∨
        ∃ a c, t.Asks (answers.map asked ++ [(a, c)]) ∧
          ((precedes a c s').after left).Hangs ((t.perform precedes s).after given)) := by
  induction t generalizing s given with
  | result b => exact ⟨[], s, given, .nil, .inl ⟨b, .result b, Turn.after_done ..⟩⟩
  | ask a c next ih =>
    let next' := fun answer => (next answer).perform precedes
    rcases Turn.done_or_hangs (precedes a c s) next' given with ⟨s₁, answer, hcall, hrest⟩ | hhangs
    · obtain ⟨answers, s', left, hexchange, hend⟩ := ih answer s₁ ((precedes a c s).unused given)
      refine ⟨(a, c, answer) :: answers, s', left, .cons hcall hexchange, ?_⟩
      rw [← hrest] at hend
      rcases hend with ⟨b, hleads, hdone⟩ | ⟨a', c', hasks, hhangs⟩
      · exact .inl ⟨b, .ask hleads, hdone⟩
      · exact .inr ⟨a', c', .ask hasks, hhangs⟩
    · exact ⟨[], s, given, .nil, .inr ⟨a, c, .ask (.nil (next true)), hhangs⟩⟩

/-- **The sort keeps a discipline in its comparisons**, whatever the comparison does and answers. Let it run
from a state `s`, and go on after its pauses from any states `given`. It sorts the positions of its items; it
calls the comparison for two of them at a time, each call going on from the state that the one before has left.
All calls that it has made, the last one included if that is still paused or has failed, are each on an item and
one that stood after it, never on the same two again, and of `n` items they are at most
`n * ⌈log₂ n⌉ - 2 ^ ⌈log₂ n⌉ + 1`; and if the sort is done they are at least `n - 1`. -/
theorem mergeSort_disciplined (precedes : α → α → Task σ ε Bool) (xs : List α) (s : σ) (given : List σ) :
    let compare := fun i j : Fin xs.length => precedes (xs.get i) (xs.get j)
    let sort := mergeSort compare (List.finRange xs.length)
    mergeSort precedes xs = List.map xs.get <$> sort ∧
    ∃ answers s' left, Exchange compare s given answers s' left ∧
      ((∃ order, (sort s).after given = .done s' order ∧ Disciplined xs.length (answers.map asked) ∧
          xs.length ≤ answers.length + 1) ∨
        ∃ i j, ((compare i j s').after left).Hangs ((sort s).after given) ∧
          Disciplined xs.length (answers.map asked ++ [(i, j)])) := by
  intro compare sort
  have hitems := mergeSort_map precedes xs.get (List.finRange xs.length)
  rw [List.map_get_finRange] at hitems
  obtain ⟨answers, s', left, hexchange, hend⟩ :=
    perform_exchange compare (mergeSort Inquiry.question (List.finRange xs.length)) s given
  refine ⟨hitems, answers, s', left, hexchange, ?_⟩
  rw [← mergeSort_eq_perform compare] at hend
  rcases hend with ⟨order, hleads, hdone⟩ | ⟨i, j, hasks, hhangs⟩
  · have hcount := hleads.length_of_mergeSort
    rw [List.length_finRange] at hcount
    exact .inl ⟨order, hdone, disciplined_of_asks hleads.asks, hcount⟩
  · exact .inr ⟨i, j, hhangs, disciplined_of_asks hasks⟩

end Task

end ScriptValues.Sort
