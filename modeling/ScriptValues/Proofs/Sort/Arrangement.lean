/-
What the sort answers when its comparison is a function of its two arguments.

Items may be equal, so what is arranged are the positions of the list. Of two positions the sort only
ever asks whether the item of the earlier one precedes that of the later one, and the answer puts one of
the two before the other (`Before`). Nothing else can matter: when `Before` is transitive there is one
arrangement of the positions by it, and the sort returns the items in that order
(`mergeSort_arranges_positions`). A total preorder is the usual case: there `Before` says that the item
precedes and that equal items keep their order (`before_iff_stably`), so the sort is the stable one.
-/
import Mathlib.Data.List.FinRange
import ScriptValues.Proofs.Sort.Inquiry

namespace ScriptValues.Sort

variable {α : Type} {p : α → α → Bool}

/-- Position `i` goes before position `j`: the earlier one when its item precedes the other's, the later
one when it does not. -/
def Before (p : α → α → Bool) (xs : List α) (i j : Fin xs.length) : Prop :=
  (i < j ∧ p xs[i] xs[j] = true) ∨ (j < i ∧ p xs[j] xs[i] = false)

/-- The item at `i` precedes that at `j`, and if each precedes the other, then `i` is the earlier. -/
def Stably (p : α → α → Bool) (xs : List α) (i j : Fin xs.length) : Prop :=
  p xs[i] xs[j] = true ∧ (p xs[j] xs[i] = true → i < j)

/-- All positions, each before those that follow it. -/
structure Arranged {n : Nat} (r : Fin n → Fin n → Prop) (order : List (Fin n)) : Prop where
  all : order.Perm (List.finRange n)
  inOrder : order.Pairwise r

/-- Any two can be compared, and the comparison is transitive. -/
structure TotalPreorder (p : α → α → Bool) : Prop where
  total : ∀ a b, p a b = true ∨ p b a = true
  trans : ∀ a b c, p a b = true → p b c = true → p a c = true

/-! ## The sort under a function -/

theorem follow_merge (p : α → α → Bool) (xs ys : List α) :
    (merge Inquiry.question xs ys).follow p = xs.merge ys p := by
  induction xs generalizing ys with
  | nil => simp only [merge, Inquiry.follow_pure, List.nil_merge]
  | cons x xs ihx =>
    induction ys with
    | nil => simp only [merge, Inquiry.follow_pure, List.merge_right]
    | cons y ys ihy =>
      rw [merge, List.cons_merge_cons, Inquiry.follow_bind, Inquiry.follow_question]
      split
      · rw [Inquiry.follow_bind, Inquiry.follow_pure, ihx]
      · rw [Inquiry.follow_bind, Inquiry.follow_pure, ihy]

theorem follow_mergeSort_short (p : α → α → Bool) {xs : List α} (h : xs.length ≤ 1) :
    (mergeSort Inquiry.question xs).follow p = xs := by
  rw [mergeSort_short _ h, Inquiry.follow_pure]

theorem follow_mergeSort_halves (p : α → α → Bool) {xs : List α} (h : ¬ xs.length ≤ 1) :
    (mergeSort Inquiry.question xs).follow p =
      ((mergeSort Inquiry.question (xs.take (xs.length / 2))).follow p).merge
        ((mergeSort Inquiry.question (xs.drop (xs.length / 2))).follow p) p := by
  rw [mergeSort_halves _ h, Inquiry.follow_bind, Inquiry.follow_bind, follow_merge]

/-- What is compared may be looked up: items by their positions, for one. -/
theorem follow_mergeSort_map {β : Type} (p : β → β → Bool) (f : α → β) (xs : List α) :
    (mergeSort Inquiry.question (xs.map f)).follow p =
      ((mergeSort Inquiry.question xs).follow fun a b => p (f a) (f b)).map f := by
  induction xs using mergeSort.induct with
  | case1 xs h =>
    rw [follow_mergeSort_short _ h, follow_mergeSort_short _ (by rwa [List.length_map])]
  | case2 xs h ihl ihr =>
    rw [follow_mergeSort_halves _ h, follow_mergeSort_halves _ (by rwa [List.length_map]),
      List.length_map, ← List.map_take, ← List.map_drop, ihl, ihr]
    exact (List.map_merge (f := f) fun _ _ _ _ => rfl).symm

theorem follow_mergeSort_perm (p : α → α → Bool) (xs : List α) :
    ((mergeSort Inquiry.question xs).follow p).Perm xs := by
  induction xs using mergeSort.induct with
  | case1 xs h => rw [follow_mergeSort_short _ h]
  | case2 xs h ihl ihr =>
    rw [follow_mergeSort_halves _ h]
    have hhalves := (List.merge_perm_append p).trans (ihl.append ihr)
    rwa [List.take_append_drop] at hhalves

/-! ## Positions -/

section Positions

variable {xs : List α}

theorem Before.asymm {i j : Fin xs.length} (hij : Before p xs i j) : ¬ Before p xs j i := by
  rintro (⟨hlt, hp⟩ | ⟨hlt, hp⟩) <;> rcases hij with ⟨hlt', hp'⟩ | ⟨hlt', hp'⟩
  · exact absurd hlt (Fin.not_lt.2 (Fin.le_of_lt hlt'))
  · rw [hp] at hp'; cases hp'
  · rw [hp] at hp'; cases hp'
  · exact absurd hlt (Fin.not_lt.2 (Fin.le_of_lt hlt'))

/-- Merging keeps the order when every position on the left is an earlier one than those on the right:
then the questions asked are just those that `Before` depends on. -/
theorem pairwise_before_merge (htrans : ∀ i j k, Before p xs i j → Before p xs j k → Before p xs i k)
    {l₁ l₂ : List (Fin xs.length)} (hlt : ∀ i ∈ l₁, ∀ j ∈ l₂, i < j)
    (h₁ : l₁.Pairwise (Before p xs)) (h₂ : l₂.Pairwise (Before p xs)) :
    (l₁.merge l₂ fun i j => p xs[i] xs[j]).Pairwise (Before p xs) := by
  induction l₁ generalizing l₂ with
  | nil => rwa [List.nil_merge]
  | cons i l₁ ih₁ =>
    induction l₂ with
    | nil => rwa [List.merge_right]
    | cons j l₂ ih₂ =>
      obtain ⟨hi, ht₁⟩ := List.pairwise_cons.1 h₁
      obtain ⟨hj, ht₂⟩ := List.pairwise_cons.1 h₂
      have hij : i < j := hlt i List.mem_cons_self j List.mem_cons_self
      rw [List.cons_merge_cons]
      split
      · next hp =>
        have hb : Before p xs i j := .inl ⟨hij, hp⟩
        refine List.pairwise_cons.2 ⟨fun k hk => ?_, ?_⟩
        · rcases List.mem_merge.1 hk with hk | hk
          · exact hi k hk
          · rcases List.mem_cons.1 hk with rfl | hk
            · exact hb
            · exact htrans _ _ _ hb (hj k hk)
        · exact ih₁ (fun a ha => hlt a (List.mem_cons_of_mem _ ha)) ht₁ h₂
      · next hp =>
        have hb : Before p xs j i := .inr ⟨hij, by simpa using hp⟩
        refine List.pairwise_cons.2 ⟨fun k hk => ?_, ?_⟩
        · rcases List.mem_merge.1 hk with hk | hk
          · rcases List.mem_cons.1 hk with rfl | hk
            · exact hb
            · exact htrans _ _ _ hb (hi k hk)
          · exact hj k hk
        · exact ih₂ (fun a ha b hb => hlt a ha b (List.mem_cons_of_mem _ hb)) ht₂

theorem pairwise_before_mergeSort
    (htrans : ∀ i j k, Before p xs i j → Before p xs j k → Before p xs i k)
    (l : List (Fin xs.length)) (hl : l.Pairwise (· < ·)) :
    ((mergeSort Inquiry.question l).follow fun i j => p xs[i] xs[j]).Pairwise (Before p xs) := by
  induction l using mergeSort.induct with
  | case1 l h =>
    rw [follow_mergeSort_short _ h]
    cases l with
    | nil => exact .nil
    | cons i l =>
      obtain rfl := List.eq_nil_of_length_eq_zero (Nat.le_zero.1 (Nat.le_of_succ_le_succ h))
      exact List.pairwise_singleton _ i
  | case2 l h ihl ihr =>
    rw [follow_mergeSort_halves _ h]
    have hcut := hl
    rw [← List.take_append_drop (l.length / 2) l] at hcut
    obtain ⟨hleft, hright, hacross⟩ := List.pairwise_append.1 hcut
    refine pairwise_before_merge htrans (fun i hi j hj => ?_) (ihl hleft) (ihr hright)
    exact hacross i ((follow_mergeSort_perm _ _).subset hi) j ((follow_mergeSort_perm _ _).subset hj)

/-- The sort of the positions arranges them. -/
theorem arranged_positions
    (htrans : ∀ i j k, Before p xs i j → Before p xs j k → Before p xs i k) :
    Arranged (Before p xs)
      ((mergeSort Inquiry.question (List.finRange xs.length)).follow fun i j => p xs[i] xs[j]) :=
  ⟨follow_mergeSort_perm _ _, pairwise_before_mergeSort htrans _ (List.pairwise_lt_finRange _)⟩

/-- There is no other arrangement. -/
theorem Arranged.unique {order order' : List (Fin xs.length)} (h : Arranged (Before p xs) order)
    (h' : Arranged (Before p xs) order') : order = order' :=
  List.Perm.eq_of_pairwise (fun _ _ _ _ hij hji => absurd hji hij.asymm) h.inOrder h'.inOrder
    (h.all.trans h'.all.symm)

theorem Arranged.map_get_eq (htrans : ∀ i j k, Before p xs i j → Before p xs j k → Before p xs i k)
    {order : List (Fin xs.length)} (h : Arranged (Before p xs) order) :
    (mergeSort Inquiry.question xs).follow p = order.map xs.get := by
  have hitems := follow_mergeSort_map p xs.get (List.finRange xs.length)
  rw [List.map_get_finRange] at hitems
  rw [h.unique (arranged_positions htrans)]
  exact hitems

end Positions

/-! ## Total preorders -/

/-- Under a total preorder the order of positions is the stable one. -/
theorem before_iff_stably {xs : List α} (hp : TotalPreorder p) (i j : Fin xs.length) :
    Before p xs i j ↔ Stably p xs i j := by
  constructor
  · rintro (⟨hlt, h⟩ | ⟨hlt, h⟩)
    · exact ⟨h, fun _ => hlt⟩
    · rcases hp.total xs[i] xs[j] with h' | h'
      · exact ⟨h', fun h'' => by rw [h] at h''; cases h''⟩
      · rw [h] at h'; cases h'
  · rintro ⟨h, htie⟩
    rcases Nat.lt_trichotomy i j with hlt | heq | hlt
    · exact .inl ⟨hlt, h⟩
    · obtain rfl := Fin.ext heq
      exact absurd (htie h) (Fin.lt_irrefl i)
    · refine .inr ⟨hlt, ?_⟩
      by_contra h'
      exact absurd (htie (by simpa using h')) (Fin.not_lt.2 (Fin.le_of_lt hlt))

theorem stably_trans {xs : List α} (hp : TotalPreorder p) {i j k : Fin xs.length}
    (hij : Stably p xs i j) (hjk : Stably p xs j k) : Stably p xs i k := by
  refine ⟨hp.trans _ _ _ hij.1 hjk.1, fun hki => ?_⟩
  have hji : p xs[j] xs[i] = true := hp.trans _ _ _ hjk.1 hki
  have hkj : p xs[k] xs[j] = true := hp.trans _ _ _ hki hij.1
  exact Fin.lt_trans (hij.2 hji) (hjk.2 hkj)

/-! ## The sort -/

variable {σ ε : Type}

theorem mergeSort_arranges_positions {precedes : α → α → Task σ ε Bool} (h : Answers precedes p)
    {xs : List α} (htrans : ∀ i j k, Before p xs i j → Before p xs j k → Before p xs i k) :
    (∃! order, Arranged (Before p xs) order) ∧
      ∀ order, Arranged (Before p xs) order →
        ∀ s, ∃ s', (mergeSort precedes xs).run s = .done s' (order.map xs.get) := by
  refine ⟨⟨_, arranged_positions htrans, fun order horder => horder.unique (arranged_positions htrans)⟩, ?_⟩
  intro order horder s
  rw [mergeSort_eq_perform, ← horder.map_get_eq htrans]
  exact h.run_perform _ s

/-- **The sort arranges its items** by its comparison, whenever the comparison is a function of the two
items. If the order it puts the positions in is transitive, there is one arrangement by that order, and
the sort ends with the items so arranged; if the comparison is a total preorder, the arrangement is the
one that is sorted and stable. -/
theorem mergeSort_arranges {precedes : α → α → Task σ ε Bool} (h : Answers precedes p) (xs : List α) :
    ((∀ i j k, Before p xs i j → Before p xs j k → Before p xs i k) →
      (∃! order, Arranged (Before p xs) order) ∧
        ∀ order, Arranged (Before p xs) order →
          ∀ s, ∃ s', (mergeSort precedes xs).run s = .done s' (order.map xs.get)) ∧
    (TotalPreorder p →
      (∃! order, Arranged (Stably p xs) order) ∧
        ∀ order, Arranged (Stably p xs) order →
          ∀ s, ∃ s', (mergeSort precedes xs).run s = .done s' (order.map xs.get)) := by
  refine ⟨mergeSort_arranges_positions h, fun hp => ?_⟩
  have hsame : Stably p xs = Before p xs := by
    funext i j
    exact propext (before_iff_stably hp i j).symm
  rw [hsame]
  refine mergeSort_arranges_positions h fun i j k hij hjk => ?_
  rw [before_iff_stably hp] at *
  exact stably_trans hp hij hjk

/-- A comparison that pauses and counts before it answers. -/
def counted (p : α → α → Bool) (a b : α) : Task Nat ε Bool := do
  Task.pause 1
  modify (· + 1)
  pure (p a b)

theorem answers_counted (p : α → α → Bool) : Answers (counted p : α → α → Task Nat ε Bool) p :=
  fun _ _ s => ⟨s + 1, rfl⟩

/-- By keys, items of equal keys keep their order when each precedes the other, and come out in the
opposite order when neither does. -/
theorem mergeSort_arranges_keyed :
    let items := [(2, 'a'), (1, 'b'), (2, 'c'), (1, 'd'), (2, 'e')]
    let le := fun a b : Nat × Char => decide (a.1 ≤ b.1)
    let lt := fun a b : Nat × Char => decide (a.1 < b.1)
    Answers (counted le : _ → _ → Task Nat Empty Bool) le ∧ TotalPreorder le ∧
      (∃ calls, (mergeSort (counted le : _ → _ → Task Nat Empty Bool) items).run 0 =
        .done calls [(1, 'b'), (1, 'd'), (2, 'a'), (2, 'c'), (2, 'e')]) ∧
      ∃ calls, (mergeSort (counted lt : _ → _ → Task Nat Empty Bool) items).run 0 =
        .done calls [(1, 'd'), (1, 'b'), (2, 'e'), (2, 'c'), (2, 'a')] := by
  intro items le lt
  have hle : TotalPreorder le :=
    ⟨fun a b => by simpa [le] using Nat.le_total a.1 b.1,
      fun a b c => by simpa [le] using Nat.le_trans⟩
  have hlt : ∀ i j k, Before lt items i j → Before lt items j k → Before lt items i k := by
    unfold Before
    decide
  have hstable : Arranged (Stably le items) [1, 3, 0, 2, 4] := ⟨by decide, by unfold Stably; decide⟩
  have hopposite : Arranged (Before lt items) [3, 1, 4, 2, 0] := ⟨by decide, by unfold Before; decide⟩
  exact ⟨answers_counted le, hle, ((mergeSort_arranges (answers_counted le) items).2 hle).2 _ hstable 0,
    ((mergeSort_arranges (answers_counted lt) items).1 hlt).2 _ hopposite 0⟩

end ScriptValues.Sort
