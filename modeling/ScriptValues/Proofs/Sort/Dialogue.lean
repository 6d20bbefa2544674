/-
The sort under a comparison that answers as it likes: not transitively, at random, out of a state of its
own. There is no order to appeal to then, only the dialogue of questions and answers. `Inquiry.Leads` says
to what result a tree of questions comes when it is so answered, and whatever the answers are, the sort
comes to the same items (`Leads.perm_of_mergeSort`), each ahead of the next by an answer that was given
(`Leads.isChain_of_mergeSort`).

`noted` writes the dialogue down while the comparison runs, without changing what it does
(`fst_perform_noted`); `mergeSort_safe` is the statement about the sort with the dialogue beside it.
-/
import Mathlib.Data.List.Chain
import Mathlib.Data.List.FinRange
import ScriptValues.Proofs.Sort.Inquiry

namespace ScriptValues

/-- Whatever states it finds after its pauses, the turn and what follows it comes to a result, and the result
is one of `P`. -/
def Turn.EndsWith {σ ε α : Type} (P : α → Prop) : Turn σ ε α → Prop
  | .done _ a => P a
  | .failed _ _ => False
  | .paused _ rest => ∀ s, (rest s).EndsWith P
  | .exhausted => False

namespace Turn.EndsWith

variable {σ ε α β : Type} {P : α → Prop} {Q : β → Prop}

theorem bind {u : Turn σ ε α} {f : α → Task σ ε β} (h : u.EndsWith P)
    (hf : ∀ a, P a → ∀ s, (f a s).EndsWith Q) : (u.bind f).EndsWith Q := by
  induction u with
  | done s a => exact hf a h s
  | failed s e => exact h.elim
  | paused s rest ih => exact fun s' => ih s' (h s')
  | exhausted => exact h.elim

theorem mono {P' : α → Prop} {u : Turn σ ε α} (h : u.EndsWith P) (hmono : ∀ a, P a → P' a) :
    u.EndsWith P' := by
  induction u with
  | done s a => exact hmono a h
  | failed s e => exact h.elim
  | paused s rest ih => exact fun s' => ih s' (h s')
  | exhausted => exact h.elim

theorem finish {u : Turn σ ε α} (h : u.EndsWith P) : ∃ s a, u.finish = .done s a ∧ P a := by
  induction u with
  | done s a => exact ⟨s, a, rfl, h⟩
  | failed s e => exact h.elim
  | paused s rest ih => exact ih s (h s)
  | exhausted => exact h.elim

end Turn.EndsWith

end ScriptValues

namespace ScriptValues.Sort

variable {α β γ : Type}

/-! ## Questions and answers -/

/-- The questions of the tree, so answered, lead to this result. -/
inductive Inquiry.Leads : Inquiry α β → (dialogue : List (α × α × Bool)) → β → Prop
  | result (b) : Leads (.result b) [] b
  | ask {a c next answer dialogue b} : Leads (next answer) dialogue b →
      Leads (.ask a c next) ((a, c, answer) :: dialogue) b

/-- An answer put `u` ahead of `v`. -/
def Ahead (dialogue : List (α × α × Bool)) (u v : α) : Prop :=
  (u, v, true) ∈ dialogue ∨ (v, u, false) ∈ dialogue

theorem Ahead.mono {dialogue dialogue' : List (α × α × Bool)} (hsub : dialogue ⊆ dialogue') {u v : α}
    (h : Ahead dialogue u v) : Ahead dialogue' u v :=
  h.imp (fun hmem => hsub hmem) fun hmem => hsub hmem

namespace Inquiry.Leads

theorem of_pure {b b' : β} {dialogue : List (α × α × Bool)}
    (h : (pure b : Inquiry α β).Leads dialogue b') : dialogue = [] ∧ b' = b := by
  cases h with
  | result b => exact ⟨rfl, rfl⟩

theorem of_question {a c : α} {dialogue : List (α × α × Bool)} {answer : Bool}
    (h : (question a c).Leads dialogue answer) : dialogue = [(a, c, answer)] := by
  cases h with
  | ask hrest => obtain ⟨rfl, rfl⟩ := of_pure hrest; rfl

theorem of_bind {t : Inquiry α β} {f : β → Inquiry α γ} {dialogue : List (α × α × Bool)} {c : γ}
    (h : (t >>= f).Leads dialogue c) :
    ∃ first rest b, dialogue = first ++ rest ∧ t.Leads first b ∧ (f b).Leads rest c := by
  change (t.bind f).Leads dialogue c at h
  induction t generalizing dialogue with
  | result b => exact ⟨[], dialogue, b, rfl, .result b, h⟩
  | ask a c next ih =>
    cases h with
    | ask hnext =>
      obtain ⟨first, rest, b, rfl, hfirst, hrest⟩ := ih _ hnext
      exact ⟨_, rest, b, rfl, .ask hfirst, hrest⟩

/-! ## Merging and sorting -/

/-- What a merge of two lists that are not empty comes to. -/
theorem of_merge_cons {x y : α} {xs ys out : List α} {dialogue : List (α × α × Bool)}
    (h : (merge question (x :: xs) (y :: ys)).Leads dialogue out) :
    ∃ rest out', (dialogue = (x, y, true) :: rest ∧ out = x :: out' ∧
        (merge question xs (y :: ys)).Leads rest out') ∨
      (dialogue = (x, y, false) :: rest ∧ out = y :: out' ∧
        (merge question (x :: xs) ys).Leads rest out') := by
  rw [merge] at h
  obtain ⟨first, rest, answer, rfl, hquestion, htaken⟩ := of_bind h
  rw [of_question hquestion]
  cases answer with
  | true =>
    obtain ⟨front, back, out', rfl, hfront, hback⟩ := of_bind htaken
    obtain ⟨rfl, rfl⟩ := of_pure hback
    exact ⟨_, out', .inl ⟨by simp, rfl, hfront⟩⟩
  | false =>
    obtain ⟨front, back, out', rfl, hfront, hback⟩ := of_bind htaken
    obtain ⟨rfl, rfl⟩ := of_pure hback
    exact ⟨_, out', .inr ⟨by simp, rfl, hfront⟩⟩

theorem perm_of_merge {xs ys out : List α} {dialogue : List (α × α × Bool)}
    (h : (merge question xs ys).Leads dialogue out) : out.Perm (xs ++ ys) := by
  induction xs generalizing ys out dialogue with
  | nil =>
    rw [merge] at h
    rw [(of_pure h).2, List.nil_append]
  | cons x xs ihx =>
    induction ys generalizing out dialogue with
    | nil =>
      simp only [merge] at h
      rw [(of_pure h).2, List.append_nil]
    | cons y ys ihy =>
      obtain ⟨rest, out', ⟨-, rfl, hrest⟩ | ⟨-, rfl, hrest⟩⟩ := of_merge_cons h
      · exact (ihx hrest).cons x
      · exact ((ihy hrest).cons y).trans List.perm_middle.symm

/-- The merge of two chains is a chain, and begins as one of them does. -/
theorem isChain_of_merge {all : List (α × α × Bool)} {xs ys out : List α}
    {dialogue : List (α × α × Bool)} (h : (merge question xs ys).Leads dialogue out)
    (hsub : dialogue ⊆ all) (hxs : xs.IsChain (Ahead all)) (hys : ys.IsChain (Ahead all)) :
    out.IsChain (Ahead all) ∧ (out.head? = xs.head? ∨ out.head? = ys.head?) := by
  induction xs generalizing ys out dialogue with
  | nil =>
    rw [merge] at h
    rw [(of_pure h).2]
    exact ⟨hys, .inr rfl⟩
  | cons x xs ihx =>
    induction ys generalizing out dialogue with
    | nil =>
      simp only [merge] at h
      rw [(of_pure h).2]
      exact ⟨hxs, .inl rfl⟩
    | cons y ys ihy =>
      obtain ⟨rest, out', ⟨rfl, rfl, hrest⟩ | ⟨rfl, rfl, hrest⟩⟩ := of_merge_cons h
      · -- `x` is followed by the next of its own list, or by `y`, which it was compared with.
        have hxy : Ahead all x y := .inl (hsub List.mem_cons_self)
        obtain ⟨hout, hhead⟩ := ihx hrest (fun q hq => hsub (List.mem_cons_of_mem _ hq)) hxs.tail hys
        refine ⟨List.isChain_cons.2 ⟨fun z hz => ?_, hout⟩, .inl rfl⟩
        rcases hhead with hhead | hhead
        · exact (List.isChain_cons.1 hxs).1 z (hhead ▸ hz)
        · rw [hhead] at hz
          cases hz
          exact hxy
      · have hyx : Ahead all y x := .inr (hsub List.mem_cons_self)
        obtain ⟨hout, hhead⟩ := ihy hrest (fun q hq => hsub (List.mem_cons_of_mem _ hq)) hys.tail
        refine ⟨List.isChain_cons.2 ⟨fun z hz => ?_, hout⟩, .inr rfl⟩
        rcases hhead with hhead | hhead
        · rw [hhead] at hz
          cases hz
          exact hyx
        · exact (List.isChain_cons.1 hys).1 z (hhead ▸ hz)

/-- What a sort of more than one item comes to. -/
theorem of_mergeSort_halves {xs out : List α} {dialogue : List (α × α × Bool)}
    (h : (mergeSort question xs).Leads dialogue out) (hlong : ¬ xs.length ≤ 1) :
    ∃ left right merging l r, dialogue = left ++ right ++ merging ∧
      (mergeSort question (xs.take (xs.length / 2))).Leads left l ∧
      (mergeSort question (xs.drop (xs.length / 2))).Leads right r ∧
      (merge question l r).Leads merging out := by
  rw [mergeSort_halves _ hlong] at h
  obtain ⟨left, rest, l, rfl, hl, hrest⟩ := of_bind h
  obtain ⟨right, merging, r, rfl, hr, hmerging⟩ := of_bind hrest
  exact ⟨left, right, merging, l, r, (List.append_assoc ..).symm, hl, hr, hmerging⟩

theorem perm_of_mergeSort {xs out : List α} {dialogue : List (α × α × Bool)}
    (h : (mergeSort question xs).Leads dialogue out) : out.Perm xs := by
  induction xs using mergeSort.induct generalizing out dialogue with
  | case1 xs hshort =>
    rw [mergeSort_short _ hshort] at h
    rw [(of_pure h).2]
  | case2 xs hlong ihl ihr =>
    obtain ⟨left, right, merging, l, r, -, hl, hr, hmerging⟩ := of_mergeSort_halves h hlong
    have hhalves := (perm_of_merge hmerging).trans ((ihl hl).append (ihr hr))
    rwa [List.take_append_drop] at hhalves

/-- Each item of the sorted list was put ahead of the next. -/
theorem isChain_of_mergeSort {xs out : List α} {dialogue : List (α × α × Bool)}
    (h : (mergeSort question xs).Leads dialogue out) : out.IsChain (Ahead dialogue) := by
  induction xs using mergeSort.induct generalizing out dialogue with
  | case1 xs hshort =>
    rw [mergeSort_short _ hshort] at h
    rw [(of_pure h).2]
    cases xs with
    | nil => exact .nil
    | cons x xs =>
      obtain rfl := List.eq_nil_of_length_eq_zero (Nat.le_zero.1 (Nat.le_of_succ_le_succ hshort))
      exact .singleton x
  | case2 xs hlong ihl ihr =>
    obtain ⟨left, right, merging, l, r, rfl, hl, hr, hmerging⟩ := of_mergeSort_halves h hlong
    refine (isChain_of_merge hmerging (by simp) ?_ ?_).1
    · exact (ihl hl).imp fun _ _ hahead => hahead.mono (by simp)
    · exact (ihr hr).imp fun _ _ hahead => hahead.mono fun q hq => by simp [hq]

end Inquiry.Leads

/-! ## The dialogue noted down -/

section Noted

variable {m : Type → Type} [Monad m]

/-- The comparison, each question and its answer being noted down. -/
def noted (precedes : α → α → m Bool) (a c : α) : StateT (List (α × α × Bool)) m Bool := do
  let answer ← precedes a c
  modify (· ++ [(a, c, answer)])
  pure answer

variable [LawfulMonad m]

theorem run_noted (precedes : α → α → m Bool) (a c : α) (dialogue : List (α × α × Bool)) :
    (noted precedes a c).run dialogue =
      (fun answer => (answer, dialogue ++ [(a, c, answer)])) <$> precedes a c := by
  simp only [noted, StateT.run_bind, StateT.run_monadLift, StateT.run_modify, StateT.run_pure, bind_assoc,
    pure_bind, map_eq_pure_bind]
  rfl

/-- Noting changes nothing. -/
theorem fst_perform_noted (precedes : α → α → m Bool) (t : Inquiry α β)
    (dialogue : List (α × α × Bool)) :
    Prod.fst <$> (t.perform (noted precedes)).run dialogue = t.perform precedes := by
  induction t generalizing dialogue with
  | result b => simp [Inquiry.perform]
  | ask a c next ih =>
    simp only [Inquiry.perform, StateT.run_bind, run_noted, map_bind, bind_map_left, ih]

/-- What is compared may be looked up: items by their positions, for one. -/
theorem merge_map (precedes : β → β → m Bool) (f : α → β) (xs ys : List α) :
    merge precedes (xs.map f) (ys.map f) =
      List.map f <$> merge (fun a c => precedes (f a) (f c)) xs ys := by
  induction xs generalizing ys with
  | nil => simp [merge]
  | cons x xs ihx =>
    induction ys with
    | nil => simp [merge]
    | cons y ys ihy =>
      have hx := ihx (y :: ys)
      simp only [List.map_cons] at hx ihy ⊢
      simp only [merge, hx, ihy, map_bind]
      congr 1
      funext first
      cases first <;> simp only [↓reduceIte, Bool.false_eq_true, map_bind, bind_map_left, map_pure,
        List.map_cons]

theorem mergeSort_map (precedes : β → β → m Bool) (f : α → β) (xs : List α) :
    mergeSort precedes (xs.map f) =
      List.map f <$> mergeSort (fun a c => precedes (f a) (f c)) xs := by
  induction xs using mergeSort.induct with
  | case1 xs h =>
    rw [mergeSort_short _ h, mergeSort_short _ (by rwa [List.length_map]), map_pure]
  | case2 xs h ihl ihr =>
    rw [mergeSort_halves _ h, mergeSort_halves _ (by rwa [List.length_map]), List.length_map,
      ← List.map_take, ← List.map_drop, ihl, ihr]
    simp only [map_bind, bind_map_left, merge_map]

end Noted

section Task

variable {σ ε : Type}

/-- The comparison comes to an answer each time, whatever the answer is and however it is come to. -/
def Infallible (precedes : α → α → Task σ ε Bool) : Prop :=
  ∀ a c s, (precedes a c s).EndsWith fun _ => True

/-- What is noted of a tree of questions leads to its result. -/
theorem Infallible.perform_noted {precedes : α → α → Task σ ε Bool} (h : Infallible precedes)
    (t : Inquiry α β) (before : List (α × α × Bool)) (s : σ) :
    ((t.perform (noted precedes)).run before s).EndsWith fun p =>
      ∃ dialogue, p.2 = before ++ dialogue ∧ t.Leads dialogue p.1 := by
  induction t generalizing before s with
  | result b => exact ⟨[], (List.append_nil _).symm, .result b⟩
  | ask a c next ih =>
    rw [Inquiry.perform, StateT.run_bind, run_noted, bind_map_left]
    refine Turn.EndsWith.bind (h a c s) fun answer _ s' => ?_
    refine (ih answer (before ++ [(a, c, answer)]) s').mono ?_
    rintro p ⟨dialogue, hdialogue, hleads⟩
    exact ⟨(a, c, answer) :: dialogue, by simp [hdialogue], .ask hleads⟩

/-- **The sort is safe under every comparison** that comes to answers, however little these agree. It ends;
the items come out in an order of their positions that leaves none out and has none twice; and of any two
positions that are next to each other there, the comparison was called on the items of just these two, and
its answer put the first one ahead. -/
theorem mergeSort_safe {precedes : α → α → Task σ ε Bool} (h : Infallible precedes) (xs : List α) :
    let sort := (mergeSort (noted fun i j : Fin xs.length => precedes (xs.get i) (xs.get j))
      (List.finRange xs.length)).run []
    mergeSort precedes xs = (fun p => p.1.map xs.get) <$> sort ∧
      ∀ s, (sort s).EndsWith fun (order, dialogue) =>
        order.Perm (List.finRange xs.length) ∧
          order.IsChain fun i j => (i, j, true) ∈ dialogue ∨ (j, i, false) ∈ dialogue := by
  intro sort
  have hsort : sort = ((mergeSort Inquiry.question (List.finRange xs.length)).perform
      (noted fun i j : Fin xs.length => precedes (xs.get i) (xs.get j))).run [] := by
    rw [← mergeSort_eq_perform]
  constructor
  · have hitems := mergeSort_map precedes xs.get (List.finRange xs.length)
    rw [List.map_get_finRange] at hitems
    have hforget : Prod.fst <$> sort =
        mergeSort (fun i j : Fin xs.length => precedes (xs.get i) (xs.get j)) (List.finRange xs.length) := by
      rw [hsort, fst_perform_noted, ← mergeSort_eq_perform]
    rw [hitems]
    calc List.map xs.get <$> mergeSort (fun i j : Fin xs.length => precedes (xs.get i) (xs.get j))
          (List.finRange xs.length)
      _ = List.map xs.get <$> Prod.fst <$> sort := by rw [hforget]
      _ = (fun p => p.1.map xs.get) <$> sort := by rw [Functor.map_map]
  · intro s
    have hpositions : Infallible fun i j : Fin xs.length => precedes (xs.get i) (xs.get j) :=
      fun i j => h (xs.get i) (xs.get j)
    rw [hsort]
    refine (hpositions.perform_noted _ [] s).mono ?_
    rintro ⟨order, dialogue⟩ ⟨noted, hdialogue, hleads⟩
    obtain rfl : dialogue = noted := hdialogue
    exact ⟨hleads.perm_of_mergeSort, hleads.isChain_of_mergeSort⟩

/-- A comparison that looks at nothing: it pauses and then says yes and no in turn. -/
def alternating (_ _ : α) : Task Nat ε Bool := do
  Task.pause 1
  modifyGet fun calls => (calls % 2 == 0, calls + 1)

/-- Four items, two of them equal, come out each put ahead of the next by an answer that was given. -/
theorem mergeSort_safe_alternating :
    let items := ['c', 'a', 'c', 'b']
    let precedes : Char → Char → Task Nat Empty Bool := alternating
    let sort := (mergeSort (noted fun i j : Fin 4 => precedes (items.get i) (items.get j))
      (List.finRange 4)).run []
    Infallible precedes ∧ ∃ calls order dialogue, sort.run 0 = .done calls (order, dialogue) ∧
      order.Perm (List.finRange 4) ∧
        order.IsChain fun i j => (i, j, true) ∈ dialogue ∨ (j, i, false) ∈ dialogue := by
  intro items precedes sort
  have hinfallible : Infallible precedes := fun _ _ _ _ => trivial
  obtain ⟨calls, ⟨order, dialogue⟩, hrun, hsafe⟩ := ((mergeSort_safe hinfallible items).2 0).finish
  exact ⟨hinfallible, calls, order, dialogue, hrun, hsafe⟩

end Task

end ScriptValues.Sort
