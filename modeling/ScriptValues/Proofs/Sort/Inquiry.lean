/-
The sort as a tree of questions. `Inquiry` is a computation that asks comparisons one at a time and goes
on with the answers; the sort run on questions (`mergeSort Inquiry.question`) is such a tree, and it holds
all that the sort does by itself, whatever answers.

`mergeSort_eq_perform`: in every lawful monad the sort is its tree, performed with the comparison. So a
fact about the tree is a fact about the sort with any comparison: one that suspends, fails or keeps a
state.
-/
import ScriptValues.Sort.Merge
import ScriptValues.Task.Basic

namespace ScriptValues.Sort

/-- A computation that asks whether one thing precedes another. -/
inductive Inquiry (α β : Type)
  | result (b : β)
  | ask (left right : α) (next : Bool → Inquiry α β)

namespace Inquiry

variable {α β γ : Type}

def bind : Inquiry α β → (β → Inquiry α γ) → Inquiry α γ
  | .result b, f => f b
  | .ask a c next, f => .ask a c fun answer => bind (next answer) f

instance : Monad (Inquiry α) where
  pure := .result
  bind := bind

/-- The question alone. -/
def question (a c : α) : Inquiry α Bool := .ask a c .result

/-- The questions asked of a comparison. -/
def perform {m : Type → Type} [Monad m] (precedes : α → α → m Bool) : Inquiry α β → m β
  | .result b => pure b
  | .ask a c next => do
    let answer ← precedes a c
    perform precedes (next answer)

/-- The result when the answers are those of a function. -/
def follow (p : α → α → Bool) : Inquiry α β → β
  | .result b => b
  | .ask a c next => follow p (next (p a c))

@[simp] theorem perform_pure {m : Type → Type} [Monad m] (precedes : α → α → m Bool) (b : β) :
    (pure b : Inquiry α β).perform precedes = pure b := rfl

@[simp] theorem perform_bind {m : Type → Type} [Monad m] [LawfulMonad m] (precedes : α → α → m Bool)
    (t : Inquiry α β) (f : β → Inquiry α γ) :
    (t >>= f).perform precedes = t.perform precedes >>= fun b => (f b).perform precedes := by
  change (t.bind f).perform precedes = _
  induction t with
  | result b => simp only [bind, perform, pure_bind]
  | ask a c next ih => simp only [bind, perform, bind_assoc, ih]

@[simp] theorem perform_question {m : Type → Type} [Monad m] [LawfulMonad m]
    (precedes : α → α → m Bool) (a c : α) : (question a c).perform precedes = precedes a c := by
  simp only [question, perform, bind_pure]

@[simp] theorem follow_pure (p : α → α → Bool) (b : β) : (pure b : Inquiry α β).follow p = b := rfl

@[simp] theorem follow_bind (p : α → α → Bool) (t : Inquiry α β) (f : β → Inquiry α γ) :
    (t >>= f).follow p = (f (t.follow p)).follow p := by
  change (t.bind f).follow p = _
  induction t with
  | result b => rfl
  | ask a c next ih => exact ih _

@[simp] theorem follow_question (p : α → α → Bool) (a c : α) : (question a c).follow p = p a c := rfl

end Inquiry

section Perform

variable {m : Type → Type} [Monad m] {α : Type}

theorem mergeSort_short (precedes : α → α → m Bool) {xs : List α} (h : xs.length ≤ 1) :
    mergeSort precedes xs = pure xs := by
  rw [mergeSort, dif_pos h]

theorem mergeSort_halves (precedes : α → α → m Bool) {xs : List α} (h : ¬ xs.length ≤ 1) :
    mergeSort precedes xs =
      (do let left ← mergeSort precedes (xs.take (xs.length / 2))
          let right ← mergeSort precedes (xs.drop (xs.length / 2))
          merge precedes left right) := by
  rw [mergeSort, dif_neg h]

variable [LawfulMonad m]

theorem merge_eq_perform (precedes : α → α → m Bool) (xs ys : List α) :
    merge precedes xs ys = (merge Inquiry.question xs ys).perform precedes := by
  induction xs generalizing ys with
  | nil => simp only [merge, Inquiry.perform_pure]
  | cons x xs ihx =>
    induction ys with
    | nil => simp only [merge, Inquiry.perform_pure]
    | cons y ys ihy =>
      simp only [merge, Inquiry.perform_bind, Inquiry.perform_question]
      congr 1
      funext first
      cases first with
      | true =>
        simp only [↓reduceIte, Inquiry.perform_bind, Inquiry.perform_pure, ihx (y :: ys)]
      | false =>
        simp only [Bool.false_eq_true, ↓reduceIte, Inquiry.perform_bind, Inquiry.perform_pure, ihy]

/-- **The sort is its tree of questions**, performed with the comparison. -/
theorem mergeSort_eq_perform (precedes : α → α → m Bool) (xs : List α) :
    mergeSort precedes xs = (mergeSort Inquiry.question xs).perform precedes := by
  induction xs using mergeSort.induct with
  | case1 xs h => rw [mergeSort_short _ h, mergeSort_short _ h, Inquiry.perform_pure]
  | case2 xs h ihl ihr =>
    rw [mergeSort_halves _ h, mergeSort_halves _ h, ihl, ihr]
    simp only [merge_eq_perform precedes, Inquiry.perform_bind]

end Perform

/-! ## Comparisons that are functions -/

section Task

variable {σ ε α β : Type}

/-- The comparison is a function of its two arguments: whatever it does to the state, and however often
it pauses, it ends with the answer of `p`. -/
def Answers (precedes : α → α → Task σ ε Bool) (p : α → α → Bool) : Prop :=
  ∀ a b s, ∃ s', (precedes a b).run s = .done s' (p a b)

theorem Answers.run_perform {precedes : α → α → Task σ ε Bool} {p : α → α → Bool}
    (h : Answers precedes p) (t : Inquiry α β) (s : σ) :
    ∃ s', (t.perform precedes).run s = .done s' (t.follow p) := by
  induction t generalizing s with
  | result b => exact ⟨s, rfl⟩
  | ask a c next ih =>
    obtain ⟨s₁, h₁⟩ := h a c s
    obtain ⟨s₂, h₂⟩ := ih (p a c) s₁
    refine ⟨s₂, ?_⟩
    change ((precedes a c s).bind _).finish = _
    rw [Turn.finish_bind]
    rw [Task.run] at h₁
    rw [h₁]
    exact h₂

end Task

end ScriptValues.Sort
