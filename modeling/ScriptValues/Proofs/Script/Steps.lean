/-
How the steps of a run end (`outcomes`): with the machines that they leave, where `run` keeps only reports.
Evaluation that ends alike from machines that are the same makes all steps end alike (`outcomes_alike`), and
then the reports say the same (`run_alike`).
-/
import Mathlib.Data.List.Forall2
import ScriptValues.Proofs.Task.Follows
import ScriptValues.Script.Run

namespace ScriptValues.Script

/-- How each step ends, in order; a step that is exhausted leaves the machine as it was. -/
def outcomes (scope : Scope) : Machine → List Expr → List (Outcome Machine Fault Value)
  | _, [] => []
  | s, e :: es =>
    match Task.run (eval scope e) s.clearRecord with
    | .done s v => .done s v :: outcomes scope s es
    | .failed s e => .failed s e :: outcomes scope s es
    | .exhausted => .exhausted :: outcomes scope s es

variable {same : Machine → Machine → Prop}

/-- Steps end alike as far as evaluation does, if all end as `expected`. -/
theorem outcomes_alike {scope scope' : Scope} {expected : Outcome Machine Fault Value → Prop}
    (hclear : ∀ {s s'}, same s s' → same s.clearRecord s'.clearRecord)
    (heval : ∀ e {s s'}, same s s' → expected (Task.run (eval scope e) s) →
      (Task.run (eval scope e) s).Alike same (Task.run (eval scope' e) s'))
    {s s' : Machine} (hs : same s s') {es : List Expr} (hall : ∀ o ∈ outcomes scope s es, expected o) :
    List.Forall₂ (Outcome.Alike same) (outcomes scope s es) (outcomes scope' s' es) := by
  induction es generalizing s s' with
  | nil => exact .nil
  | cons e es ih =>
    have halike := heval e (hclear hs)
    rw [outcomes] at hall ⊢
    rw [outcomes]
    generalize Task.run (eval scope e) s.clearRecord = o at halike hall
    generalize Task.run (eval scope' e) s'.clearRecord = o' at halike
    cases o with
    | done s₁ v =>
      cases halike (hall _ List.mem_cons_self) with
      | done hs₁ => exact .cons (.done hs₁) (ih hs₁ fun o ho => hall o (List.mem_cons_of_mem _ ho))
    | failed s₁ e₁ =>
      cases halike (hall _ List.mem_cons_self) with
      | failed hs₁ => exact .cons (.failed hs₁) (ih hs₁ fun o ho => hall o (List.mem_cons_of_mem _ ho))
    | exhausted =>
      cases halike (hall _ List.mem_cons_self) with
      | exhausted => exact .cons .exhausted (ih hs fun o ho => hall o (List.mem_cons_of_mem _ ho))

/-- Steps that end alike are reported alike. -/
theorem run_alike {setting setting' : Setting} {watch : List String} {like : Report → Report → Prop}
    (hheap : ∀ {s s'}, same s s' → s.heap = s'.heap)
    (hreport : ∀ {s s'} r, same s s' → like (.ofMachine watch s r) (.ofMachine watch s' r))
    {s s' : Machine} (hs : same s s') {es : List Expr}
    (h : List.Forall₂ (Outcome.Alike same) (outcomes (topScope setting) s es)
      (outcomes (topScope setting') s' es)) :
    List.Forall₂ like (run setting watch s es) (run setting' watch s' es) := by
  induction es generalizing s s' with
  | nil => exact .nil
  | cons e es ih =>
    rw [outcomes, outcomes] at h
    rw [run, run, step, step]
    generalize Task.run (eval (topScope setting) e) s.clearRecord = o at h ⊢
    generalize Task.run (eval (topScope setting') e) s'.clearRecord = o' at h ⊢
    have halike : o.Alike same o' := by
      cases o <;> cases o' <;> cases h <;> assumption
    cases halike with
    | done hs₁ =>
      cases h with
      | cons _ hrest =>
        dsimp only
        rw [hheap hs₁]
        exact .cons (hreport _ hs₁) (ih hs₁ hrest)
    | failed hs₁ =>
      cases h with
      | cons _ hrest => exact .cons (hreport _ hs₁) (ih hs₁ hrest)
    | exhausted =>
      cases h with
      | cons _ hrest => exact .cons (hreport _ hs) (ih hs hrest)

theorem run_eq_of_outcomes_eq {setting setting' : Setting} {watch : List String} {s : Machine}
    {es : List Expr} (h : outcomes (topScope setting) s es = outcomes (topScope setting') s es) :
    run setting watch s es = run setting' watch s es := by
  have halike : List.Forall₂ (Outcome.Alike Eq) (outcomes (topScope setting) s es)
      (outcomes (topScope setting') s es) := h ▸ List.forall₂_same.2 fun o _ => .refl o
  rw [← List.forall₂_eq_eq_eq]
  exact run_alike (fun hs => congrArg Machine.heap hs) (fun r hs => congrArg (Report.ofMachine watch · r) hs)
    rfl halike

end ScriptValues.Script
