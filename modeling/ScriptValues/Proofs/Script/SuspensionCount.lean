/-
How often a suspension point gives its turn away, when `map` waits for each of its calls. Nothing then runs
side by side: every method waits for the function that it has called before it reads, writes or calls
anything else. So the counts show nowhere but in their own record (`suspension_counts_alike`).
-/
import ScriptValues.Proofs.Script.MapMode
import ScriptValues.Proofs.Task.Alone

namespace ScriptValues

/-- The machines differ at most in how many turns were given away. -/
structure Machine.SameButCounts (s s' : Machine) : Prop where
  core : s.core = s'.core
  events : s.events = s'.events

namespace Machine.SameButCounts

variable {s s' : Machine}

theorem heap (h : SameButCounts s s') : s.heap = s'.heap := congrArg Core.heap h.core

theorem clearRecord (h : SameButCounts s s') : SameButCounts s.clearRecord s'.clearRecord :=
  ⟨congrArg (fun k : Core => { k with log := #[] }) h.core, rfl⟩

theorem likeness : Likeness SameButCounts where
  core h := h.core
  withCore _ h := ⟨rfl, h.events⟩
  emit e h := ⟨h.core, congrArg (·.push e) h.events⟩

/-- What is reported is the same. -/
theorem report_eq (h : SameButCounts s s') (watch : List String) (r : StepResult) :
    Report.ofMachine watch s r = Report.ofMachine watch s' r := by
  have hglobals : s.globals = s'.globals := congrArg Core.globals h.core
  have hcalls : s.calls = s'.calls := congrArg Core.calls h.core
  have hlog : s.log = s'.log := congrArg Core.log h.core
  simp only [Report.ofMachine, h.heap, hglobals, hcalls, hlog, h.events]

end Machine.SameButCounts

/-- The setting with other counts. -/
def Setting.withDelay (setting : Setting) (delay : Nat → Nat → Nat) : Setting :=
  { setting with delay := delay }

namespace Script

/-- A suspension point ends alike however many turns it gives away, and wherever it stands in the run. -/
theorem suspend_endsAlike (delay delay' : Nat → Nat → Nat) (turns : Value) :
    (suspend delay turns).EndsAlike Machine.SameButCounts (suspend delay' turns) := by
  intro s s' hs
  let n := turns.num?.elim 0 Num.clampIndex
  let given := delay s.suspensions.size n
  let given' := delay' s'.suspensions.size n
  change Outcome.Alike _
    ((Task.pause given : Act Unit) { s with suspensions := s.suspensions.push given }).finish
    ((Task.pause given' : Act Unit) { s' with suspensions := s'.suspensions.push given' }).finish
  rw [Task.finish_pause, Task.finish_pause]
  exact .done ⟨hs.core, hs.events⟩

theorem sequential_runs (setting : Setting) (delay : Nat → Nat → Nat) :
    Runs (fun {α} (t t' : Act α) => t.EndsAlike Machine.SameButCounts t') Bound.call Bound.call
      (setting.withMap .sequential) ((setting.withMap .sequential).withDelay delay) where
  limit := rfl
  suspend := suspend_endsAlike setting.delay delay
  call {inner inner'} h b args := by
    have hrel := Machine.SameButCounts.likeness.endsAlike_congruence
    have hhost : Host.Related (fun {α} (t t' : Act α) => t.EndsAlike Machine.SameButCounts t')
        ⟨inner, (setting.withMap .sequential).config, setting.limit⟩
        ⟨inner', (setting.withMap .sequential).config, setting.limit⟩ := ⟨h, rfl, rfl⟩
    refine Bound.call_rel hrel hhost (fun c args => ?_) b args
    exact Callback.map_rel_of_sequential hrel.toCongruence hhost.invoke rfl rfl c args

/-- **Suspension is invisible when `map` waits for each of its calls.** Let the suspension points of a run
give away as many turns as they may, each as often as it likes, none included: each step ends the same, with
the same value or failure, in a machine with the same heap, globals, log, events and number of calls, and so
is reported the same. -/
theorem suspension_counts_alike (setting : Setting) (delay : Nat → Nat → Nat) (s : Machine)
    (es : List Expr) (watch : List String) :
    let waiting := setting.withMap .sequential
    List.Forall₂ (Outcome.Alike Machine.SameButCounts) (outcomes (topScope waiting) s es)
      (outcomes (topScope (waiting.withDelay delay)) s es) ∧
    run waiting watch s es = run (waiting.withDelay delay) watch s es := by
  intro waiting
  have hlike := Machine.SameButCounts.likeness
  have heval : ∀ e, (eval (topScope waiting) e).EndsAlike Machine.SameButCounts
      (eval (topScope (waiting.withDelay delay)) e) := by
    intro e
    have hruns := sequential_runs setting delay
    rw [← topScopeBy_call, ← topScopeBy_call]
    exact topScopeBy_rel hlike.endsAlike_congruence.toCongruence hruns e
  have halike : List.Forall₂ (Outcome.Alike Machine.SameButCounts) (outcomes (topScope waiting) s es)
      (outcomes (topScope (waiting.withDelay delay)) s es) :=
    have hall : ∀ o ∈ outcomes (topScope waiting) s es, (fun _ => True) o := fun _ _ => trivial
    outcomes_alike (fun hs => hs.clearRecord) (fun e _ _ hs _ => heval e _ _ hs) ⟨rfl, rfl⟩ hall
  refine ⟨halike, ?_⟩
  have hreports : List.Forall₂ Eq (run waiting watch s es) (run (waiting.withDelay delay) watch s es) :=
    run_alike (fun hs => hs.heap) (fun r hs => hs.report_eq watch r) ⟨rfl, rfl⟩ halike
  rwa [List.forall₂_eq_eq_eq] at hreports

/-- Side by side the counts decide: a call that pauses is not gone on with once another has failed. -/
example :
    let setting : Setting := ⟨{ map := .concurrent }, fun _ _ => 0, 3⟩
    let log : Expr := .suspend .null (.branch (.argument 0) (.log .null) (.raise "no"))
    let es : List Expr := [.method (.array [.bool true, .bool false]) "map" [.function [log]]]
    (run setting [] .start es).map (fun r => r.log.length) = [1] ∧
      (run (setting.withDelay fun point _ => 1 - point) [] .start es).map (fun r => r.log.length) = [0] := by
  decide +kernel

end Script

end ScriptValues
