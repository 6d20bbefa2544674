/-
The two modes of `map` when nothing suspends. A run is `Quiet` if all its steps come to an end even though
every function that a method calls is cut off as soon as it pauses: so none does. A quiet run is the same in
both modes but for the mode that `map` reports (`quiet_modes_alike`): same results, machines and reports.

Calls that do not pause are all issued one after the other; side by side, each has its turn before the next
begins, and the first to fail ends the whole in either mode.
-/
import ScriptValues.Proofs.Script.Congruence
import ScriptValues.Proofs.Script.Steps

namespace ScriptValues

/-! ## All but the mode -/

/-- The event without the mode of a `map`. -/
def Event.forgetMode : Event → Event
  | .mapped count _ => .mapped count default
  | e => e

/-- The machines differ at most in the modes in their events. -/
structure Machine.SameButMode (s s' : Machine) : Prop where
  core : s.core = s'.core
  suspensions : s.suspensions = s'.suspensions
  events : s.events.map Event.forgetMode = s'.events.map Event.forgetMode

namespace Machine.SameButMode

variable {s s' : Machine}

theorem refl (s : Machine) : SameButMode s s := ⟨rfl, rfl, rfl⟩

theorem heap (h : SameButMode s s') : s.heap = s'.heap := congrArg Core.heap h.core

theorem clearRecord (h : SameButMode s s') : SameButMode s.clearRecord s'.clearRecord :=
  ⟨congrArg (fun k : Core => { k with log := #[] }) h.core, h.suspensions, rfl⟩

theorem emit (h : SameButMode s s') {e e' : Event} (he : e.forgetMode = e'.forgetMode) :
    SameButMode { s with events := s.events.push e } { s' with events := s'.events.push e' } := by
  refine ⟨h.core, h.suspensions, ?_⟩
  rw [Array.map_push, Array.map_push, h.events, he]

theorem suspend (h : SameButMode s s') (given : Nat) :
    SameButMode { s with suspensions := s.suspensions.push given }
      { s' with suspensions := s'.suspensions.push given } :=
  ⟨h.core, congrArg (·.push given) h.suspensions, h.events⟩

theorem likeness : Likeness SameButMode where
  core h := h.core
  withCore _ h := ⟨rfl, h.suspensions, h.events⟩
  emit _ h := h.emit rfl

end Machine.SameButMode

/-- The report without the modes in its events. -/
def Report.forgetMode (r : Report) : Report := { r with events := r.events.map Event.forgetMode }

theorem Machine.SameButMode.report {s s' : Machine} (h : SameButMode s s') (watch : List String)
    (r : StepResult) :
    (Report.ofMachine watch s r).forgetMode = (Report.ofMachine watch s' r).forgetMode := by
  have hglobals : s.globals = s'.globals := congrArg Core.globals h.core
  have hcalls : s.calls = s'.calls := congrArg Core.calls h.core
  have hlog : s.log = s'.log := congrArg Core.log h.core
  have hevents : s.events.toList.map Event.forgetMode = s'.events.toList.map Event.forgetMode := by
    rw [← Array.toList_map, ← Array.toList_map, h.events]
  simp only [Report.forgetMode, Report.ofMachine, h.heap, hglobals, hcalls, hlog, hevents]

/-! ## Calls that do not pause -/

theorem Task.pause_follows {σ ε : Type} {cut : Prop} {same : σ → σ → Prop} (n : Nat) :
    Task.Follows cut same (Task.pause n : Task σ ε Unit) (Task.pause n) := by
  induction n with
  | zero => exact fun _ _ hs => .done hs
  | succ n ih => exact fun _ _ hs => .paused hs ih

namespace Callback

/-- Calls that do not pause are issued one after the other in either mode. -/
theorem issue_of_prompt (host : Host) {calls : List (Act Value)} (h : ∀ t ∈ calls, t.Prompt) :
    issue host calls = Task.sequence calls := by
  unfold issue
  cases host.config.map with
  | concurrent => exact Task.gather_eq_sequence h
  | sequential => rfl

theorem sequence_follows_issue {cut : Prop} {same : Machine → Machine → Prop} (host : Host)
    {calls calls' : List (Act Value)} (h : List.Forall₂ (Task.Follows cut same) calls calls')
    (hprompt : ∀ t ∈ calls, t.Prompt) :
    (Task.sequence calls).Follows cut same (issue host calls') := by
  unfold issue
  cases host.config.map with
  | concurrent => exact Task.sequence_follows_gather h hprompt
  | sequential => exact Task.sequence_follows_sequence h

theorem callBack_prompt {host : Host} (h : ∀ f args, (host.invoke f args).Prompt) (m : CallbackMethod)
    (f : Fn) (args : List Value) : (callBack host m f args).Prompt :=
  fun s => h f args { s with events := s.events.push (.callback m f.name) }

theorem answerMapped_follows {cut : Prop} (host host' : Host) (count : Nat) (results : List Value) :
    (answerMapped host count results).Follows cut Machine.SameButMode (answerMapped host' count results) := by
  intro s s' hs
  have hmode : (Event.mapped count host.config.map).forgetMode =
      (Event.mapped count host'.config.map).forgetMode := rfl
  rw [answerMapped, answerMapped, ← hs.heap]
  refine .done ⟨?_, hs.suspensions, (hs.emit hmode).events⟩
  exact congrArg (fun k : Core => { k with heap := s.heap.alloc results.toArray }) hs.core

/-- **A `map` whose calls do not pause** is in step with the same `map` in either mode, as far as its
answer is. -/
theorem map_follows {cut : Prop} {same : Machine → Machine → Prop} (hlike : Machine.Likeness same)
    {host host' : Host} (h : Host.Related (fun {α} (t t' : Act α) => t.Follows cut same t') host host')
    (hprompt : ∀ f args, (host.invoke f args).Prompt)
    (hanswer : ∀ count results,
      (answerMapped host count results).Follows cut same (answerMapped host' count results))
    (c : Cell) (args : List Value) : (map host c args).Follows cut same (map host' c args) := by
  have hrel : Congruence fun {α} (t t' : Act α) => t.Follows cut same t' := hlike.congruence.toCongruence
  refine map_rel hrel.toPlainCongruence (fun f items => ?_) hanswer c args
  have hcalls : ∀ t ∈ mapCalls host f items, t.Prompt := by
    intro t ht
    obtain ⟨i, hi, rfl⟩ := List.mem_mapIdx.1 ht
    exact callBack_prompt hprompt _ _ _
  rw [issue_of_prompt host hcalls]
  exact sequence_follows_issue host' (mapCalls_rel (callBack_rel hrel h.invoke .map) f items) hcalls

end Callback

/-! ## Quiet runs -/

/-- The setting with another mode of `map`. -/
def Setting.withMap (setting : Setting) (mode : MapMode) : Setting :=
  { setting with config := { setting.config with map := mode } }

namespace Script

/-- Calls of functions, cut off if they pause. -/
def quietly (inner : Invoke) : Invoke := fun f args => Task.atOnce (inner f args)

/-- All steps come to an end, and no function that a method calls pauses. -/
def Quiet (setting : Setting) (s : Machine) (es : List Expr) : Prop :=
  ∀ o ∈ outcomes (topScopeLending quietly setting) s es, o.ended = true

instance (setting : Setting) (s : Machine) (es : List Expr) : Decidable (Quiet setting s es) :=
  inferInstanceAs (Decidable (∀ o ∈ outcomes (topScopeLending quietly setting) s es, o.ended = true))

theorem suspend_follows {cut : Prop} (delay : Nat → Nat → Nat) (turns : Value) :
    (suspend delay turns).Follows cut Machine.SameButMode (suspend delay turns) := by
  intro s s' hs
  let n := turns.num?.elim 0 Num.clampIndex
  have hgiven : delay s'.suspensions.size n = delay s.suspensions.size n := by rw [hs.suspensions]
  change Turn.Follows cut _ ((Task.pause (delay s.suspensions.size n) : Act Unit) _)
    ((Task.pause (delay s'.suspensions.size n) : Act Unit)
      { s' with suspensions := s'.suspensions.push (delay s'.suspensions.size n) })
  rw [hgiven]
  exact Task.pause_follows _ _ _ (hs.suspend _)

/-- Cutting calls off keeps runs in step, as far as suspending and the answer of `map` do. -/
theorem quietly_lends {same : Machine → Machine → Prop} (hlike : Machine.Likeness same)
    {setting : Setting} {mode : MapMode}
    (hsuspend : ∀ turns, (suspend setting.delay turns).Follows True same (suspend setting.delay turns))
    (hanswer : ∀ (host host' : Host) count results, host.config = setting.config →
      host'.config = (setting.withMap mode).config →
      (Callback.answerMapped host count results).Follows True same
        (Callback.answerMapped host' count results)) :
    Lends (fun {α} (t t' : Act α) => t.Follows True same t') quietly id setting
      (setting.withMap mode) where
  iteration := rfl
  limit := rfl
  suspend := hsuspend
  lent h f args := (h f args).atOnce
  map {inner inner'} h c args := by
    have hhost : Host.Related (fun {α} (t t' : Act α) => t.Follows True same t')
        ⟨quietly inner, setting.config, setting.limit⟩
        ⟨inner', (setting.withMap mode).config, setting.limit⟩ :=
      ⟨fun f args => (h f args).atOnce, rfl, rfl⟩
    exact Callback.map_follows hlike hhost (fun f args => Task.prompt_atOnce _)
      (fun count results => hanswer _ _ count results rfl rfl) c args

variable {setting : Setting} {s : Machine} {es : List Expr}

theorem Quiet.outcomes_alike_of_lends {same : Machine → Machine → Prop} {mode : MapMode}
    (h : Quiet setting s es) (hlike : Machine.Likeness same)
    (hclear : ∀ {s s'}, same s s' → same s.clearRecord s'.clearRecord)
    (hlends : Lends (fun {α} (t t' : Act α) => t.Follows True same t') quietly id setting
      (setting.withMap mode)) (hs : same s s) :
    List.Forall₂ (Outcome.Alike same) (outcomes (topScopeLending quietly setting) s es)
      (outcomes (topScope (setting.withMap mode)) s es) := by
  refine outcomes_alike (fun hs => hclear hs) (fun e s s' hs hend => ?_) hs h
  have hruns := hlends.runs hlike.congruence
  rw [topScopeLending_eq, ← topScopeBy_call]
  rw [topScopeLending_eq] at hend
  exact (topScopeBy_rel hlike.congruence.toCongruence hruns e s s' hs).finish hend

/-- Cutting calls off changes nothing in a quiet run. -/
theorem Quiet.outcomes_eq (h : Quiet setting s es) :
    outcomes (topScopeLending quietly setting) s es = outcomes (topScope setting) s es := by
  have hlends : Lends (fun {α} (t t' : Act α) => t.Follows True Eq t') quietly id setting
      (setting.withMap setting.config.map) := by
    refine quietly_lends .eq (fun turns s s' hs => hs ▸ .refl _) ?_
    intro host host' count results hconfig hconfig' s s' hs
    rw [Callback.answerMapped, Callback.answerMapped, hconfig, hconfig', hs]
    exact .done rfl
  have halike := h.outcomes_alike_of_lends .eq (fun hs => congrArg _ hs) hlends rfl
  rw [← List.forall₂_eq_eq_eq]
  exact halike.imp fun _ _ ho => ho.eq

/-- A quiet run goes on alike in every mode. -/
theorem Quiet.outcomes_alike (h : Quiet setting s es) (mode : MapMode) :
    List.Forall₂ (Outcome.Alike Machine.SameButMode) (outcomes (topScope setting) s es)
      (outcomes (topScope (setting.withMap mode)) s es) := by
  have hlike := Machine.SameButMode.likeness
  have hlends : Lends (fun {α} (t t' : Act α) => t.Follows True Machine.SameButMode t') quietly id
      setting (setting.withMap mode) :=
    quietly_lends hlike (suspend_follows setting.delay) fun host host' count results _ _ =>
      Callback.answerMapped_follows host host' count results
  rw [← h.outcomes_eq]
  exact h.outcomes_alike_of_lends hlike (fun hs => hs.clearRecord) hlends (.refl s)

/-- **The modes of `map` are alike when nothing suspends.** Let a run come to its end, no function that a
method calls ever pausing. Then its steps end alike in every mode: with the same values and failures, in
machines that differ at most in the modes in their events; and so do its reports. -/
theorem quiet_modes_alike (setting : Setting) (mode : MapMode) (s : Machine) (es : List Expr)
    (watch : List String) (h : Quiet setting s es) :
    List.Forall₂ (Outcome.Alike Machine.SameButMode) (outcomes (topScope setting) s es)
      (outcomes (topScope (setting.withMap mode)) s es) ∧
    (run setting watch s es).map Report.forgetMode =
      (run (setting.withMap mode) watch s es).map Report.forgetMode := by
  have halike := h.outcomes_alike mode
  refine ⟨halike, ?_⟩
  have hreports : List.Forall₂ (fun r r' : Report => r.forgetMode = r'.forgetMode)
      (run setting watch s es) (run (setting.withMap mode) watch s es) :=
    run_alike (fun hs => hs.heap) (fun r hs => hs.report watch r) (.refl s) halike
  rwa [← List.forall₂_eq_eq_eq, List.forall₂_map_left_iff, List.forall₂_map_right_iff]

/-- Two steps without suspensions in calls: one suspends, then logs each element and a `map` of its own; in
the other each call fails. -/
def quietSteps : List Expr :=
  let inner : Expr := .method (.array [.argument 0]) "map" [.function [.argument 1]]
  [.suspend .null (.method (.array [.bool true, .null]) "map" [.function [.log (.argument 0), inner]]),
    .method (.array [.bool true, .bool false]) "map" [.function [.log (.argument 0), .raise "no"]]]

/-- The steps are quiet, and so the same in both modes. -/
theorem quietSteps_alike :
    let setting : Setting := ⟨{ map := .concurrent }, fun _ _ => 1, 4⟩
    Quiet setting Machine.start quietSteps ∧
      List.Forall₂ (Outcome.Alike Machine.SameButMode)
        (outcomes (topScope setting) Machine.start quietSteps)
        (outcomes (topScope (setting.withMap .sequential)) Machine.start quietSteps) := by
  intro setting
  have hquiet : Quiet setting Machine.start quietSteps := by decide +kernel
  exact ⟨hquiet, (quiet_modes_alike setting .sequential Machine.start quietSteps [] hquiet).1⟩

end Script

end ScriptValues
