/-
What is counted in a run. Scripts call functions, methods call functions, and a `map` or a `sort` succeeds:
these are the deeds of a run (`Deed`). `invokeTallying` calls functions as `invoke` does, only that the machine
counts the deeds of one kind instead of all calls; who makes a call and whether a method has succeeded is seen from
outside, where the function or the method is called, and not by the events that it reports.

`eval_tallied`: such a run is in step with the plain one, through all nesting, failures, suspensions and maps side
by side, and the two counts are what the events tell (`Tallied`). `callbacks_accounted` puts the counts of a step
beside what each `map` and each `sort` reports of itself.
-/
import ScriptValues.Proofs.Method.Reports
import ScriptValues.Proofs.Script.MapMode
import ScriptValues.Proofs.Task.Alone
import ScriptValues.Script.Run

namespace ScriptValues

/-- What is counted in a run. -/
inductive Deed
  /-- A script calls a function. -/
  | called
  /-- A method calls a function. -/
  | issued (m : CallbackMethod)
  /-- A `map` succeeds. -/
  | mapped
  /-- A `sort` succeeds. -/
  | sorted
deriving DecidableEq

/-- The deed that an event tells of. -/
def Event.deed? : Event → Option Deed
  | .resolve _ _ => none
  | .callback m _ => some (.issued m)
  | .mapped _ _ => some .mapped
  | .sorted _ _ => some .sorted

def Event.isCallback : Event → Bool
  | .callback _ _ => true
  | _ => false

namespace Machine

/-- The deeds that the events of the machine tell of, in order. -/
def deeds (s : Machine) : List Deed := s.events.toList.filterMap Event.deed?

/-- How many calls by methods the events of the machine tell of. -/
def callbacks (s : Machine) : Nat := s.events.toList.countP Event.isCallback

/-- The machine that counts all calls beside the one that counts deeds of one kind; `n` had been counted when the
record of events was empty, and `own` calls by scripts have been made since. -/
structure Tallied (counted : Deed) (n : Nat) (s s' : Machine) : Prop where
  same : s' = { s with calls := s'.calls }
  calls : ∃ own, s.calls = n + own + s.callbacks ∧
    s'.calls = n + (if counted = .called then own else 0) + s.deeds.count counted

end Machine

namespace Script

/-- Counts a deed if it is of the kind that is counted. -/
def tally (counted : Deed) (deed : Option Deed) : Act Unit :=
  if deed = some counted then Act.countCall else pure ()

/-- What the calls of a bound method are. -/
def issues : Bound → Deed
  | .callback _ m => .issued m
  | _ => .called

/-- What it is when a bound method succeeds. -/
def success : Bound → Option Deed
  | .callback _ .map => some .mapped
  | .callback _ .sort => some .sorted
  | _ => none

/-- Calls functions as `invoke` does, but counts the deeds of one kind. The call itself is a deed, too. -/
def invokeTallying (counted : Deed) (setting : Setting) : (depth : Nat) → (deed : Deed) → Invoke
  | 0, _, _, _ => Task.exhausted
  | depth + 1, deed, f, args => do
    tally counted (some deed)
    match f with
    | .native _ bound => do
      let host : Host := ⟨invokeTallying counted setting depth (issues bound), setting.config, setting.limit⟩
      let v ← bound.call host args
      tally counted (success bound)
      pure v
    | .script id =>
      let s ← get
      let host : Host := ⟨invokeTallying counted setting depth .called, setting.config, setting.limit⟩
      eval ⟨host, setting.delay, args⟩ (.block (s.body id))

/-- The scope of an expression outside every call, deeds of one kind being counted. -/
def tallyScope (counted : Deed) (setting : Setting) : Scope :=
  ⟨⟨invokeTallying counted setting setting.limit .called, setting.config, setting.limit⟩, setting.delay, []⟩

end Script

/-! ## Two counts -/

theorem Uncounting.calls_eq {α : Type} {f : Core → α × Core} (hf : Uncounting f) (k : Core) :
    (f k).2.calls = k.calls :=
  congrArg (fun p : α × Core => p.2.calls) (hf k k.calls)

namespace Machine

theorem deeds_push (s : Machine) (e : Event) :
    ({ s with events := s.events.push e } : Machine).deeds = s.deeds ++ e.deed?.toList := by
  rw [deeds, Array.toList_push, List.filterMap_append, deeds]
  cases e <;> rfl

theorem callbacks_push (s : Machine) (e : Event) :
    ({ s with events := s.events.push e } : Machine).callbacks = s.callbacks + if e.isCallback then 1 else 0 := by
  rw [callbacks, Array.toList_push, List.countP_append, List.countP_singleton, callbacks]

theorem count_deed (counted : Deed) (deed : Option Deed) :
    deed.toList.count counted = if deed = some counted then 1 else 0 := by
  cases deed with
  | none => rfl
  | some d => simp [List.count_singleton]

namespace Tallied

variable {counted : Deed} {n : Nat} {s s' : Machine}

theorem withCore {α : Type} {f : Core → α × Core} (hf : Uncounting f) (h : Tallied counted n s s') :
    (f s'.core).1 = (f s.core).1 ∧
      Tallied counted n (s.withCore (f s.core).2) (s'.withCore (f s'.core).2) := by
  obtain ⟨hsame, own, hcalls, hcounted⟩ := h
  have hcore : s'.core = { s.core with calls := s'.calls } := by
    rw [hsame]
    rfl
  have hf' := hf s.core s'.calls
  rw [← hcore] at hf'
  rw [hf']
  refine ⟨rfl, ?_, own, ?_, hcounted⟩
  · rw [hsame]
    rfl
  · exact (hf.calls_eq s.core).trans hcalls

theorem suspend (h : Tallied counted n s s') (given : Nat) :
    Tallied counted n { s with suspensions := s.suspensions.push given }
      { s' with suspensions := s'.suspensions.push given } := by
  refine ⟨?_, h.calls⟩
  rw [h.same]

/-- A call by a script. -/
theorem call (h : Tallied counted n s s') :
    Tallied counted n { s with calls := s.calls + 1 }
      { s' with calls := s'.calls + if some Deed.called = some counted then 1 else 0 } := by
  obtain ⟨hsame, own, hcalls, hcounted⟩ := h
  refine ⟨?_, own + 1, ?_, ?_⟩
  · rw [hsame]
  · change s.calls + 1 = n + (own + 1) + s.callbacks
    omega
  · change s'.calls + _ = n + _ + s.deeds.count counted
    rw [hcounted]
    cases counted with
    | called => simp only [↓reduceIte]; omega
    | _ => simp

/-- An event, with the call or the success that it tells of. -/
theorem report (h : Tallied counted n s s') (e : Event) :
    Tallied counted n
      { s with events := s.events.push e, calls := s.calls + if e.isCallback then 1 else 0 }
      { s' with events := s'.events.push e, calls := s'.calls + if e.deed? = some counted then 1 else 0 } := by
  obtain ⟨hsame, own, hcalls, hcounted⟩ := h
  refine ⟨?_, own, ?_, ?_⟩
  · rw [hsame]
  · change s.calls + _ = n + own + ({ s with events := s.events.push e } : Machine).callbacks
    rw [callbacks_push, hcalls]
    omega
  · change s'.calls + _ = n + _ + ({ s with events := s.events.push e } : Machine).deeds.count counted
    rw [deeds_push, List.count_append, count_deed, hcounted]
    omega

end Tallied

end Machine

/-! ## In step -/

namespace Script

variable {counted : Deed} {n : Nat}

/-- The tasks are in step, the second counting deeds of one kind. -/
abbrev TalliesAs (counted : Deed) (n : Nat) {α : Type} (t t' : Act α) : Prop :=
  t.Follows False (Machine.Tallied counted n) t'

theorem onCore_tallied {α : Type} {f : Core → α × Core} (hf : Uncounting f) :
    TalliesAs counted n (Act.onCore f) (Act.onCore f) := by
  intro s s' hs
  obtain ⟨hvalue, hs₁⟩ := hs.withCore hf
  rw [Act.onCore, Act.onCore, hvalue]
  exact .done hs₁

theorem tallied_congruence : PlainCongruence fun {α} (t t' : Act α) => TalliesAs counted n t t' where
  onCore _ _ hf := onCore_tallied hf
  resolved kind name := fun _ _ hs => .done (hs.report (.resolve kind name))
  throw _ := fun _ _ hs => .failed hs
  exhausted := fun _ _ _ => .exhausted
  bind ht hf := fun s s' hs => (ht s s' hs).bind hf
  rescue ht hf := fun s s' hs => (ht s s' hs).handle hf

theorem write_tallied (c : Cell) (items : Array Value) :
    TalliesAs counted n (Act.write c items) (Act.write c items) := by
  have hwrite : Uncounting fun k => ((), { k with heap := k.heap.write c items }) := fun _ _ => rfl
  exact onCore_tallied hwrite

theorem suspend_tallied (delay : Nat → Nat → Nat) (turns : Value) :
    TalliesAs counted n (suspend delay turns) (suspend delay turns) := by
  intro s s' hs
  let asked := turns.num?.elim 0 Num.clampIndex
  have hgiven : delay s'.suspensions.size asked = delay s.suspensions.size asked := by rw [hs.same]
  change Turn.Follows False _ ((Task.pause (delay s.suspensions.size asked) : Act Unit) _)
    ((Task.pause (delay s'.suspensions.size asked) : Act Unit)
      { s' with suspensions := s'.suspensions.push (delay s'.suspensions.size asked) })
  rw [hgiven]
  exact Task.pause_follows _ _ _ (hs.suspend _)

theorem tally_eq (counted : Deed) (deed : Option Deed) (s : Machine) :
    tally counted deed s = .done { s with calls := s.calls + if deed = some counted then 1 else 0 } () := by
  unfold tally
  split <;> rfl

/-- A call by a script. -/
theorem countCall_tallied : TalliesAs counted n Act.countCall (tally counted (some .called)) := by
  intro s s' hs
  rw [tally_eq]
  exact .done hs.call

/-- A call by a method, with its report. -/
theorem callback_tallied (m : CallbackMethod) (name : String) :
    TalliesAs counted n (do Act.emit (.callback m name); Act.countCall)
      (do Act.emit (.callback m name); tally counted (some (.issued m))) := by
  intro s s' hs
  change Turn.Follows False _ _
    (tally counted (some (.issued m)) { s' with events := s'.events.push (.callback m name) })
  rw [tally_eq]
  exact .done (hs.report (.callback m name))

/-! ## Methods -/

section Methods

variable {host host' : Host}

/-- The end of a `map` that succeeds. -/
theorem answerMapped_tallied (hmode : host.config.map = host'.config.map) (count : Nat) (results : List Value) :
    TalliesAs counted n (Callback.answerMapped host count results)
      (do let v ← Callback.answerMapped host' count results
          tally counted (some .mapped)
          pure v) := by
  intro s s' hs
  let made : Core → Value × Core := fun k => (.arr k.heap.next, { k with heap := k.heap.alloc results.toArray })
  have hmade : Uncounting made := fun _ _ => rfl
  obtain ⟨hvalue, hs₁⟩ := (hs.report (.mapped count host.config.map)).withCore hmade
  change Turn.Follows False _ _ ((tally counted (some .mapped) _).bind fun _ => pure (made s'.core).1)
  rw [tally_eq, ← hmode]
  change (made s'.core).1 = (made s.core).1 at hvalue
  rw [hvalue]
  exact .done hs₁

/-- The end of a `sort` that succeeds. -/
theorem answerSorted_tallied (c : Cell) (count comparisons : Nat) (sorted : List Value) :
    TalliesAs counted n
      (do Act.write c sorted.toArray
          Act.emit (.sorted count comparisons)
          pure (Value.arr c))
      (do Act.write c sorted.toArray
          Act.emit (.sorted count comparisons)
          tally counted (some .sorted)
          pure (.arr c)) := by
  refine tallied_congruence.bind (write_tallied c _) fun _ s s' hs => ?_
  change Turn.Follows False _ _ ((tally counted (some .sorted) _).bind fun _ => pure (Value.arr c))
  rw [tally_eq]
  exact .done (hs.report (.sorted count comparisons))

theorem tally_none (counted : Deed) : tally counted none = pure () := if_neg nofun

/-- Methods are run in step, and their successes are counted. -/
theorem call_tallied {b : Bound} (hmode : host.config.map = host'.config.map)
    (hcalls : ∀ c m, b = .callback c m →
      Host.CallsBack (fun {α} (t t' : Act α) => TalliesAs counted n t t') m host host') (args : List Value) :
    TalliesAs counted n (b.call host args)
      (do let v ← b.call host' args
          tally counted (success b)
          pure v) := by
  have hrel := @tallied_congruence counted n
  have hplain : success b = none → TalliesAs counted n (b.call host args) (b.call host' args) →
      TalliesAs counted n (b.call host args) (do
        let v ← b.call host' args
        tally counted (success b)
        pure v) := by
    intro hsuccess h
    rw [hsuccess, tally_none]
    simpa only [pure_bind, bind_pure] using h
  cases b with
  | num x m => exact hplain rfl (Bound.call_rel_of_callback hrel write_tallied fun _ _ => nofun)
  | str text m => exact hplain rfl (Bound.call_rel_of_callback hrel write_tallied fun _ _ => nofun)
  | arr c m => exact hplain rfl (Bound.call_rel_of_callback hrel write_tallied fun _ _ => nofun)
  | callback c m =>
    have hcall := hcalls c m rfl
    cases m with
    | filter => exact hplain rfl (Callback.filter_rel hrel hcall c args)
    | reduce => exact hplain rfl (Callback.reduce_rel hrel hcall c args)
    | find => exact hplain rfl (Callback.find_rel hrel hcall c args)
    | map =>
      simp only [Bound.call, Callback.run, Callback.map_eq_mapping, bind_assoc]
      refine hrel.bind (Callback.mapping_rel hrel (fun f items => ?_) c args) fun p => ?_
      · exact Callback.issue_follows hmode (Callback.mapCalls_rel hcall.callBack f items)
      · exact answerMapped_tallied hmode p.1 p.2
    | sort =>
      simp only [Bound.call, Callback.run, Callback.sort_eq_sorting, bind_assoc, pure_bind]
      refine hrel.bind (Callback.sorting_rel hrel hcall.callBack c args) fun p => ?_
      exact answerSorted_tallied c p.1 p.2.2 p.2.1

end Methods

/-! ## Runs -/

/-- Calls are made in step at every depth: those by scripts, and those by methods with their reports. -/
theorem invoke_tallied (setting : Setting) (depth : Nat) :
    (∀ f args, TalliesAs counted n (invoke setting depth f args)
      (invokeTallying counted setting depth .called f args)) ∧
    ∀ m f args, TalliesAs counted n
      (Callback.callBack ⟨invoke setting depth, setting.config, setting.limit⟩ m f args)
      (Callback.callBack ⟨invokeTallying counted setting depth (.issued m), setting.config, setting.limit⟩
        m f args) := by
  induction depth with
  | zero => exact ⟨fun _ _ _ _ _ => .exhausted, fun _ _ _ _ _ _ => .exhausted⟩
  | succ depth ih =>
    obtain ⟨hcalled, hissued⟩ := ih
    have hrel := @tallied_congruence counted n
    -- What a call does once it has been counted is the same whoever has made it.
    have hbody : ∀ f args, ∃ body body' : Act Value, TalliesAs counted n body body' ∧
        invoke setting (depth + 1) f args = (do Act.countCall; body) ∧
        ∀ deed, invokeTallying counted setting (depth + 1) deed f args =
          (do tally counted (some deed); body') := by
      intro f args
      cases f with
      | native k bound =>
        let host : Host := ⟨invoke setting depth, setting.config, setting.limit⟩
        let host' : Host := ⟨invokeTallying counted setting depth (issues bound), setting.config, setting.limit⟩
        refine ⟨_, _, @call_tallied counted n host host' bound rfl ?_ args, rfl, fun _ => rfl⟩
        rintro c m rfl
        exact ⟨hissued m, rfl, rfl⟩
      | script id =>
        refine ⟨_, _, ?_, rfl, fun _ => rfl⟩
        let host : Host := ⟨invoke setting depth, setting.config, setting.limit⟩
        let host' : Host := ⟨invokeTallying counted setting depth .called, setting.config, setting.limit⟩
        have hscope : Related (fun {α} (t t' : Act α) => TalliesAs counted n t t')
            ⟨host, setting.delay, args⟩ ⟨host', setting.delay, args⟩ :=
          ⟨hcalled, suspend_tallied setting.delay, rfl⟩
        exact hrel.reading (fun k => k.bodies.getD (id - 1) []) (fun _ _ => rfl)
          fun body => eval_rel hrel hscope (.block body)
    refine ⟨fun f args => ?_, fun m f args => ?_⟩
    · obtain ⟨body, body', hrest, hinvoke, htallying⟩ := hbody f args
      rw [hinvoke, htallying]
      exact hrel.bind countCall_tallied fun _ => hrest
    · obtain ⟨body, body', hrest, hinvoke, htallying⟩ := hbody f args
      rw [Callback.callBack, Callback.callBack]
      dsimp only
      rw [hinvoke, htallying, ← bind_assoc, ← bind_assoc]
      exact hrel.bind (callback_tallied m f.name) fun _ => hrest

/-- **A run that counts deeds of one kind** is in step with the run itself, and the two counts are what the events
tell. -/
theorem eval_tallied (counted : Deed) (n : Nat) (setting : Setting) (e : Expr) :
    TalliesAs counted n (eval (topScope setting) e) (eval (tallyScope counted setting) e) := by
  have hscope : Related (fun {α} (t t' : Act α) => TalliesAs counted n t t') (topScope setting)
      (tallyScope counted setting) :=
    ⟨(invoke_tallied setting setting.limit).1, suspend_tallied setting.delay, rfl⟩
  exact eval_rel tallied_congruence hscope e

end Script

/-! ## Accounts -/

/-- What a machine tells, `n` calls having been counted when its record of events was empty, of the machine that has
counted deeds of one kind: its count is that of the events that tell of such deeds. No event tells of a call by a
script; these are all calls but those of methods. -/
def Machine.Reckons (counted : Deed) (n : Nat) (s s' : Machine) : Prop :=
  s' = { s with calls := s'.calls } ∧
    match counted with
    | .called => s.calls = s'.calls + s.callbacks
    | _ => s'.calls = n + s.deeds.count counted

theorem Machine.count_called_deeds (s : Machine) : s.deeds.count .called = 0 := by
  refine List.count_eq_zero.2 fun hmem => ?_
  obtain ⟨e, -, he⟩ := List.mem_filterMap.1 hmem
  cases e <;> cases he

theorem Machine.Tallied.reckons {counted : Deed} {n : Nat} {s s' : Machine} (h : Tallied counted n s s') :
    Reckons counted n s s' := by
  obtain ⟨hsame, own, hcalls, hcounted⟩ := h
  refine ⟨hsame, ?_⟩
  cases counted with
  | called =>
    rw [if_pos rfl, s.count_called_deeds] at hcounted
    change s.calls = s'.calls + s.callbacks
    omega
  | _ => simpa using hcounted

namespace Script

/-- **Calls are accounted for exactly**, however calls nest, fail, suspend and run side by side.

Let a step be run again, counting the calls alone that the script makes itself: it ends alike, and the count of
calls that the step has come to is that count and the number of calls that methods have reported. Let it be run again
counting the calls by one method alone, or the times that a `map` or a `sort` has succeeded: that is the number of
events that tell of them.

A `sort` calls its function, one call after the other, and reports nothing of itself until it succeeds, and then the
number of elements that it has found and of just these calls; it has called nothing else, and what happens between
and during its calls does not count. So does a `map`, in either mode, with the number of calls that it has begun.
One that fails has reported nothing of itself. -/
theorem callbacks_accounted (setting : Setting) :
    (∀ counted s e, (step setting s e).Alike (Machine.Reckons counted s.calls)
      (Task.run (eval (tallyScope counted setting) e) s.clearRecord)) ∧
    (∀ host c args s given,
      let stand := ((Bound.callback c .sort).call host args s).after given
      ((∀ f, args[0]? ≠ some (.fn f)) ∧ ∃ e, stand = .failed s e) ∨
        ∃ f, args[0]? = some (.fn f) ∧ Callback.SortAccount host c f s given stand) ∧
    ∀ host c args s given,
      let stand := ((Bound.callback c .map).call host args s).after given
      ((∀ f, args[0]? ≠ some (.fn f)) ∧ ∃ e, stand = .failed s e) ∨
        ∃ f, args[0]? = some (.fn f) ∧ Callback.MapAccount host c f s given stand := by
  refine ⟨fun counted s e => ?_, fun host c args s given => ?_, fun host c args s given => ?_⟩
  · have hstart : Machine.Tallied counted s.calls s.clearRecord s.clearRecord :=
      ⟨rfl, 0, rfl, by cases counted <;> rfl⟩
    exact ((eval_tallied counted s.calls setting e).endsAlike _ _ hstart).mono fun _ _ h => h.reckons
  · rcases Callback.begins_with_fn_or args with ⟨f, rest, rfl⟩ | hnot
    · exact .inr ⟨f, rfl, Callback.sort_account host c f rest s given⟩
    · exact .inl ⟨hnot, _, Callback.call_after_of_not_fn host c s .sort hnot given⟩
  · rcases Callback.begins_with_fn_or args with ⟨f, rest, rfl⟩ | hnot
    · exact .inr ⟨f, rfl, Callback.map_account host c f rest s given⟩
    · exact .inl ⟨hnot, _, Callback.call_after_of_not_fn host c s .map hnot given⟩

end Script

end ScriptValues
