/-
Who writes an array. Five methods and the end of a `sort` write the array that they are bound to, and nothing
else in a run writes an array that exists, through whatever names it is known and however calls nest or run
side by side.

To say so of a run, let these writes to one array do something else (`altering`): the machine becomes whatever
`become` makes of the machines before and after the write. However that is chosen, the array changes by it
alone (`arrays_written_by_own_methods`).
-/
import Mathlib.Logic.Relation
import ScriptValues.Proofs.Method.Writes
import ScriptValues.Proofs.Script.Congruence

namespace ScriptValues

/-- The task, only that where it is done in its first turn the state becomes something else. -/
def Task.altered {σ ε α : Type} (become : σ → σ → σ) (t : Task σ ε α) : Task σ ε α := fun s =>
  match t s with
  | .done s' a => .done (become s s') a
  | u => u

theorem Task.altered_self {σ ε α : Type} (t : Task σ ε α) : t.altered (fun _ s' => s') = t := by
  funext s
  rw [altered]
  split
  · next h => exact h.symm
  · rfl

namespace Script

/-- Runs a method, only that writes to an array by the methods bound to it become something else. -/
def altering (c : Cell) (become : Machine → Machine → Machine) (host : Host) (b : Bound) (args : List Value) :
    Act Value :=
  match b with
  | .arr d m =>
    if d = c ∧ m.writes = true then (b.call host args).altered become else b.call host args
  | .callback d .sort =>
    if d = c then do
      let p ← Callback.sorting host d args
      (Callback.answerSorted d p.1 p.2).altered become
    else b.call host args
  | b => b.call host args

/-- Left as they are, the writes are those of the run. -/
theorem altering_self (c : Cell) : altering c (fun _ s' => s') = Bound.call := by
  funext host b args
  cases b with
  | num n m => rfl
  | str text m => rfl
  | arr d m => simp only [altering, Task.altered_self, ite_self]
  | callback d m =>
    cases m with
    | sort =>
      have hsort : (Bound.callback d .sort).call host args = (do
          let p ← Callback.sorting host d args
          Callback.answerSorted d p.1 p.2) := Callback.sort_eq_sorting host d args
      simp only [altering, Task.altered_self, hsort, ite_self]
    | _ => rfl

/-- A method bound to the array has written it, or a `sort` bound to it has come to its end. -/
inductive Written (c : Cell) : Machine → Machine → Prop
  | method {host m args s s' v} : m.writes = true → (Bound.arr c m).call host args s = .done s' v →
      Written c s s'
  | sort {count result s s' v} : Callback.answerSorted c count result s = .done s' v → Written c s s'

/-- The array is as it was, or the machine became what a write was made to do. -/
def Change (c : Cell) (become : Machine → Machine → Machine) (s s' : Machine) : Prop :=
  s.heap.SameAt c s'.heap ∨ ∃ s₁, Written c s s₁ ∧ s' = become s s₁

/-- Changes one after the other. -/
abbrev Changes (c : Cell) (become : Machine → Machine → Machine) : Machine → Machine → Prop :=
  Relation.ReflTransGen (Change c become)

/-- Each turn of the task makes such changes to the array and no others, whatever the machine has become while
it was paused. -/
abbrev Confined (c : Cell) (become : Machine → Machine → Machine) {α : Type} (t : Act α) : Prop :=
  t.Keeps (fun _ _ => True) (Changes c become)

section

variable {c : Cell} {become : Machine → Machine → Machine}

theorem changes_compatible : Compatible (fun _ _ => True) (Changes c become) :=
  .alone (fun _ => .refl) .trans

theorem changes_of_sameAt {s s' : Machine} (h : s.heap.SameAt c s'.heap) : Changes c become s s' :=
  .single (.inl h)

theorem changes_of_spares (s s' : Machine) (h : s.heap.Spares s'.heap) : Changes c become s s' :=
  changes_of_sameAt (h c)

/-- If the array is put back whenever it is written, it stays as it is. -/
theorem sameAt_of_changes (hback : ∀ s s₁ : Machine, s.heap.SameAt c (become s s₁).heap) {s s' : Machine}
    (h : Changes c become s s') : s.heap.SameAt c s'.heap := by
  induction h with
  | refl => exact .refl c s.heap
  | @tail s₁ s₂ _ hchange ih =>
    have hlast : s₁.heap.SameAt c s₂.heap := by
      rcases hchange with hsame | ⟨s₃, -, rfl⟩
      · exact hsame
      · exact hback s₁ s₃
    exact ih.trans hlast

theorem confined_congruence : Congruence fun {α} (t _ : Act α) => Confined c become t :=
  Task.keeps_congruence changes_compatible changes_of_spares

/-- A write that is made to do something else changes the array by that alone. -/
theorem altered_confined {t : Act Value} (hprompt : t.Prompt)
    (hfailed : ∀ s s' e, t s = .failed s' e → s' = s) (hdone : ∀ s s' v, t s = .done s' v → Written c s s') :
    Confined c become (t.altered become) := by
  intro s
  rw [Task.altered]
  cases hturn : t s with
  | done s' v => exact .done (.single (.inr ⟨s', hdone s s' v hturn, rfl⟩)) trivial
  | failed s' e => exact .failed (hfailed s s' e hturn ▸ .refl)
  | paused s' rest => exact absurd hturn (hprompt s s' rest)
  | exhausted => exact .exhausted

variable {host : Host} {args : List Value}

theorem altered_method_confined {m : ArrMethod} (hm : m.writes = true) :
    Confined c become (((Bound.arr c m).call host args).altered become) := by
  refine altered_confined (fun s s' rest hturn => ?_) (fun s s' e hturn => ?_)
    fun s s' v hturn => .method hm hturn
  all_goals
    have hends := Bound.arr_call_ends host c m args s
    rw [hturn] at hends
    cases hends
  rfl

theorem altered_answerSorted_confined (count : Nat) (result : List Value × Nat) :
    Confined c become ((Callback.answerSorted c count result).altered become) :=
  altered_confined (fun _ _ _ => nofun) (fun _ _ _ => nofun) fun _ _ _ hturn => .sort hturn

/-- Other methods, and those of other arrays, leave the array as it is. -/
theorem call_confined (hinvoke : ∀ f args, Confined c become (host.invoke f args))
    (b : Bound) (harr : ∀ m, b = .arr c m → m.writes = false) (hsort : b ≠ .callback c .sort) :
    Confined c become (b.call host args) := by
  refine Bound.call_keeps changes_compatible changes_of_spares hinvoke b args ?_ ?_
  · rintro d m rfl s
    have hends := Bound.arr_call_ends host d m args s
    generalize (Bound.arr d m).call host args s = u at hends
    cases hends with
    | failed e => exact .failed .refl
    | wrote items v hwrites =>
      have hd : c ≠ d := by
        rintro rfl
        exact Bool.false_ne_true ((harr m rfl).symm.trans hwrites)
      exact .done (changes_of_sameAt (Heap.sameAt_write_of_ne hd s.heap items)) trivial
    | made items => exact .done (changes_of_spares _ _ (s.heap.spares_alloc items)) trivial
    | read v => exact .done .refl trivial
  · rintro d rfl count result s
    have hd : c ≠ d := fun h => hsort (h ▸ rfl)
    exact .done (changes_of_sameAt (Heap.sameAt_write_of_ne hd s.heap _)) trivial

/-- **Methods change the array by the altered writes alone.** -/
theorem altering_confined (hinvoke : ∀ f args, Confined c become (host.invoke f args))
    (b : Bound) (args : List Value) :
    Confined c become (altering c become host b args) := by
  cases b with
  | num n m => exact call_confined hinvoke (.num n m) (fun _ => nofun) nofun
  | str text m => exact call_confined hinvoke (.str text m) (fun _ => nofun) nofun
  | arr d m =>
    rw [altering]
    split
    · next h =>
      obtain ⟨rfl, hwrites⟩ := h
      exact altered_method_confined hwrites
    · next h =>
      refine call_confined hinvoke (.arr d m) (fun m' hm' => ?_) nofun
      cases hm'
      exact Bool.eq_false_iff.2 fun hwrites => h ⟨rfl, hwrites⟩
  | callback d m =>
    cases m with
    | sort =>
      rw [altering]
      split
      · next h =>
        subst h
        have hsorting := @Callback.sorting_rel _ host host confined_congruence.toPlainCongruence
          (@Callback.callBack_rel _ host host confined_congruence hinvoke .sort) d args
        exact Task.Keeps.bind changes_compatible hsorting fun p => altered_answerSorted_confined p.1 p.2
      · next h =>
        have hd : Bound.callback d .sort ≠ .callback c .sort := by
          intro hb
          cases hb
          exact h rfl
        exact call_confined hinvoke (.callback d .sort) (fun _ => nofun) hd
    | map => exact call_confined hinvoke (.callback d .map) (fun _ => nofun) nofun
    | filter => exact call_confined hinvoke (.callback d .filter) (fun _ => nofun) nofun
    | reduce => exact call_confined hinvoke (.callback d .reduce) (fun _ => nofun) nofun
    | find => exact call_confined hinvoke (.callback d .find) (fun _ => nofun) nofun

end

theorem suspend_keeps {rely guar : Machine → Machine → Prop} (h : Compatible rely guar)
    (hspares : ∀ s s' : Machine, s.heap.Spares s'.heap → guar s s') (delay : Nat → Nat → Nat)
    (turns : Value) : (suspend delay turns).Keeps rely guar := by
  refine Task.Keeps.bind h (fun s => ?_) fun given => Task.keeps_pause h given
  exact .done (hspares _ _ (.refl s.heap)) trivial

/-- **An array is written by its own methods alone**: by `push`, `unshift`, `pop`, `shift` and `reverse` bound
to it, and by a `sort` bound to it that succeeds, at its end. Let these writes become anything. Left as they are
they are those of the run; and whatever they become, each turn of an expression, however its calls nest and run
side by side, changes the array by them alone. If they put back what the array held, say, it stays as it is
(`sameAt_of_changes`).

Arrays last, so a method that makes an array returns one that did not exist when it was called, whatever
happened meanwhile; `push`, `unshift` and `sort` return the array that they are bound to. -/
theorem arrays_written_by_own_methods (setting : Setting) (c : Cell) (become : Machine → Machine → Machine) :
    topScopeBy (altering c fun _ s' => s') setting = topScope setting ∧
    (∀ e, Confined c become (eval (topScopeBy (altering c become) setting) e)) ∧
    (∀ e, (eval (topScope setting) e).Keeps Machine.Grows Machine.Grows) ∧
    ∀ (depth : Nat) (b : Bound) (args : List Value) (s : Machine),
      (b.call ⟨invoke setting depth, setting.config, setting.limit⟩ args s).Conforms
        Machine.Grows Machine.Grows (fun s' v => b.Returned s.heap s'.heap v) s := by
  have hgrows := Task.keeps_congruence Machine.grows_compatible Machine.grows_of_spares
  have hruns : Runs (fun {α} (t _ : Act α) => Confined c become t) (altering c become) (altering c become)
      setting setting := by
    refine ⟨rfl, ?_, fun hinner b args => altering_confined hinner b args⟩
    exact suspend_keeps changes_compatible changes_of_spares setting.delay
  have hruns' : Runs (fun {α} (t _ : Act α) => t.Keeps Machine.Grows Machine.Grows) Bound.call Bound.call
      setting setting := by
    refine ⟨rfl, ?_, fun hinner b args => Bound.call_grows hinner b args⟩
    exact suspend_keeps Machine.grows_compatible Machine.grows_of_spares setting.delay
  refine ⟨?_, fun e => ?_, fun e => ?_, fun depth b args s => ?_⟩
  · rw [altering_self, topScopeBy_call]
  · exact topScopeBy_rel confined_congruence hruns e
  · rw [← topScopeBy_call]
    exact topScopeBy_rel hgrows hruns' e
  · refine Bound.call_returns (fun f args => ?_) b args s
    rw [← invokeBy_call]
    exact invokeBy_rel hgrows hruns' depth f args

end Script

end ScriptValues
