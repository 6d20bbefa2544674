/-
The two ways to iterate when nobody touches the arrays that are iterated over. A run over live arrays is
`Steady` if all its steps come to an end even though a method is cut off as soon as a function that it
called leaves the array that it runs over with other contents than it had at the start: so none does. A
steady run is the same over snapshots (`steady_iterations_alike`).

Only the array of the method itself is watched: the functions may change every other array, pause, fail and
run such methods in turn. While a method waits for no function nobody else runs, so one that finds its array
unchanged after each call reads at each step what it would have read at the start.
-/
import ScriptValues.Proofs.Script.MapMode

namespace ScriptValues

/-! ## Watched calls -/

namespace Host

/-- The hosts call functions in step, except that calls of the first may be cut off. -/
def Follows (host host' : Host) : Prop :=
  ∀ f args, (host.invoke f args).Follows True Eq (host'.invoke f args)

/-- The host, its calls being cut off if they leave the array with other contents than these. -/
def watching (host : Host) (c : Cell) (items : Array Value) : Host :=
  { host with invoke := fun f args => do
      let v ← host.invoke f args
      let now ← Act.contents c
      if now = items then pure v else Task.exhausted }

variable {α : Type} {host host' : Host} {c : Cell} {items : Array Value}

/-- What follows a watched call is in step if it is from machines with the array unchanged. -/
theorem Follows.bind_watching (h : host.Follows host') {k k' : Value → Act α}
    (hk : ∀ v s, s.heap.contents c = items → (k v s).Follows True Eq (k' v s)) (f : Fn)
    (args : List Value) :
    ((host.watching c items).invoke f args >>= k).Follows True Eq (host'.invoke f args >>= k') := by
  simp only [watching, bind_assoc]
  intro s s' hs
  refine (h f args s s' hs).bind fun v s₁ s₁' hs₁ => ?_
  subst hs₁
  change Turn.Follows True Eq
    (((if s₁.heap.contents c = items then pure v else Task.exhausted : Act Value) >>= k) s₁) (k' v s₁)
  split
  · next hsame => exact hk v s₁ hsame
  · exact .cut trivial

theorem Follows.watching (h : host.Follows host') (c : Cell) (items : Array Value) :
    (host.watching c items).Follows host' := by
  intro f args
  have hpure : ((host.watching c items).invoke f args >>= pure).Follows True Eq
      (host'.invoke f args >>= pure) := h.bind_watching (fun v s _ => .done rfl) f args
  rwa [bind_pure, bind_pure] at hpure

end Host

/-! ## Methods over an array that stays as it is -/

namespace Callback

variable {α : Type} {host host' : Host} {c : Cell} {items : Array Value}

theorem callBack_follows (h : host.Follows host') (m : CallbackMethod) {k k' : Value → Act α}
    (hk : ∀ v s, s.heap.contents c = items → (k v s).Follows True Eq (k' v s)) (f : Fn)
    (args : List Value) :
    (callBack (host.watching c items) m f args >>= k).Follows True Eq (callBack host' m f args >>= k') := by
  have hrel : Congruence fun {α} (t t' : Act α) => t.Follows True Eq t' :=
    Machine.Likeness.eq.congruence.toCongruence
  rw [callBack, callBack, bind_assoc, bind_assoc]
  exact hrel.bind (hrel.emit _) fun _ => h.bind_watching hk f args

/-- Elements that are read of the live array as it was are those of the snapshot. -/
theorem live_follows_snapshot (limit : Nat) {s : Machine} (hs : s.heap.contents c = items)
    {k k' : Option Value → Act α} {i : Nat} (hk : (k items[i]? s).Follows True Eq (k' items[i]? s)) :
    (((Elements.live c limit).get i >>= k) s).Follows True Eq
      (((Elements.snapshot items).get i >>= k') s) := by
  subst hs
  exact hk

/-- Where there is an element, one less is to come after it. -/
theorem exists_rest {i rest : Nat} {v : Value} (hget : items[i]? = some v) (hrest : items.size ≤ i + rest) :
    ∃ r, rest = r + 1 ∧ items.size ≤ i + 1 + r := by
  have hi : i < items.size := (Array.getElem?_eq_some_iff.1 hget).1
  exact ⟨rest - 1, by omega, by omega⟩

/-- The loop over the snapshot has room for the elements from `i` on. That over the live array may have
none, and is then cut off by its bound. -/
theorem filterFrom_follows (h : host.Follows host') (f : Fn) (limit bound : Nat) {i rest : Nat}
    (hrest : items.size ≤ i + rest) {s : Machine} (hs : s.heap.contents c = items) :
    (filterFrom (host.watching c items) f (.live c limit) bound i s).Follows True Eq
      (filterFrom host' f (.snapshot items) (rest + 1) i s) := by
  induction bound generalizing i rest s with
  | zero => exact .cut trivial
  | succ bound ih =>
    refine live_follows_snapshot limit hs ?_
    cases hget : items[i]? with
    | none => exact .done rfl
    | some v =>
      obtain ⟨rest, rfl, hless⟩ := exists_rest hget hrest
      -- Whatever ran during the call, the array is as it was when the loop goes on.
      refine callBack_follows h .filter (fun answer s₁ hs₁ => ?_) f _ s s rfl
      cases Argument.result .bool .filter answer with
      | error e => exact .failed rfl
      | ok keep => exact (ih hless hs₁).bind fun kept s₂ s₂' hs₂ => .done hs₂

theorem reduceFrom_follows (h : host.Follows host') (f : Fn) (limit bound : Nat) {i rest : Nat}
    (hrest : items.size ≤ i + rest) (acc : Value) {s : Machine} (hs : s.heap.contents c = items) :
    (reduceFrom (host.watching c items) f (.live c limit) bound i acc s).Follows True Eq
      (reduceFrom host' f (.snapshot items) (rest + 1) i acc s) := by
  induction bound generalizing i rest acc s with
  | zero => exact .cut trivial
  | succ bound ih =>
    refine live_follows_snapshot limit hs ?_
    cases hget : items[i]? with
    | none => exact .done rfl
    | some v =>
      obtain ⟨rest, rfl, hless⟩ := exists_rest hget hrest
      exact callBack_follows h .reduce (fun acc s₁ hs₁ => ih hless acc hs₁) f _ s s rfl

theorem findFrom_follows (h : host.Follows host') (f : Fn) (limit bound : Nat) {i rest : Nat}
    (hrest : items.size ≤ i + rest) {s : Machine} (hs : s.heap.contents c = items) :
    (findFrom (host.watching c items) f (.live c limit) bound i s).Follows True Eq
      (findFrom host' f (.snapshot items) (rest + 1) i s) := by
  induction bound generalizing i rest s with
  | zero => exact .cut trivial
  | succ bound ih =>
    refine live_follows_snapshot limit hs ?_
    cases hget : items[i]? with
    | none => exact .done rfl
    | some v =>
      obtain ⟨rest, rfl, hless⟩ := exists_rest hget hrest
      refine callBack_follows h .find (fun answer s₁ hs₁ => ?_) f _ s s rfl
      cases Argument.result .bool .find answer with
      | error e => exact .failed rfl
      | ok found =>
        cases found with
        | true => exact .done rfl
        | false => exact ih hless hs₁

section Snapshot

variable {s : Machine}

theorem ofCell_follows (hlive : host.config.iteration = .live) (hsnapshot : host'.config.iteration = .snapshot)
    (hs : s.heap.contents c = items) {k k' : Elements → Act α}
    (hk : (k (.live c host.limit) s).Follows True Eq (k' (.snapshot items) s)) :
    ((Elements.ofCell (host.watching c items) c >>= k) s).Follows True Eq
      ((Elements.ofCell host' c >>= k') s) := by
  rw [Elements.ofCell, Elements.ofCell, hsnapshot, Host.watching, hlive]
  subst hs
  exact hk

theorem filter_follows (h : host.Follows host') (hlive : host.config.iteration = .live)
    (hsnapshot : host'.config.iteration = .snapshot) (args : List Value) (hs : s.heap.contents c = items) :
    (filter (host.watching c items) c args s).Follows True Eq (filter host' c args s) := by
  rw [filter, filter]
  cases Argument.read .fn args 0 with
  | error e => exact .failed rfl
  | ok f =>
    refine ofCell_follows hlive hsnapshot hs ?_
    refine (filterFrom_follows h f host.limit host.limit (Nat.le_add_left ..) hs).bind ?_
    exact fun kept s₁ s₁' hs₁ => hs₁ ▸ .refl _

theorem reduce_follows (h : host.Follows host') (hlive : host.config.iteration = .live)
    (hsnapshot : host'.config.iteration = .snapshot) (args : List Value) (hs : s.heap.contents c = items) :
    (reduce (host.watching c items) c args s).Follows True Eq (reduce host' c args s) := by
  rw [reduce, reduce]
  cases Argument.read .fn args 0 with
  | error e => exact .failed rfl
  | ok f =>
    refine ofCell_follows hlive hsnapshot hs ?_
    cases args[1]? with
    | some acc => exact reduceFrom_follows h f host.limit host.limit (Nat.le_add_left ..) acc hs
    | none =>
      refine live_follows_snapshot host.limit hs ?_
      cases items[0]? with
      | none => exact .failed rfl
      | some acc => exact reduceFrom_follows h f host.limit host.limit (Nat.le_add_left ..) acc hs

theorem find_follows (h : host.Follows host') (hlive : host.config.iteration = .live)
    (hsnapshot : host'.config.iteration = .snapshot) (args : List Value) (hs : s.heap.contents c = items) :
    (find (host.watching c items) c args s).Follows True Eq (find host' c args s) := by
  rw [find, find]
  cases Argument.read .fn args 0 with
  | error e => exact .failed rfl
  | ok f =>
    refine ofCell_follows hlive hsnapshot hs ?_
    exact findFrom_follows h f host.limit host.limit (Nat.le_add_left ..) hs

end Snapshot

/-- A `map` is in step with one that issues calls in step in the same mode. -/
theorem map_follows_map (h : host.Follows host') (hmode : host.config.map = host'.config.map) (c : Cell)
    (args : List Value) : (map host c args).Follows True Eq (map host' c args) := by
  have hrel : Congruence fun {α} (t t' : Act α) => t.Follows True Eq t' :=
    Machine.Likeness.eq.congruence.toCongruence
  refine map_rel hrel.toPlainCongruence (fun f items => ?_) (fun count results s s' hs => ?_) c args
  · exact issue_follows hmode (mapCalls_rel (callBack_rel hrel h .map) f items)
  · rw [answerMapped, answerMapped, hmode, hs]
    exact .done rfl

end Callback

/-! ## Steady methods -/

/-- The array that a method reads element by element while it calls functions. -/
def Bound.iterated : Bound → Option Cell
  | .callback c .filter => some c
  | .callback c .reduce => some c
  | .callback c .find => some c
  | _ => none

theorem Bound.iterated_eq_some_iff {b : Bound} {c : Cell} : b.iterated = some c ↔
    b = .callback c .filter ∨ b = .callback c .reduce ∨ b = .callback c .find := by
  constructor
  · intro h
    cases b with
    | callback c' m => cases m <;> simp_all [iterated]
    | _ => cases h
  · rintro (rfl | rfl | rfl) <;> rfl

/-- Runs a method, cut off if a function that it calls changes the array that it iterates over. -/
def steadily (host : Host) (b : Bound) (args : List Value) : Act Value :=
  match b.iterated with
  | some c => do
    let items ← Act.contents c
    b.call (host.watching c items) args
  | none => b.call host args

section Steadily

variable {host host' : Host}

theorem iterated_follows (h : host.Follows host') (hlive : host.config.iteration = .live)
    (hmode : host.config.map = host'.config.map) (hlimit : host.limit = host'.limit) {b : Bound} {c : Cell}
    (hb : b.iterated = some c) (args : List Value) (s : Machine) :
    (b.call (host.watching c (s.heap.contents c)) args s).Follows True Eq (b.call host' args s) := by
  cases hiter : host'.config.iteration with
  | live =>
    have hwatching := h.watching c (s.heap.contents c)
    have hhost : Host.Related (fun {α} (t t' : Act α) => t.Follows True Eq t')
        (host.watching c (s.heap.contents c)) host' := ⟨hwatching, hlive.trans hiter.symm, hlimit⟩
    have hmap := Callback.map_follows_map hwatching hmode
    exact Bound.call_rel Machine.Likeness.eq.congruence hhost hmap b args s s rfl
  | snapshot =>
    rcases Bound.iterated_eq_some_iff.1 hb with rfl | rfl | rfl
    · exact Callback.filter_follows h hlive hiter args rfl
    · exact Callback.reduce_follows h hlive hiter args rfl
    · exact Callback.find_follows h hlive hiter args rfl

/-- **A steady method** over the live array is in step with the method in either way to iterate. -/
theorem steadily_follows (h : host.Follows host') (hlive : host.config.iteration = .live)
    (hmode : host.config.map = host'.config.map) (hlimit : host.limit = host'.limit) (b : Bound)
    (args : List Value) : (steadily host b args).Follows True Eq (b.call host' args) := by
  unfold steadily
  split
  · next c hb =>
    intro s s' hs
    subst hs
    exact iterated_follows h hlive hmode hlimit hb args s
  · next hb =>
    have hrel : WritingCongruence fun {α} (t t' : Act α) => t.Follows True Eq t' :=
      Machine.Likeness.eq.congruence
    refine Bound.call_rel_of_callback hrel.toPlainCongruence hrel.write fun c m hm => ?_
    subst hm
    cases m with
    | map => exact Callback.map_follows_map h hmode c args
    | sort => exact Callback.sort_rel Machine.Likeness.eq.congruence h c args
    | filter => cases hb
    | reduce => cases hb
    | find => cases hb

end Steadily

/-! ## Steady runs -/

/-- The setting with another way to iterate. -/
def Setting.withIteration (setting : Setting) (mode : IterationMode) : Setting :=
  { setting with config := { setting.config with iteration := mode } }

namespace Script

/-- All steps come to an end over live arrays, and no function that `filter`, `reduce` or `find` calls
changes the array that the method iterates over. -/
def Steady (setting : Setting) (s : Machine) (es : List Expr) : Prop :=
  ∀ o ∈ outcomes (topScopeBy steadily (setting.withIteration .live)) s es, o.ended = true

instance (setting : Setting) (s : Machine) (es : List Expr) : Decidable (Steady setting s es) :=
  inferInstanceAs (Decidable
    (∀ o ∈ outcomes (topScopeBy steadily (setting.withIteration .live)) s es, o.ended = true))

theorem steadily_runs (setting : Setting) (mode : IterationMode) :
    Runs (fun {α} (t t' : Act α) => t.Follows True Eq t') steadily Bound.call
      (setting.withIteration .live) (setting.withIteration mode) where
  limit := rfl
  suspend _ _ _ hs := hs ▸ .refl _
  call {inner inner'} h b args :=
    have hhost : Host.Follows ⟨inner, (setting.withIteration .live).config, setting.limit⟩
        ⟨inner', (setting.withIteration mode).config, setting.limit⟩ := h
    steadily_follows hhost rfl rfl rfl b args

variable {setting : Setting} {s : Machine} {es : List Expr}

/-- Cutting methods off changes nothing in a steady run, and neither does the way to iterate. -/
theorem Steady.outcomes_eq (h : Steady setting s es) (mode : IterationMode) :
    outcomes (topScopeBy steadily (setting.withIteration .live)) s es =
      outcomes (topScope (setting.withIteration mode)) s es := by
  have halike : List.Forall₂ (Outcome.Alike Eq)
      (outcomes (topScopeBy steadily (setting.withIteration .live)) s es)
      (outcomes (topScope (setting.withIteration mode)) s es) := by
    refine outcomes_alike (fun hs => congrArg _ hs) (fun e s s' hs hend => ?_) rfl h
    have hruns := steadily_runs setting mode
    rw [← topScopeBy_call]
    exact (topScopeBy_rel Machine.Likeness.eq.congruence.toCongruence hruns e s s' hs).finish hend
  rw [← List.forall₂_eq_eq_eq]
  exact halike.imp fun _ _ ho => ho.eq

/-- **Both ways to iterate are alike when iterated arrays are left alone.** Let a run over live arrays come
to its end, no function that a `filter`, `reduce` or `find` calls ever leaving the array of that method with
other contents than the method found. Then each step of the run over snapshots ends the same, with the same
value or failure in the same machine, and so is reported the same. -/
theorem steady_iterations_alike (setting : Setting) (s : Machine) (es : List Expr) (watch : List String)
    (h : Steady setting s es) :
    outcomes (topScope (setting.withIteration .snapshot)) s es =
      outcomes (topScope (setting.withIteration .live)) s es ∧
    run (setting.withIteration .snapshot) watch s es = run (setting.withIteration .live) watch s es := by
  have houtcomes := (h.outcomes_eq .snapshot).symm.trans (h.outcomes_eq .live)
  exact ⟨houtcomes, run_eq_of_outcomes_eq houtcomes⟩

/-- A function that shortens the array of its `filter` is cut off. -/
example :
    let xs : Expr := .global "xs"
    ¬ Steady ⟨{}, fun _ _ => 0, 4⟩ Machine.start [.assign "xs" (.array [.null, .null]),
      .method xs "filter" [.function [.method xs "pop" [], .bool true]]] := by
  decide +kernel

/-- A `filter` that fills another array and pauses, over which calls run a `reduce` and a `find`; two such
side by side over the same array; and one that fails. -/
def steadySteps : List Expr :=
  let xs : Expr := .global "xs"
  let keep : Expr := .method (.array [.argument 0]) "find" [.function [.suspend .null (.argument 0)]]
  let last : Expr := .method xs "reduce" [.function [.argument 1]]
  let pass : Expr := .block [.method (.global "seen") "push" [.argument 0], keep, last, .argument 0]
  [.assign "xs" (.array [.bool true, .bool false]), .assign "seen" (.array []),
    .method xs "map" [.function [.method xs "filter" [.function [.suspend .null pass]]]],
    .method xs "filter" [.function [.log (.argument 0), .argument 2]]]

/-- The steps are steady, and so the same in both ways. -/
theorem steadySteps_alike :
    let setting : Setting := ⟨{ map := .concurrent }, fun _ _ => 1, 6⟩
    Steady setting Machine.start steadySteps ∧
      outcomes (topScope (setting.withIteration .snapshot)) Machine.start steadySteps =
        outcomes (topScope (setting.withIteration .live)) Machine.start steadySteps ∧
      run (setting.withIteration .snapshot) [] Machine.start steadySteps =
        run (setting.withIteration .live) [] Machine.start steadySteps := by
  intro setting
  have hsteady : Steady setting Machine.start steadySteps := by decide +kernel
  exact ⟨hsteady, steady_iterations_alike setting Machine.start steadySteps [] hsteady⟩

end Script

end ScriptValues
