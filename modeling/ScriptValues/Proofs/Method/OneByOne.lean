/-
The methods that call one call at a time: `filter`, `reduce`, `find`, `sort`, and `map` when it is told to. They are
five loops, one of them the recursion of the sort, and all are of one shape: between two calls they only read, the
first call that fails or answers with a value of the wrong kind is their end, and what they do by themselves they do
after the last call (`run_oneByOne`). `first_bad_call_ends` is what follows for a run of theirs.
-/
import ScriptValues.Method.Call
import ScriptValues.Proofs.Method.Congruence
import ScriptValues.Proofs.Method.Iteration
import ScriptValues.Proofs.Method.MapOrder

open ScriptValues.Task ScriptValues.Sort

namespace ScriptValues

namespace Callback

section Loops

variable (host : Host) (f : Fn)

/-- The questions of a sort, which are counted. -/
theorem perform_oneByOne {β : Type} (t : Inquiry Value β) (answered : Nat) (s : Machine) :
    OneByOne (callBack host .sort) f CallbackMethod.sort.refusal
      (fun answered s u => ∃ b, u = .done s (b, answered)) answered s
      ((t.perform (precedes host f)).run answered s) := by
  induction t generalizing answered s with
  | result b => exact .ended ⟨b, rfl⟩
  | ask a c next ih =>
    rw [Inquiry.perform, StateT.run_bind, precedes_run, bind_assoc]
    refine .call [a, c] (fun answer e s' hwrong => ?_) (fun answer s' hright => ?_)
    · rw [result_of_refusal rfl rfl hwrong]
      rfl
    · obtain ⟨x, rfl⟩ := Value.eq_num_of_kind (kind_of_accepted rfl hright)
      exact ih _ (answered + 1) s'

theorem sequence_oneByOne (argss : List (List Value)) (answered : Nat) (s : Machine) :
    OneByOne (callBack host .map) f CallbackMethod.map.refusal
      (fun answered' s u => answered' = answered + argss.length ∧ ∃ vs, u = .done s vs) answered s
      (Task.sequence (argss.map (callBack host .map f)) s) := by
  induction argss generalizing answered s with
  | nil => exact .ended ⟨rfl, [], rfl⟩
  | cons args argss ih =>
    refine .call args (fun answer e s' hwrong => nomatch hwrong) (fun answer s' _ => ?_)
    refine (ih (answered + 1) s').bind fun answered' s'' u hend => ?_
    obtain ⟨hcount, vs, rfl⟩ := hend
    exact .ended ⟨by rw [hcount, List.length_cons]; omega, answer :: vs, rfl⟩

end Loops

/-! ## The methods -/

/-- What a method does after its last call, and its result; `start` is the machine in which it has begun. -/
inductive Closes (c : Cell) (start : Machine) (answered : Nat) (s : Machine) :
    CallbackMethod → Machine → Value → Prop
  | map {results} : answered = (start.heap.contents c).size → Closes c start answered s .map
      { s with
        heap := s.heap.alloc results
        events := s.events.push (.mapped answered .sequential) } (.arr s.heap.next)
  | filter {kept} : Closes c start answered s .filter { s with heap := s.heap.alloc kept } (.arr s.heap.next)
  | reduce {v} : Closes c start answered s .reduce s v
  | find {v} : Closes c start answered s .find s v
  | sort {sorted} : Closes c start answered s .sort
      { s with
        heap := s.heap.write c sorted
        events := s.events.push (.sorted (start.heap.contents c).size answered) } (.arr c)

/-- How a method ends when its calls have all succeeded, that many of them: it is done, or there was no element to
begin with, or it has read an array that grows for as long as it may. -/
inductive Ends (host : Host) (c : Cell) (start : Machine) (m : CallbackMethod) (answered : Nat) (s : Machine) :
    Turn Machine Fault Value → Prop
  | done {s' v} : Closes c start answered s m s' v → Ends host c start m answered s (.done s' v)
  | empty : m = .reduce → answered = 0 → Ends host c start m answered s (.failed s (.emptyArray .reduce))
  | limit : m ∈ [.filter, .reduce, .find] → host.config.iteration = .live → answered = host.limit →
      Ends host c start m answered s .exhausted

theorem Ends.after {host : Host} {c : Cell} {start : Machine} {m : CallbackMethod} {answered : Nat}
    {s : Machine} {u : Turn Machine Fault Value} (h : Ends host c start m answered s u) (given : List Machine) :
    u.after given = u := by
  cases h with
  | done _ => exact Turn.after_done ..
  | empty _ _ => exact Turn.after_failed ..
  | limit _ _ _ => exact Turn.after_exhausted ..

theorem mapCalls_eq_map (host : Host) (f : Fn) (items : List Value) :
    mapCalls host f items = (items.mapIdx fun i v => [v, .ofNat i]).map (callBack host .map f) := by
  rw [mapCalls, List.mapIdx_eq_zipIdx_map, List.mapIdx_eq_zipIdx_map, List.map_map]
  rfl

section Methods

variable (host : Host) (c : Cell) (f : Fn) (rest : List Value) (s : Machine)

theorem map_oneByOne (hmode : host.config.map = .sequential) :
    OneByOne (callBack host .map) f CallbackMethod.map.refusal (Ends host c s .map) 0 s
      (map host c (.fn f :: rest) s) := by
  rw [map_eq_of_fn, issue, hmode, mapCalls_eq_map]
  refine (sequence_oneByOne host f _ 0 s).bind fun answered s' u hend => ?_
  obtain ⟨hcount, vs, rfl⟩ := hend
  have hsize : answered = (s.heap.contents c).size := by
    rw [hcount, Nat.zero_add, List.length_mapIdx, Array.length_toList]
  refine .ended (.done ?_)
  rw [hmode, ← hsize]
  exact .map hsize

theorem Concludes.closes {m : CallbackMethod} {through : Prop} {start : List Value} {rounds : Visited} {s' : Machine}
    {u : Turn Machine Fault Value} (h : Concludes through start rounds s' m u) :
    Ends host c s m rounds.length s' u := by
  cases h with
  | filter => exact .done .filter
  | reduce => exact .done .reduce
  | missed => exact .done .find
  | found => exact .done .find

/-- The methods that run over the elements one at a time. -/
theorem iterates_oneByOne {m : CallbackMethod} (hm : m ∈ [.filter, .reduce, .find]) :
    OneByOne (callBack host m) f m.refusal (Ends host c s m) 0 s (run host c m (.fn f :: rest) s) := by
  cases hbegins : begins m rest (host.reading c s s 0) with
  | none =>
    rw [run_of_not_begins host c f rest s hbegins]
    exact .ended (.empty (begins_eq_none_iff.1 hbegins).1 rfl)
  | some p =>
    refine (iterates_byRounds host c f rest s hm hbegins).oneByOne (fun _ => rfl) fun rounds s' u hrounds hend => ?_
    rcases hend with hdone | ⟨hcount, rfl⟩
    · exact hdone.closes host c s
    · obtain ⟨hlive, hlimit⟩ := limit_of_steps host c s hrounds hcount
      exact .limit hm hlive hlimit

theorem sort_oneByOne :
    OneByOne (callBack host .sort) f CallbackMethod.sort.refusal (Ends host c s .sort) 0 s
      (sort host c (.fn f :: rest) s) := by
  change OneByOne _ _ _ _ _ _ (((mergeSort (precedes host f) (s.heap.contents c).toList).run 0 s).bind _)
  rw [mergeSort_eq_perform]
  refine (perform_oneByOne host f _ 0 s).bind fun answered s' u hend => ?_
  obtain ⟨sorted, rfl⟩ := hend
  exact .ended (.done .sort)

/-- The methods that call one call at a time. -/
theorem run_oneByOne {m : CallbackMethod} (hmode : m = .map → host.config.map = .sequential) :
    OneByOne (callBack host m) f m.refusal (Ends host c s m) 0 s (run host c m (.fn f :: rest) s) := by
  cases m with
  | map => exact map_oneByOne host c f rest s (hmode rfl)
  | filter => exact iterates_oneByOne host c f rest s (by simp)
  | reduce => exact iterates_oneByOne host c f rest s (by simp)
  | find => exact iterates_oneByOne host c f rest s (by simp)
  | sort => exact sort_oneByOne host c f rest s

theorem begins_with_fn_or (args : List Value) :
    (∃ f rest, args = .fn f :: rest) ∨ ∀ f, args[0]? ≠ some (.fn f) := by
  rcases args with _ | ⟨v, rest⟩
  · exact .inr nofun
  · cases v with
    | fn f => exact .inl ⟨f, rest, rfl⟩
    | _ => exact .inr nofun

/-- Without a function for its first argument no method begins. -/
theorem run_of_not_fn (m : CallbackMethod) {args : List Value} (hargs : ∀ f, args[0]? ≠ some (.fn f)) :
    run host c m args s = .failed s (.argumentType (.argument 0) (.kind .fn) (args[0]?.map Value.kind)) := by
  have hfn : Argument.read .fn args 0 = .error (Argument.mismatch args 0 (.kind .fn)) := by
    refine Argument.read_eq_error fun v hv => ?_
    cases v with
    | fn f => exact absurd hv (hargs f)
    | _ => rfl
  cases m <;> simp only [run, map, filter, reduce, find, sort, hfn] <;> rfl

theorem call_after_of_not_fn (m : CallbackMethod) {args : List Value} (hargs : ∀ f, args[0]? ≠ some (.fn f))
    (given : List Machine) :
    ((Bound.callback c m).call host args s).after given =
      .failed s (.argumentType (.argument 0) (.kind .fn) (args[0]?.map Value.kind)) := by
  change (run host c m args s).after given = _
  rw [run_of_not_fn host c s m hargs, Turn.after_failed]

end Methods

/-- **The first bad call ends a method that calls one call at a time.** Let it run from a machine `s`, and go on
after its pauses from any machines `given`; the function may do anything meanwhile.

Without a function for its first argument the method fails, and nothing has happened. With one, it calls it again
and again, each call going on from the machine that the one before has left when it was done. As long as the calls
succeed and their answers are of the right kind the method goes on; when they all have, it is done, unless it is
`reduce` and there was no element to begin with, or the array has grown under it up to the limit. The first call that
fails is the failure of the method, and the first answer of the wrong kind is the one failure that says so; the
machine is then as this call has left it, so that the method has called nothing more, and has written nothing. -/
theorem first_bad_call_ends (host : Host) (c : Cell) (m : CallbackMethod) (args : List Value) (s : Machine)
    (given : List Machine) (hmode : m = .map → host.config.map = .sequential) :
    let stand := ((Bound.callback c m).call host args s).after given
    ((∀ f, args[0]? ≠ some (.fn f)) ∧
      stand = .failed s (.argumentType (.argument 0) (.kind .fn) (args[0]?.map Value.kind))) ∨
    ∃ f, args[0]? = some (.fn f) ∧ ∃ answers s' left,
      Exchange (callBack host m) s given answers s' left ∧
      (∀ q ∈ answers, q.1 = f ∧ m.refusal q.2.2 = none) ∧
      (Ends host c s m answers.length s' stand ∨
        ∃ passed, ((callBack host m f passed s').after left).Stops m.refusal stand) := by
  intro stand
  rcases begins_with_fn_or args with ⟨f, rest, rfl⟩ | hnot
  · obtain ⟨answers, s', left, hexchange, haccepted, hend⟩ :=
      (run_oneByOne host c f rest s hmode).account given
    refine .inr ⟨f, rfl, answers, s', left, hexchange, haccepted, ?_⟩
    rcases hend with ⟨u, hends, hstand⟩ | ⟨passed, hstops⟩
    · rw [Nat.zero_add] at hends
      have hu : stand = u := hstand.trans (hends.after left)
      exact .inl (hu ▸ hends)
    · exact .inr ⟨passed, hstops⟩
  · exact .inl ⟨hnot, call_after_of_not_fn host c s m hnot given⟩

/-- A host whose functions fail unless told true. -/
def pickyHost : Host where
  invoke _ args :=
    match args with
    | .bool true :: _ => pure .null
    | _ => Task.ofExcept (.error (.runtime "not true"))
  config := { map := .sequential }
  limit := 0

/-- Of three calls the second fails; the third is not begun. -/
theorem map_stops_at_second_call :
    let s : Machine := { Machine.start with heap := ⟨#[#[.bool true, .bool false, .bool true]]⟩ }
    let report : Event := .callback .map (Fn.script 1).name
    let stopped : Machine := { s with events := #[report, report] }
    (CallbackMethod.map = .map → pickyHost.config.map = .sequential) ∧
      ∃ answers s' left passed, Exchange (callBack pickyHost .map) s [] answers s' left ∧
        ((callBack pickyHost .map (.script 1) passed s').after left).Stops CallbackMethod.map.refusal
          (.failed stopped (.runtime "not true") : Turn Machine Fault Value) := by
  intro s report stopped
  have hstand : ((Bound.callback ⟨0⟩ .map).call pickyHost [.fn (.script 1)] s).after [] =
      .failed stopped (.runtime "not true") := rfl
  refine ⟨fun _ => rfl, ?_⟩
  rcases first_bad_call_ends pickyHost ⟨0⟩ .map [.fn (.script 1)] s [] (fun _ => rfl) with
    ⟨hnot, -⟩ | ⟨f, hf, answers, s', left, hexchange, -, hends | ⟨passed, hstops⟩⟩
  · exact absurd rfl (hnot (.script 1))
  · rw [hstand] at hends
    cases hends
  · cases hf
    rw [hstand] at hstops
    exact ⟨answers, s', left, passed, hexchange, hstops⟩

end Callback

end ScriptValues
