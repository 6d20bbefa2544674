/-
The methods that run over the elements of an array one at a time: `filter`, `reduce` and `find`. Each is a loop that
reads the element at the next position, calls its function for it, and goes on with the answer. What there is to read
is given by the configuration, and is all that the modes differ in (`Host.reading`): the array as it was at the start,
or as it is at each step.

`iterates_byRounds` says this of the three loops at once. A call that has been answered is a `Round`, and a round
tells the machine in which the call was issued, so that what is read can be compared with what the array held then.
-/
import ScriptValues.Method.Call
import ScriptValues.Proofs.Method.Refusal
import ScriptValues.Proofs.Task.Rounds

open ScriptValues.Task

namespace ScriptValues

/-- What there is to read, by the machine that is found and the position. -/
abbrev Reading := Machine → Nat → Option Value

/-- What a cell holds at a position. -/
def held (c : Cell) : Reading := fun s i => (s.heap.contents c)[i]?

theorem lt_of_held {c : Cell} {bound : Nat} {s : Machine} (hsize : (s.heap.contents c).size ≤ bound) (i : Nat)
    (v : Value) (h : held c s i = some v) : i < bound := by
  obtain ⟨hlt, -⟩ := Array.getElem?_eq_some_iff.1 h
  omega

/-- What the configuration gives to read of a cell to a method that has begun in `start`. -/
def Host.reading (host : Host) (c : Cell) (start : Machine) : Reading :=
  match host.config.iteration with
  | .live => held c
  | .snapshot => fun _ => held c start

/-- How many elements a method reads at most that has begun in `start`. -/
def Host.steps (host : Host) (c : Cell) (start : Machine) : Nat :=
  match host.config.iteration with
  | .live => host.limit
  | .snapshot => (start.heap.contents c).size + 1

/-- Reading an element changes nothing, and what there is to read is given. -/
def Elements.Gives (elements : Elements) (read : Reading) : Prop :=
  ∀ i s, elements.get i s = .done s (read s i)

theorem Elements.ofCell_gives (host : Host) (c : Cell) (s : Machine) :
    ∃ elements, ofCell host c s = .done s elements ∧ elements.Gives (host.reading c s) ∧
      elements.bound = host.steps c s := by
  unfold ofCell Host.reading Host.steps
  cases host.config.iteration with
  | live => exact ⟨_, rfl, fun _ _ => rfl, rfl⟩
  | snapshot => exact ⟨_, rfl, fun _ _ => rfl, rfl⟩

/-- What an iterating method calls its function for. -/
structure Visit where
  /-- What is passed before the element: the value that `reduce` has come to. -/
  carried : List Value
  element : Value
  index : Nat

/-- The arguments of the call. -/
def Visit.args (v : Visit) : List Value := v.carried ++ [v.element, .ofNat v.index]

namespace Callback

/-- The call of the function for an element. -/
def visit (host : Host) (m : CallbackMethod) (f : Fn) (v : Visit) : Act Value := callBack host m f v.args

/-- The calls for elements that have been answered. -/
abbrev Visited := List (Round Machine Visit Value)

/-- What a method carries to its first call, and the position of that. `reduce` without a value of its own takes the
first element, and has nothing to begin with if there is none. -/
def begins : CallbackMethod → (rest : List Value) → (item : Option Value) → Option (List Value × Nat)
  | .reduce, acc :: _, _ => some ([acc], 0)
  | .reduce, [], some v => some ([v], 1)
  | .reduce, [], none => none
  | _, _, _ => some ([], 0)

/-- What a method carries to its next call: only `reduce` takes on the last answer. -/
def carried (m : CallbackMethod) (start : List Value) (rounds : Visited) : List Value :=
  match m, rounds.getLast? with
  | .reduce, some r => [r.answer]
  | _, _ => start

/-- The elements for which `filter` was answered true. -/
def kept (rounds : Visited) : List Value :=
  (rounds.filter fun r => r.answer = .bool true).map fun r => r.asked.element

/-- `find` goes on only as long as it is answered false. -/
def Searching (m : CallbackMethod) (rounds : Visited) : Prop := m = .find → ∀ r ∈ rounds, r.answer = .bool false

/-- The call that is issued next: for the element that is there at the next position. -/
structure Asks (m : CallbackMethod) (read : Reading) (start : List Value) (first : Nat) (rounds : Visited)
    (s : Machine) (v : Visit) : Prop where
  index : v.index = first + rounds.length
  element : read s v.index = some v.element
  carried : v.carried = Callback.carried m start rounds
  searching : Searching m rounds

/-- How a method ends by itself after its calls: with its result when it is through, or with the element that it was
looking for. -/
inductive Concludes (through : Prop) (start : List Value) (rounds : Visited) (s : Machine) :
    CallbackMethod → Turn Machine Fault Value → Prop
  | filter : through → Concludes through start rounds s .filter
      (.done { s with heap := s.heap.alloc (kept rounds).toArray } (.arr s.heap.next))
  | reduce {v} : through → carried .reduce start rounds = [v] → Concludes through start rounds s .reduce (.done s v)
  | missed : through → Searching .find rounds → Concludes through start rounds s .find (.done s .null)
  | found {earlier r} : rounds = earlier ++ [r] → Searching .find earlier → r.answer = .bool true →
      Concludes through start rounds s .find (.done s r.asked.element)

/-- The ends of a loop: it concludes when there is nothing more to read, or has read as many elements as it may. -/
def LoopEnds (m : CallbackMethod) (read : Reading) (start : List Value) (first limit : Nat) (rounds : Visited)
    (s : Machine) (u : Turn Machine Fault Value) : Prop :=
  Concludes (read s (first + rounds.length) = none) start rounds s m u ∨ rounds.length = limit ∧ u = .exhausted

theorem Concludes.imp {through through' : Prop} {start : List Value} {rounds : Visited} {s : Machine}
    {m : CallbackMethod} {u : Turn Machine Fault Value} (h : Concludes through start rounds s m u)
    (hthrough : through → through') : Concludes through' start rounds s m u := by
  cases h with
  | filter hall => exact .filter (hthrough hall)
  | reduce hall hlast => exact .reduce (hthrough hall) hlast
  | missed hall hsearching => exact .missed (hthrough hall) hsearching
  | found hlast hsearching hfound => exact .found hlast hsearching hfound

/-- The last array that there is after `filter` holds what it has kept. -/
theorem Concludes.back_of_filter {through : Prop} {start : List Value} {rounds : Visited} {s s' : Machine} {v : Value}
    (h : Concludes through start rounds s .filter (.done s' v)) :
    through ∧ s'.heap.cells.back? = some (kept rounds).toArray := by
  generalize hend : Turn.done s' v = u at h
  cases h with
  | filter hall =>
    injection hend with hstate
    exact ⟨hall, by simp [hstate, Heap.alloc]⟩

theorem Concludes.not_failed {through : Prop} {start : List Value} {rounds : Visited} {s s' : Machine}
    {m : CallbackMethod} {e : Fault} : ¬ Concludes through start rounds s m (.failed s' e) := nofun

theorem begins_eq_none_iff {m : CallbackMethod} {rest : List Value} {item : Option Value} :
    begins m rest item = none ↔ m = .reduce ∧ rest = [] ∧ item = none := by
  unfold begins
  split <;> simp_all

theorem carried_snoc (start : List Value) (rounds : Visited) (r : Round Machine Visit Value) :
    carried .reduce start (rounds ++ [r]) = [r.answer] := by
  simp [carried]

theorem kept_cons (r : Round Machine Visit Value) (rounds : Visited) :
    kept (r :: rounds) = if r.answer = .bool true then r.asked.element :: kept rounds else kept rounds := by
  unfold kept
  split
  · next h => simp [h]
  · next h => simp [h]

theorem Searching.snoc {rounds : Visited} {r : Round Machine Visit Value} (h : Searching .find rounds)
    (hr : r.answer = .bool false) : Searching .find (rounds ++ [r]) := by
  intro _ q hq
  rcases List.mem_append.1 hq with hq | hq
  · exact h rfl q hq
  · rwa [List.mem_singleton.1 hq]

section

variable {m : CallbackMethod} {read : Reading} {start : List Value} {first bound : Nat} {rounds : Visited}

/-- Positions are read in order, so there have been at most as many calls as there were elements. -/
theorem Asks.length_lt {s : Machine} {v : Visit} (h : Asks m read start first rounds s v)
    (hbound : ∀ i x, read s i = some x → i < bound) : rounds.length < bound := by
  have hindex := h.index
  have hlt := hbound v.index v.element h.element
  omega

theorem length_le_of_answered (h : Answered m.refusal (Asks m read start first) [] rounds)
    (hbound : ∀ r ∈ rounds, ∀ i x, read r.before i = some x → i < bound) : rounds.length ≤ bound := by
  rcases List.eq_nil_or_concat rounds with rfl | ⟨earlier, r, rfl⟩
  · exact Nat.zero_le _
  · obtain ⟨hasks, -⟩ := h earlier.length r (by simp)
    have hlt := hasks.length_lt (hbound r (by simp))
    simp at hlt ⊢
    omega

end

/-! ## The loops -/

section Loops

variable (host : Host) (f : Fn) {elements : Elements} {read : Reading}

/-- How the loop of `filter` ends: with the elements kept after the rounds before it. -/
inductive FilterEnds (read : Reading) (limit before : Nat) (rounds : Visited) (s : Machine) :
    Turn Machine Fault (List Value) → Prop
  | done : read s rounds.length = none → FilterEnds read limit before rounds s (.done s (kept (rounds.drop before)))
  | limit : rounds.length = limit → FilterEnds read limit before rounds s .exhausted

theorem filterFrom_byRounds (hgives : elements.Gives read) {bound : Nat} (rounds : Visited) (s : Machine)
    (hbound : rounds.length + bound = elements.bound) :
    ByRounds (visit host .filter f) CallbackMethod.filter.refusal (Asks .filter read [] 0)
      (FilterEnds read elements.bound rounds.length) rounds s (filterFrom host f elements bound rounds.length s) := by
  induction bound generalizing rounds s with
  | zero => exact .ended (.limit hbound)
  | succ bound ih =>
    change ByRounds _ _ _ _ _ _ ((elements.get rounds.length s).bind _)
    rw [hgives]
    cases hread : read s rounds.length with
    | none =>
      have hdone : FilterEnds read elements.bound rounds.length rounds s (.done s (kept (rounds.drop rounds.length))) :=
        .done hread
      rw [List.drop_length] at hdone
      exact .ended hdone
    | some v =>
      change ByRounds _ _ _ _ _ _ ((visit host .filter f ⟨[], v, rounds.length⟩ s).bind _)
      refine .call _ ⟨(Nat.zero_add _).symm, hread, rfl, nofun⟩
        (fun answer e s' hwrong => ?_) (fun answer s' hright => ?_)
      · rw [result_of_refusal rfl rfl hwrong]
        rfl
      · obtain ⟨keep, rfl⟩ := Value.eq_bool_of_kind (kind_of_accepted rfl hright)
        have hrest := ih (rounds ++ [⟨s, ⟨[], v, rounds.length⟩, .bool keep⟩]) s' (by simp; omega)
        rw [List.length_append, List.length_singleton] at hrest
        change ByRounds _ _ _ _ _ _ ((filterFrom host f elements bound (rounds.length + 1) s').bind _)
        refine hrest.bind fun more s'' u _ hend => ?_
        cases hend with
        | done hread' =>
          have hdone : FilterEnds read elements.bound rounds.length _ s'' (.done s'' _) := .done hread'
          simp only [List.append_assoc, List.drop_left, List.singleton_append, kept_cons] at hdone
          refine .ended ?_
          change FilterEnds _ _ _ _ _ (.done s'' (if keep then v :: _ else _))
          cases keep <;> simpa using hdone
        | limit hcount => exact .ended (.limit hcount)

theorem reduceFrom_byRounds (hgives : elements.Gives read) {start : List Value} {first limit bound : Nat}
    (rounds : Visited) (acc : Value) (s : Machine) (hbound : rounds.length + bound = limit)
    (hacc : carried .reduce start rounds = [acc]) :
    ByRounds (visit host .reduce f) CallbackMethod.reduce.refusal (Asks .reduce read start first)
      (LoopEnds .reduce read start first limit) rounds s
      (reduceFrom host f elements bound (first + rounds.length) acc s) := by
  induction bound generalizing rounds acc s with
  | zero => exact .ended (.inr ⟨hbound, rfl⟩)
  | succ bound ih =>
    change ByRounds _ _ _ _ _ _ ((elements.get (first + rounds.length) s).bind _)
    rw [hgives]
    cases hread : read s (first + rounds.length) with
    | none => exact .ended (.inl (.reduce hread hacc))
    | some v =>
      change ByRounds _ _ _ _ _ _ ((visit host .reduce f ⟨[acc], v, first + rounds.length⟩ s).bind _)
      refine .call _ ⟨rfl, hread, hacc.symm, nofun⟩ (fun answer e s' hwrong => nomatch hwrong) (fun answer s' _ => ?_)
      have hrest := ih (rounds ++ [⟨s, ⟨[acc], v, first + rounds.length⟩, answer⟩]) answer s' (by simp; omega)
        (carried_snoc ..)
      rwa [List.length_append, List.length_singleton, ← Nat.add_assoc] at hrest

theorem findFrom_byRounds (hgives : elements.Gives read) {limit bound : Nat} (rounds : Visited) (s : Machine)
    (hbound : rounds.length + bound = limit) (hsearching : Searching .find rounds) :
    ByRounds (visit host .find f) CallbackMethod.find.refusal (Asks .find read [] 0)
      (LoopEnds .find read [] 0 limit) rounds s
      (findFrom host f elements bound rounds.length s) := by
  induction bound generalizing rounds s with
  | zero => exact .ended (.inr ⟨hbound, rfl⟩)
  | succ bound ih =>
    change ByRounds _ _ _ _ _ _ ((elements.get rounds.length s).bind _)
    rw [hgives]
    cases hread : read s rounds.length with
    | none =>
      rw [← Nat.zero_add rounds.length] at hread
      exact .ended (.inl (.missed hread hsearching))
    | some v =>
      change ByRounds _ _ _ _ _ _ ((visit host .find f ⟨[], v, rounds.length⟩ s).bind _)
      refine .call _ ⟨(Nat.zero_add _).symm, hread, rfl, hsearching⟩
        (fun answer e s' hwrong => ?_) (fun answer s' hright => ?_)
      · rw [result_of_refusal rfl rfl hwrong]
        rfl
      · obtain ⟨found, rfl⟩ := Value.eq_bool_of_kind (kind_of_accepted rfl hright)
        cases found with
        | true => exact .ended (.inl (.found rfl hsearching rfl))
        | false =>
          have hrest := ih (rounds ++ [⟨s, ⟨[], v, rounds.length⟩, .bool false⟩]) s' (by simp; omega)
            (hsearching.snoc rfl)
          rwa [List.length_append, List.length_singleton] at hrest

end Loops

/-! ## The methods -/

section Methods

variable (host : Host) (c : Cell) (f : Fn) (rest : List Value) (s : Machine)

/-- A method that has nothing to begin with fails. -/
theorem run_of_not_begins {m : CallbackMethod} (hbegins : begins m rest (host.reading c s s 0) = none) :
    run host c m (.fn f :: rest) s = .failed s (.emptyArray .reduce) := by
  obtain ⟨elements, hcell, hgives, -⟩ := Elements.ofCell_gives host c s
  obtain ⟨rfl, rfl, hread⟩ := begins_eq_none_iff.1 hbegins
  change ((Elements.ofCell host c s).bind _) = _
  rw [hcell]
  change ((elements.get 0 s).bind _) = _
  rw [hgives, hread]
  rfl

/-- The methods that run over the elements one at a time do so by rounds. -/
theorem iterates_byRounds {m : CallbackMethod} (hm : m ∈ [.filter, .reduce, .find]) {start : List Value} {first : Nat}
    (hbegins : begins m rest (host.reading c s s 0) = some (start, first)) :
    ByRounds (visit host m f) m.refusal (Asks m (host.reading c s) start first)
      (LoopEnds m (host.reading c s) start first (host.steps c s)) [] s
      (run host c m (.fn f :: rest) s) := by
  obtain ⟨elements, hcell, hgives, hsteps⟩ := Elements.ofCell_gives host c s
  simp only [List.mem_cons, List.not_mem_nil, or_false] at hm
  rcases hm with rfl | rfl | rfl
  · obtain ⟨rfl, rfl⟩ : [] = start ∧ 0 = first := by simpa [begins] using hbegins
    change ByRounds _ _ _ _ _ _ ((Elements.ofCell host c s).bind _)
    rw [hcell]
    refine (filterFrom_byRounds host f hgives [] s (Nat.zero_add _)).bind fun more s' u _ hend => ?_
    cases hend with
    | done hread =>
      rw [← Nat.zero_add (List.length _)] at hread
      exact .ended (.inl (.filter hread))
    | limit hcount => exact .ended (.inr ⟨hcount.trans hsteps, rfl⟩)
  · change ByRounds _ _ _ _ _ _ ((Elements.ofCell host c s).bind _)
    rw [hcell]
    cases rest with
    | cons acc rest =>
      obtain ⟨rfl, rfl⟩ : [acc] = start ∧ 0 = first := by simpa [begins] using hbegins
      exact reduceFrom_byRounds host f hgives [] acc s ((Nat.zero_add _).trans hsteps) rfl
    | nil =>
      change ByRounds _ _ _ _ _ _ ((elements.get 0 s).bind _)
      rw [hgives]
      cases hread : host.reading c s s 0 with
      | none => simp [begins, hread] at hbegins
      | some acc =>
        obtain ⟨rfl, rfl⟩ : [acc] = start ∧ 1 = first := by simpa [begins, hread] using hbegins
        exact reduceFrom_byRounds host f hgives [] acc s ((Nat.zero_add _).trans hsteps) rfl
  · obtain ⟨rfl, rfl⟩ : [] = start ∧ 0 = first := by simpa [begins] using hbegins
    change ByRounds _ _ _ _ _ _ ((Elements.ofCell host c s).bind _)
    rw [hcell]
    exact findFrom_byRounds host f hgives [] s ((Nat.zero_add _).trans hsteps) nofun

/-- Only an array that is read as it is at each step can be there up to the bound. -/
theorem limit_of_steps {m : CallbackMethod} {start : List Value} {first : Nat} {rounds : Visited}
    (h : Answered m.refusal (Asks m (host.reading c s) start first) [] rounds)
    (hcount : rounds.length = host.steps c s) :
    host.config.iteration = .live ∧ rounds.length = host.limit := by
  unfold Host.reading at h
  unfold Host.steps at hcount
  cases hmode : host.config.iteration with
  | live =>
    simp only [hmode] at hcount
    exact ⟨rfl, hcount⟩
  | snapshot =>
    simp only [hmode] at h hcount
    have hle := length_le_of_answered h fun _ _ => lt_of_held (Nat.le_refl _)
    omega

theorem Concludes.after {through : Prop} {m : CallbackMethod} {start : List Value} {rounds : Visited} {s' : Machine}
    {u : Turn Machine Fault Value} (h : Concludes through start rounds s' m u) (given : List Machine) :
    u.after given = u := by
  cases h with
  | filter _ => exact Turn.after_done ..
  | reduce _ _ => exact Turn.after_done ..
  | missed _ _ => exact Turn.after_done ..
  | found _ _ _ => exact Turn.after_done ..

theorem LoopEnds.after {m : CallbackMethod} {read : Reading} {start : List Value} {first limit : Nat}
    {rounds : Visited} {s' : Machine} {u : Turn Machine Fault Value}
    (h : LoopEnds m read start first limit rounds s' u) (given : List Machine) : u.after given = u := by
  rcases h with hdone | ⟨-, rfl⟩
  · exact hdone.after given
  · exact Turn.after_exhausted ..

/-- One more call is issued, and all hangs on it. -/
def Pends (host : Host) (m : CallbackMethod) (f : Fn) (asks : Visit → Prop) (s : Machine) (left : List Machine)
    (u : Turn Machine Fault Value) : Prop :=
  ∃ v, asks v ∧ ((visit host m f v s).after left).Stops m.refusal u

theorem Pends.imp {host : Host} {m : CallbackMethod} {f : Fn} {asks asks' : Visit → Prop} {s : Machine}
    {left : List Machine} {u : Turn Machine Fault Value} (h : Pends host m f asks s left u)
    (hasks : ∀ v, asks v → asks' v) : Pends host m f asks' s left u := by
  obtain ⟨v, hv, hstops⟩ := h
  exact ⟨v, hasks v hv, hstops⟩

/-- **The run of a method that iterates.** Its calls are for the elements that there are to read, one after the
other; then it has come to an end, or it stands as one more call makes it. -/
theorem iteration_account {m : CallbackMethod} (hm : m ∈ [.filter, .reduce, .find]) {start : List Value}
    {first : Nat} (hbegins : begins m rest (host.reading c s s 0) = some (start, first)) (given : List Machine) :
    let stand := ((Bound.callback c m).call host (.fn f :: rest) s).after given
    ∃ rounds s' left, Rounds (visit host m f) s given rounds s' left ∧
      Answered m.refusal (Asks m (host.reading c s) start first) [] rounds ∧
      (LoopEnds m (host.reading c s) start first (host.steps c s) rounds s' stand ∨
        Pends host m f (Asks m (host.reading c s) start first rounds s') s' left stand) := by
  intro stand
  obtain ⟨rounds, s', left, hrounds, hanswered, hend⟩ := (iterates_byRounds host c f rest s hm hbegins).account given
  refine ⟨rounds, s', left, hrounds, hanswered, ?_⟩
  rcases hend with ⟨u, hends, hstand⟩ | ⟨v, hasks, hstops⟩
  · have hu : stand = u := hstand.trans (hends.after left)
    exact .inl (hu ▸ hends)
  · exact .inr ⟨v, hasks, hstops⟩

theorem call_after_of_not_begins {m : CallbackMethod} (hbegins : begins m rest (host.reading c s s 0) = none)
    (given : List Machine) :
    ((Bound.callback c m).call host (.fn f :: rest) s).after given = .failed s (.emptyArray .reduce) := by
  change (run host c m (.fn f :: rest) s).after given = _
  rw [run_of_not_begins host c f rest s hbegins, Turn.after_failed]

end Methods

end Callback

end ScriptValues
