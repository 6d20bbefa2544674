/-
Iteration over the elements as they were at the start. Whatever the functions called do to the array, the calls of
`filter`, `reduce` and `find` are those of a fold over the starting elements: the positions and elements of all calls
are known beforehand, and only what `reduce` carries from call to call depends on the answers (`foldCalls`).
`snapshot_iteration_folds` says that the methods make these calls and no others, and what comes of them.
-/
import ScriptValues.Proofs.Method.Iteration

open ScriptValues.Task

namespace ScriptValues.Callback

/-- The calls for elements with their positions, by the answers so far: one for each element, in order. -/
def foldCalls (m : CallbackMethod) (start : List Value) (elements : List (Value × Nat)) (answers : List Value) :
    List Visit :=
  match m with
  | .reduce => List.zipWith (fun carried q => ⟨carried, q.1, q.2⟩) (start :: answers.map ([·])) elements
  | _ => elements.map fun q => ⟨start, q.1, q.2⟩

theorem getElem?_carried (start : List Value) {rounds : Visited} {k : Nat} (hk : k ≤ rounds.length) :
    (start :: (rounds.map Round.answer).map ([·]))[k]? = some (carried .reduce start (rounds.take k)) := by
  cases k with
  | zero => rfl
  | succ k =>
    have hlast : (rounds.take (k + 1)).getLast? = some rounds[k] := by
      rw [List.take_add_one, List.getElem?_eq_getElem hk, Option.toList_some, List.getLast?_concat]
    simp [carried, hlast, List.getElem?_eq_getElem hk]

/-- The call after `k` rounds. -/
theorem getElem?_foldCalls (m : CallbackMethod) (start : List Value) (items : List Value) (first : Nat)
    {rounds : Visited} {k : Nat} (hk : k ≤ rounds.length) :
    (foldCalls m start (items.zipIdx.drop first) (rounds.map Round.answer))[k]? =
      items[first + k]?.map fun v => ⟨carried m start (rounds.take k), v, first + k⟩ := by
  have hitem : (items.zipIdx.drop first)[k]? = items[first + k]?.map fun v => (v, first + k) := by
    simp [List.getElem?_drop, List.getElem?_zipIdx]
  cases m with
  | reduce =>
    rw [foldCalls, List.getElem?_zipWith, getElem?_carried start hk, hitem]
    cases items[first + k]? <;> rfl
  | _ =>
    simp only [foldCalls, List.getElem?_map, hitem, Option.map_map]
    rfl

section

variable {m : CallbackMethod} {start : List Value} {c : Cell} {s : Machine} {first : Nat} {rounds : Visited}

/-- What is asked for after `k` rounds is the call of the fold. -/
theorem Asks.getElem?_foldCalls {s' : Machine} {v : Visit} {k : Nat} (hk : k ≤ rounds.length)
    (h : Asks m (fun _ => held c s) start first (rounds.take k) s' v) :
    (foldCalls m start ((s.heap.contents c).toList.zipIdx.drop first) (rounds.map Round.answer))[k]? = some v := by
  obtain ⟨hindex, helement, hcarried, -⟩ := h
  rw [List.length_take, Nat.min_eq_left hk] at hindex
  have hitem : (s.heap.contents c).toList[first + k]? = some v.element := by
    rw [Array.getElem?_toList, ← hindex]
    exact helement
  rw [Callback.getElem?_foldCalls m start _ first hk, hitem, ← hcarried, ← hindex]
  rfl

theorem Asks.next_eq {s' : Machine} {v : Visit} (h : Asks m (fun _ => held c s) start first rounds s' v) :
    (foldCalls m start ((s.heap.contents c).toList.zipIdx.drop first) (rounds.map Round.answer))[rounds.length]? =
      some v := by
  rw [← List.take_length (l := rounds)] at h
  simpa using h.getElem?_foldCalls (Nat.le_refl _)

theorem asked_prefix_foldCalls (h : Answered m.refusal (Asks m (fun _ => held c s) start first) [] rounds) :
    rounds.map Round.asked <+:
      foldCalls m start ((s.heap.contents c).toList.zipIdx.drop first) (rounds.map Round.answer) := by
  refine List.prefix_iff_getElem?.2 fun k hk => ?_
  rw [List.length_map] at hk
  obtain ⟨hasks, -⟩ := h k rounds[k] (List.getElem?_eq_getElem hk)
  rw [hasks.getElem?_foldCalls (Nat.le_of_lt hk), List.getElem_map]

/-- When there is nothing more to read, all calls of the fold have been made. -/
theorem asked_eq_foldCalls (h : Answered m.refusal (Asks m (fun _ => held c s) start first) [] rounds)
    (hend : held c s (first + rounds.length) = none) :
    rounds.map Round.asked =
      foldCalls m start ((s.heap.contents c).toList.zipIdx.drop first) (rounds.map Round.answer) := by
  have hnone : (s.heap.contents c).toList[first + rounds.length]? = none := by
    rw [Array.getElem?_toList]
    exact hend
  refine (asked_prefix_foldCalls h).eq_of_length_le ?_
  rw [List.length_map]
  refine List.getElem?_eq_none_iff.1 ?_
  rw [getElem?_foldCalls m start _ first (Nat.le_refl _), hnone, Option.map_none]

end

/-- The fault of `reduce` on nothing is no refusal of an answer. -/
theorem refusal_ne_emptyArray (m m' : CallbackMethod) (v : Value) : m.refusal v ≠ some (.emptyArray m') := by
  unfold CallbackMethod.refusal
  split
  · simp
  · split <;> simp

/-- **Snapshot iteration is a fold over the starting elements.** Let `filter`, `reduce` or `find` run from a machine
`s`, and go on after its pauses from any machines `given`; the function that it calls may do anything meanwhile, to the
array too.

Its calls are the first of those of the fold over the elements that `s` holds, answered as wanted. Either these are
all, or the last one is that for which `find` was answered true, and the method concludes: `filter` with a new array of
the elements for which it was answered true, `reduce` with the last answer, `find` with the element or with null. Or it
stands as the next call of the fold makes it. Only `reduce` can have nothing to begin with, and if no call fails, that
is just when it fails so: it is given no value and `s` holds no element. -/
theorem snapshot_iteration_folds (host : Host) (c : Cell) (m : CallbackMethod) (f : Fn) (rest : List Value)
    (s : Machine) (given : List Machine) (hm : m ∈ [.filter, .reduce, .find])
    (hmode : host.config.iteration = .snapshot) :
    let items := (s.heap.contents c).toList
    let stand := ((Bound.callback c m).call host (.fn f :: rest) s).after given
    (match begins m rest items.head? with
      | none => stand = .failed s (.emptyArray .reduce)
      | some (start, first) =>
        ∃ rounds s' left, Rounds (visit host m f) s given rounds s' left ∧
          let calls := foldCalls m start (items.zipIdx.drop first) (rounds.map Round.answer)
          rounds.map Round.asked <+: calls ∧ (∀ r ∈ rounds, m.refusal r.answer = none) ∧
          (Concludes (rounds.map Round.asked = calls) start rounds s' m stand ∨
            Pends host m f (fun v => calls[rounds.length]? = some v ∧ Searching m rounds) s' left stand)) ∧
      ((∀ v s left s' e, (visit host m f v s).after left ≠ .failed s' e) →
        ((∃ s', stand = .failed s' (.emptyArray .reduce)) ↔ m = .reduce ∧ rest = [] ∧ items = [])) := by
  intro items stand
  have hreading : host.reading c s = fun _ => held c s := by rw [Host.reading, hmode]
  have hitem : items.head? = host.reading c s s 0 := by
    rw [hreading, List.head?_eq_getElem?, Array.getElem?_toList]
    rfl
  have hempty : begins m rest items.head? = none ↔ m = .reduce ∧ rest = [] ∧ items = [] := by
    rw [begins_eq_none_iff, List.head?_eq_none_iff]
  rw [← hempty, hitem]
  cases hbegins : begins m rest (host.reading c s s 0) with
  | none =>
    have hstand : stand = .failed s (.emptyArray .reduce) := call_after_of_not_begins host c f rest s hbegins given
    exact ⟨hstand, fun _ => ⟨fun _ => rfl, fun _ => ⟨s, hstand⟩⟩⟩
  | some p =>
    obtain ⟨start, first⟩ := p
    obtain ⟨rounds, s', left, hrounds, hanswered, hend⟩ := iteration_account host c f rest s hm hbegins given
    have hsteps : ¬ rounds.length = host.steps c s := by
      intro hcount
      obtain ⟨hlive, -⟩ := limit_of_steps host c s hanswered hcount
      rw [hmode] at hlive
      cases hlive
    rw [hreading] at hanswered hend
    have hstands : Concludes (held c s (first + rounds.length) = none) start rounds s' m stand ∨
        Pends host m f (Asks m (fun _ => held c s) start first rounds s') s' left stand :=
      hend.imp_left fun hloop => hloop.resolve_right fun hcut => hsteps hcut.1
    refine ⟨⟨rounds, s', left, hrounds, asked_prefix_foldCalls hanswered, fun r => hanswered.accepted, ?_⟩,
      fun hcalls => ⟨?_, nofun⟩⟩
    · rcases hstands with hdone | hpends
      · exact .inl (hdone.imp (asked_eq_foldCalls hanswered))
      · exact .inr (hpends.imp fun v hasks => ⟨hasks.next_eq, hasks.searching⟩)
    · rintro ⟨s'', hstand⟩
      rw [hstand] at hstands
      rcases hstands with hdone | ⟨v, -, hstops⟩
      · exact absurd hdone Concludes.not_failed
      · rcases hstops.of_failed with hfailed | ⟨answer, -, hrefused⟩
        · exact absurd hfailed (hcalls _ _ _ _ _)
        · exact absurd hrefused (refusal_ne_emptyArray _ _ _)

/-- A host whose functions empty the first array, and answer with what they are passed first. -/
def emptyingHost : Host where
  invoke _ args := do
    Act.write ⟨0⟩ #[]
    pure (args.headD .null)
  config := { iteration := .snapshot }
  limit := 8

/-- The array is empty from the first call on, and yet all its elements are passed and kept. -/
theorem filter_ignores_emptying :
    let s : Machine := { Machine.start with heap := ⟨#[#[.bool true, .bool true]]⟩ }
    CallbackMethod.filter ∈ [.filter, .reduce, .find] ∧ emptyingHost.config.iteration = .snapshot ∧
      ∃ rounds s' left, Rounds (visit emptyingHost .filter (.script 1)) s [] rounds s' left ∧
        rounds.map Round.asked = [⟨[], .bool true, 0⟩, ⟨[], .bool true, 1⟩] ∧
        kept rounds = [.bool true, .bool true] := by
  intro s
  have hm : CallbackMethod.filter ∈ [.filter, .reduce, .find] := by simp
  refine ⟨hm, rfl, ?_⟩
  obtain ⟨⟨rounds, s', left, hrounds, -, -, hstands⟩, -⟩ :=
    snapshot_iteration_folds emptyingHost ⟨0⟩ .filter (.script 1) [] s [] hm rfl
  refine ⟨rounds, s', left, hrounds, ?_⟩
  let report : Event := .callback .filter (Fn.script 1).name
  have hstand : ((Bound.callback ⟨0⟩ .filter).call emptyingHost [.fn (.script 1)] s).after [] =
      .done { s with heap := ⟨#[#[], #[.bool true, .bool true]]⟩, events := #[report, report] } (.arr ⟨1⟩) := rfl
  rw [hstand] at hstands
  rcases hstands with hdone | ⟨v, -, hstops⟩
  · obtain ⟨hcalls, hback⟩ := hdone.back_of_filter
    exact ⟨hcalls, (congrArg Array.toList (Option.some.inj hback)).symm⟩
  · exact absurd hstops Turn.not_stops_done

end ScriptValues.Callback
