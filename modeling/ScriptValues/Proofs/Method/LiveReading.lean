/-
Iteration over an array that is read as it is at each step. The functions called may change the array between any two
steps, so what is seen and when the end comes cannot be told from the start. What can be told is each step by itself:
a call is for the element that the array holds at that position at that moment, and there is no further call once the
array does not reach the position (`live_iteration_reads_through`). As the positions only go up, an array that stays
short stops the method, whatever is done to it.
-/
import ScriptValues.Proofs.Method.Iteration

open ScriptValues.Task

namespace ScriptValues.Callback

theorem reading_of_live {host : Host} (hmode : host.config.iteration = .live) (c : Cell) (s : Machine) :
    host.reading c s = held c := by
  rw [Host.reading, hmode]

theorem steps_of_live {host : Host} (hmode : host.config.iteration = .live) (c : Cell) (s : Machine) :
    host.steps c s = host.limit := by
  rw [Host.steps, hmode]

/-- **Live iteration reads through at every step.** Let `filter`, `reduce` or `find` run from a machine `s`, and go on
after its pauses from any machines `given`; the function that it calls may do anything meanwhile, to the array too.

`reduce` fails at once if it needs an element and there is none. Otherwise each call is for the element that the array
holds when the call is issued, at the next position each time, and the method concludes at the first position that the
array does not reach, or with the element for which `find` is first answered true; what `filter` keeps are the elements
that were passed. Else it stands as one more call makes it: still paused, or failed or cut off with it. Or it
has read as many elements as it may.

If the array is never longer than `bound`, at most so many calls are issued. So the method, unless it may not read
more elements than that, is through with them or hangs on one. -/
theorem live_iteration_reads_through (host : Host) (c : Cell) (m : CallbackMethod) (f : Fn) (rest : List Value)
    (s : Machine) (given : List Machine) (hm : m ∈ [.filter, .reduce, .find])
    (hmode : host.config.iteration = .live) :
    let stand := ((Bound.callback c m).call host (.fn f :: rest) s).after given
    match begins m rest (held c s 0) with
    | none => stand = .failed s (.emptyArray .reduce)
    | some (start, first) =>
      ∃ rounds s' left, Rounds (visit host m f) s given rounds s' left ∧
        Answered m.refusal (Asks m (held c) start first) [] rounds ∧
        let concludes := Concludes ((s'.heap.contents c).size ≤ first + rounds.length) start rounds s' m stand
        let pends := Pends host m f (Asks m (held c) start first rounds s') s' left stand
        (concludes ∨ pends ∨ rounds.length = host.limit ∧ stand = .exhausted) ∧
        ∀ bound, (∀ r ∈ rounds, (r.before.heap.contents c).size ≤ bound) → (s'.heap.contents c).size ≤ bound →
          rounds.length ≤ bound ∧ (pends → rounds.length < bound) ∧ (bound < host.limit → concludes ∨ pends) := by
  intro stand
  have hreading := reading_of_live hmode c s
  split
  · next hbegins => exact call_after_of_not_begins host c f rest s (hreading ▸ hbegins) given
  · next start first hbegins =>
    obtain ⟨rounds, s', left, hrounds, hanswered, hend⟩ :=
      iteration_account host c f rest s hm (hreading ▸ hbegins) given
    rw [hreading, steps_of_live hmode] at hend
    rw [hreading] at hanswered
    refine ⟨rounds, s', left, hrounds, hanswered, ?_⟩
    intro concludes pends
    have hstands : concludes ∨ pends ∨ rounds.length = host.limit ∧ stand = .exhausted := by
      rcases hend with (hdone | hlimit) | hpends
      · exact .inl (hdone.imp fun hnone => Array.getElem?_eq_none_iff.1 hnone)
      · exact .inr (.inr hlimit)
      · exact .inr (.inl hpends)
    refine ⟨hstands, fun bound hbefore hafter => ?_⟩
    have hcalls : rounds.length ≤ bound :=
      length_le_of_answered hanswered fun r hr => lt_of_held (hbefore r hr)
    refine ⟨hcalls, fun ⟨v, hasks, _⟩ => hasks.length_lt (lt_of_held hafter), fun hlimit => ?_⟩
    rcases hstands with hdone | hpends | ⟨hcount, -⟩
    · exact .inl hdone
    · exact .inr hpends
    · omega

/-- A host whose functions put one more element into the first array while it has fewer than three, and answer true. -/
def growingHost : Host where
  invoke _ _ := do
    let items ← Act.contents ⟨0⟩
    if items.size < 3 then Act.write ⟨0⟩ (items.push .null)
    pure (.bool true)
  config := { iteration := .live }
  limit := 8

/-- Begun with one element, a filter is called for three. -/
theorem filter_sees_growth :
    let s : Machine := { Machine.start with heap := ⟨#[#[.bool true]]⟩ }
    CallbackMethod.filter ∈ [.filter, .reduce, .find] ∧ growingHost.config.iteration = .live ∧
      ∃ rounds s' left, Rounds (visit growingHost .filter (.script 1)) s [] rounds s' left ∧
        Answered CallbackMethod.filter.refusal (Asks .filter (held ⟨0⟩) [] 0) [] rounds ∧
        kept rounds = [.bool true, .null, .null] := by
  intro s
  have hm : CallbackMethod.filter ∈ [.filter, .reduce, .find] := by simp
  refine ⟨hm, rfl, ?_⟩
  obtain ⟨rounds, s', left, hrounds, hanswered, hstands, -⟩ :=
    live_iteration_reads_through growingHost ⟨0⟩ .filter (.script 1) [] s [] hm rfl
  refine ⟨rounds, s', left, hrounds, hanswered, ?_⟩
  let items : Array Value := #[.bool true, .null, .null]
  let report : Event := .callback .filter (Fn.script 1).name
  have hstand : ((Bound.callback ⟨0⟩ .filter).call growingHost [.fn (.script 1)] s).after [] =
      .done { s with heap := ⟨#[items, items]⟩, events := #[report, report, report] } (.arr ⟨1⟩) := by
    rfl
  rw [hstand] at hstands
  rcases hstands with hdone | ⟨v, -, hstops⟩ | ⟨-, hcut⟩
  · have hback := hdone.back_of_filter.2
    exact (congrArg Array.toList (Option.some.inj hback)).symm
  · exact absurd hstops Turn.not_stops_done
  · cases hcut

end ScriptValues.Callback
