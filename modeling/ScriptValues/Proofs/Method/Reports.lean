/-
What a `map` and a `sort` report of themselves: nothing before they succeed, and then one event, with the number of
elements that they have found and of the calls that they have made. Their calls may report what they like meanwhile,
of themselves and of methods that they run in turn.
-/
import ScriptValues.Proofs.Method.OneByOne

open ScriptValues.Task

namespace ScriptValues.Callback

/-- What a `sort` that stands so has reported: done, the elements and the calls that it has made; before, nothing, for
then the machine is what its calls have made of it. -/
def SortAccount (host : Host) (c : Cell) (f : Fn) (s : Machine) (given : List Machine)
    (stand : Turn Machine Fault Value) : Prop :=
  ∃ answers s' left, Exchange (callBack host .sort) s given answers s' left ∧ (∀ q ∈ answers, q.1 = f) ∧
    match stand with
    | .done s'' _ => s''.events = s'.events.push (.sorted (s.heap.contents c).size answers.length)
    | stand => ∃ passed, ((callBack host .sort f passed s').after left).Stops CallbackMethod.sort.refusal stand

/-- What a `map` that stands so has reported: done, the calls that it has begun, one for each element; before,
nothing, for then the machine is what turns of its calls have made of it. -/
def MapAccount (host : Host) (c : Cell) (f : Fn) (s : Machine) (given : List Machine)
    (stand : Turn Machine Fault Value) : Prop :=
  let calls := (mapCalls host f (s.heap.contents c).toList).map Member.running
  ∃ moments members begun s', play moments calls s = some (members, s') ∧
    (turns moments).eraseDups = List.range begun ∧ resumptions moments <+: given ∧
    match stand with
    | .done s'' _ => begun = (s.heap.contents c).size ∧
        s''.events = s'.events.push (.mapped begun host.config.map)
    | .failed s'' _ => s'' = s'
    | .paused s'' _ => s'' = s'
    | .exhausted => ∃ t, Member.running t ∈ members ∧ t s' = .exhausted

section

variable (host : Host) (c : Cell) (f : Fn) (rest : List Value) (s : Machine) (given : List Machine)

theorem sort_account : SortAccount host c f s given ((sort host c (.fn f :: rest) s).after given) := by
  obtain ⟨answers, s', left, hexchange, haccepted, hend⟩ := (sort_oneByOne host c f rest s).account given
  refine ⟨answers, s', left, hexchange, fun q hq => (haccepted q hq).1, ?_⟩
  rcases hend with ⟨u, hends, hstand⟩ | ⟨passed, hstops⟩
  · rw [hstand, hends.after left]
    rw [Nat.zero_add] at hends
    cases hends with
    | done hcloses =>
      cases hcloses
      rfl
    | empty hm _ => cases hm
    | limit hm _ _ => exact absurd hm (by decide)
  · generalize (sort host c (.fn f :: rest) s).after given = u at hstops ⊢
    cases u with
    | done s'' v => exact absurd hstops Turn.not_stops_done
    | failed s'' e => exact ⟨passed, hstops⟩
    | paused s'' rest => exact ⟨passed, hstops⟩
    | exhausted => exact ⟨passed, hstops⟩

theorem map_after : (map host c (.fn f :: rest) s).after given =
    ((issue host (mapCalls host f (s.heap.contents c).toList) s).after given).bind
      (answerMapped host (s.heap.contents c).size) := by
  rw [map_eq_of_fn]
  exact Turn.after_bind (fun _ _ _ => Turn.after_done ..) _ given

theorem map_account : MapAccount host c f s given ((map host c (.fn f :: rest) s).after given) := by
  let calls := (mapCalls host f (s.heap.contents c).toList).map Member.running
  have hlen : calls.length = (s.heap.contents c).size := by
    change ((mapCalls host f (s.heap.contents c).toList).map Member.running).length = _
    rw [List.length_map, mapCalls, List.length_mapIdx, Array.length_toList]
  have hfresh : Fresh calls 0 := by
    intro m hm
    obtain ⟨t, -, rfl⟩ := List.mem_map.1 hm
    exact ⟨t, rfl⟩
  obtain ⟨moments, members, begun, s', hcourse, haccounts, -⟩ :=
    (issue_conducts host (mapCalls host f (s.heap.contents c).toList) s).history hfresh given
  refine ⟨moments, members, begun, s', hcourse.played, ?_, hcourse.found, ?_⟩
  · have horder := hcourse.inOrder
    rwa [List.filter_eq_self.2 fun i _ => by simp, Nat.sub_zero, ← List.range_eq_range'] at horder
  · rw [map_after]
    generalize (issue host (mapCalls host f (s.heap.contents c).toList) s).after given = u at haccounts ⊢
    cases u with
    | done s'' results =>
      obtain ⟨rfl, hall⟩ := haccounts
      have hbegun : begun = (s.heap.contents c).size := (hcourse.begun_eq hall (Nat.zero_le _)).trans hlen
      exact ⟨hbegun, by rw [hbegun]⟩
    | failed s'' e => exact haccounts.1
    | paused s'' rest => exact haccounts
    | exhausted => exact haccounts

end

end ScriptValues.Callback
