/-
The order of `map`. In both modes the calls of a `map` are the members of a gathering, so what is said of
conductors holds of it: the calls begin in the order of the array, and their results are gathered in that
order, whatever the calls do and whatever else runs while they are paused.
-/
import ScriptValues.Method.Call
import ScriptValues.Proofs.Task.History

open ScriptValues.Task

namespace ScriptValues.Callback

/-- The calls of `map` under the configuration. -/
def issue (host : Host) (calls : List (Act Value)) : Act (List Value) :=
  match host.config.map with
  | .concurrent => Task.gather calls
  | .sequential => Task.sequence calls

/-- What `map` does after its calls: it reports, and makes the array of the results. -/
def answerMapped (host : Host) (count : Nat) (results : List Value) : Act Value := fun s =>
  .done { s with
    heap := s.heap.alloc results.toArray
    events := s.events.push (.mapped count host.config.map) } (.arr s.heap.next)

theorem map_eq (host : Host) (c : Cell) (args : List Value) :
    map host c args = (do
      let f ← Task.ofExcept (Argument.read .fn args 0)
      let items ← Act.contents c
      let results ← issue host (mapCalls host f items.toList)
      answerMapped host items.size results) := by
  obtain ⟨invoke, ⟨mode, iteration⟩, limit⟩ := host
  cases mode <;> rfl

theorem map_eq_of_fn (host : Host) (c : Cell) (f : Fn) (rest : List Value) (s : Machine) :
    map host c (.fn f :: rest) s =
      (issue host (mapCalls host f (s.heap.contents c).toList) s).bind
        (answerMapped host (s.heap.contents c).size) := by
  rw [map_eq]
  rfl

theorem mapCalls_eq (host : Host) (f : Fn) (items : List Value) :
    (mapCalls host f items).map Task.Member.running =
      items.mapIdx fun i v => .running (callBack host .map f [v, .ofNat i]) := by
  rw [mapCalls, List.mapIdx_eq_zipIdx_map, List.map_map, List.mapIdx_eq_zipIdx_map]
  rfl

theorem issue_conducts (host : Host) (calls : List (Act Value)) (s : Machine) :
    Conducts Fails id (calls.map .running) 0 s (issue host calls s) := by
  unfold issue
  cases host.config.map
  · exact gather_conducts calls s
  · exact (sequence_conducts calls s).mono fun _ _ => FailsFirst.fails

/-- **`map` gathers in the order of the array.** Let it run from a machine `s`, and go on after its pauses
from any machines `given`. Then its course is a list of turns of its calls, call `i` being that of the
function with element `i` as `s` holds it and the number `i`: nothing else changes the machine. The calls
begin in the order of their numbers, none left out and each once. If it succeeds, each has begun and has
returned, and the answer is a new array of just what they returned, in order; if it fails, one of them has
failed so. -/
theorem map_gathers_in_order (host : Host) (c : Cell) (f : Fn) (rest : List Value) (s : Machine)
    (given : List Machine) :
    let items := (s.heap.contents c).toList
    let calls := items.mapIdx fun i v => Member.running (callBack host .map f [v, .ofNat i])
    ∃ moments members begun s', play moments calls s = some (members, s') ∧
      (turns moments).eraseDups = List.range begun ∧ begun ≤ items.length ∧
      resumptions moments <+: given ∧
      match ((Bound.callback c .map).call host (.fn f :: rest) s).after given with
      | .done s'' v =>
        begun = items.length ∧ ∃ results : List Value, results.length = items.length ∧
          members = results.map Member.returned ∧ v = .arr s'.heap.next ∧
          s'' = { s' with
            heap := s'.heap.alloc results.toArray
            events := s'.events.push (.mapped items.length host.config.map) }
      | .failed s'' e => s'' = s' ∧ Member.raised e ∈ members
      | .paused s'' _ => s'' = s' ∧ resumptions moments = given
      | .exhausted => ∃ t, Member.running t ∈ members ∧ t s' = .exhausted := by
  intro items calls
  have hcalls : (mapCalls host f items).map Member.running = calls := mapCalls_eq host f items
  have hlen : calls.length = items.length := List.length_mapIdx
  have hconducts := issue_conducts host (mapCalls host f items) s
  rw [hcalls] at hconducts
  have hfresh : Fresh calls 0 := by
    intro m hm
    rw [List.drop_zero, ← hcalls] at hm
    obtain ⟨t, -, rfl⟩ := List.mem_map.1 hm
    exact ⟨t, rfl⟩
  obtain ⟨moments, members, begun, s', hcourse, haccounts, hfound⟩ := hconducts.history hfresh given
  refine ⟨moments, members, begun, s', hcourse.played, ?_, hlen ▸ hcourse.within (Nat.zero_le _),
    hcourse.found, ?_⟩
  · have horder := hcourse.inOrder
    rwa [List.filter_eq_self.2 fun i _ => by simp, Nat.sub_zero, ← List.range_eq_range'] at horder
  · have hafter : ((Bound.callback c .map).call host (.fn f :: rest) s).after given =
        ((issue host (mapCalls host f items) s).after given).bind (answerMapped host items.length) := by
      have hbind := Turn.after_bind (f := answerMapped host items.length)
        (fun _ _ _ => Turn.after_done ..) (issue host (mapCalls host f items) s) given
      rw [← hbind]
      exact congrArg (Turn.after · given) (map_eq_of_fn host c f rest s)
    rw [hafter]
    generalize (issue host (mapCalls host f items) s).after given = u at haccounts hfound
    cases u with
    | done s'' results =>
      obtain ⟨rfl, hall⟩ := haccounts
      have hbegun := hcourse.begun_eq hall (Nat.zero_le _)
      have hresults : results.length = items.length := by
        rw [← hlen, ← hcourse.length, hall, List.length_map, id]
      exact ⟨hbegun.trans hlen, results, hresults, hall, rfl, rfl⟩
    | failed s'' e => exact haccounts
    | paused s'' rest => exact ⟨haccounts, hfound s'' rest rfl⟩
    | exhausted => exact haccounts

end ScriptValues.Callback
