/-
The failure that `map` reports. For calls whose pauses and results are fixed, the mode and the number of
elements say which of several failures ends the `map` (`Decides`): the first in the array when failures
are held back, that is when the calls run one after the other or when they are many; otherwise the one that
comes after the fewest pauses, and among equals the first in the array.
-/
import ScriptValues.Proofs.Method.MapOrder
import ScriptValues.Proofs.Task.Timing

open ScriptValues.Task

namespace ScriptValues.Callback

/-- The call for element `i` pauses so often and fails so, and of all failures this one ends the `map`. -/
def Decides (mode : MapMode) (timings : List (Nat × Except Fault Value)) (i k : Nat) (e : Fault) : Prop :=
  timings[i]? = some (k, .error e) ∧ ∀ j l e', timings[j]? = some (l, .error e') →
    if mode = .concurrent ∧ timings.length ≤ Task.few then k < l ∨ (k = l ∧ i ≤ j) else i ≤ j

theorem Decides.of_least {timings : List (Nat × Except Fault Value)} {k : Nat} {e : Fault}
    (h : LeastFailure timings k e) (hfew : timings.length ≤ Task.few) :
    ∃ i, Decides .concurrent timings i k e := by
  obtain ⟨front, others, rfl, hfront, hothers⟩ := h
  refine ⟨front.length, ?_, fun j l e' hj => ?_⟩
  · rw [List.getElem?_append_right (Nat.le_refl _), Nat.sub_self, List.getElem?_cons_zero]
  · rw [if_pos ⟨rfl, hfew⟩]
    rcases Nat.lt_or_ge j front.length with hlt | hge
    · rw [List.getElem?_append_left hlt] at hj
      exact .inl (hfront l e' (List.mem_of_getElem? hj))
    · rw [List.getElem?_append_right hge] at hj
      have hle : k ≤ l := by
        rcases List.mem_cons.1 (List.mem_of_getElem? hj) with heq | hmem
        · cases heq
          exact Nat.le_refl _
        · exact hothers l e' hmem
      rcases Nat.lt_or_eq_of_le hle with hlt | heq
      · exact .inl hlt
      · exact .inr ⟨heq, hge⟩

theorem Decides.of_first {mode : MapMode} {timings : List (Nat × Except Fault Value)}
    {results : List Value} {others : List (Except Fault Value)} {e : Fault}
    (h : timings.map Prod.snd = results.map .ok ++ .error e :: others)
    (hmode : ¬ (mode = .concurrent ∧ timings.length ≤ Task.few)) : ∃ i k, Decides mode timings i k e := by
  have hresult : ∀ j : Nat, timings[j]?.map Prod.snd = (results.map .ok ++ .error e :: others)[j]? := by
    intro j
    rw [← h, List.getElem?_map]
  have hat := hresult results.length
  rw [List.getElem?_append_right (Nat.le_of_eq (List.length_map _)), List.length_map, Nat.sub_self,
    List.getElem?_cons_zero] at hat
  obtain ⟨⟨k, r⟩, hk, rfl⟩ := Option.map_eq_some_iff.1 hat
  refine ⟨results.length, k, hk, fun j l e' hj => ?_⟩
  rw [if_neg hmode]
  refine Nat.le_of_not_lt fun hlt => ?_
  have hbefore := hresult j
  rw [hj, List.getElem?_append_left (by rwa [List.length_map]), List.getElem?_map,
    List.getElem?_eq_getElem hlt] at hbefore
  cases hbefore

theorem not_failing {timings : List (Nat × Except Fault Value)} {vs : List Value}
    (h : timings.map Prod.snd = vs.map .ok) {k : Nat} {e : Fault} : (k, .error e) ∉ timings := by
  intro hmem
  have hsnd : Except.error e ∈ timings.map Prod.snd := List.mem_map.2 ⟨_, hmem, rfl⟩
  rw [h] at hsnd
  obtain ⟨v, -, hv⟩ := List.mem_map.1 hsnd
  cases hv

/-- What calls of such pauses and results may come to: their results, or the failure that decides. -/
def ComesTo (mode : MapMode) (timings : List (Nat × Except Fault Value)) :
    Outcome Machine Fault (List Value) → Prop
  | .done _ vs => timings.map Prod.snd = vs.map .ok
  | .failed _ e => ∃ i k, Decides mode timings i k e
  | .exhausted => False

theorem issue_comesTo (host : Host) {calls : List (Act Value)} {timings : List (Nat × Except Fault Value)}
    (h : List.Forall₂ (fun t p => Takes t p.1 p.2) calls timings) (s : Machine) :
    ComesTo host.config.map timings (issue host calls s).finish := by
  have hlen : calls.length = timings.length := h.length_eq
  have hsettles : List.Forall₂ Member.Settles (calls.map .running) (timings.map Prod.snd) := by
    rw [List.forall₂_map_left_iff, List.forall₂_map_right_iff]
    exact h.imp fun t p ht => ⟨p.1, ht⟩
  -- Held back: the first failure in the array.
  have hfirst : ¬ (host.config.map = .concurrent ∧ timings.length ≤ Task.few) →
      Conducts FailsFirst id (calls.map .running) 0 s (issue host calls s) →
      ComesTo host.config.map timings (issue host calls s).finish := by
    intro hmode hconducts
    have hend := hconducts.finish_of_settles hsettles
    generalize (issue host calls s).finish = o at hend ⊢
    cases o with
    | done s' vs => exact hend
    | failed s' e =>
      obtain ⟨results, others, heq⟩ := hend
      exact Decides.of_first heq hmode
    | exhausted => exact hend
  unfold issue at hfirst ⊢
  cases hmode : host.config.map with
  | sequential =>
    simp only [hmode] at hfirst
    exact hfirst (fun h => nomatch h.1) (sequence_conducts calls s)
  | concurrent =>
    simp only [hmode] at hfirst
    by_cases hfew : calls.length ≤ Task.few
    · dsimp only
      rw [gather, if_pos hfew]
      have htakes := gatherFew_takes h s
      have hrace := raceAll_leastFailure timings
      generalize raceAll timings = q at htakes hrace
      obtain ⟨k, e | vs⟩ := q
      · obtain ⟨s', hs'⟩ := htakes.finish_error
        rw [hs']
        obtain ⟨i, hi⟩ := Decides.of_least hrace (hlen ▸ hfew)
        exact ⟨i, k, hi⟩
      · obtain ⟨s', hs'⟩ := htakes.finish_ok
        rw [hs']
        exact hrace
    · have hmany : gather calls = gatherMany calls := if_neg hfew
      rw [hmany] at hfirst ⊢
      exact hfirst (fun h => hfew (hlen ▸ h.2)) (gatherMany_conducts calls s)

theorem callBack_takes {host : Host} {m : CallbackMethod} {f : Fn} {args : List Value} {k : Nat}
    {r : Except Fault Value} (h : Takes (host.invoke f args) k r) :
    Takes (callBack host m f args) k r :=
  fun s => h { s with events := s.events.push (.callback m f.name) }

/-- **The failure that `map` reports.** Let the call for element `i` pause as often and end as `timings`
says. If all calls succeed, `map` answers with the array of what they return; otherwise it fails with the
failure that decides. -/
theorem map_reports_deciding_failure (host : Host) (c : Cell) (f : Fn) (rest : List Value) (s : Machine)
    (timings : List (Nat × Except Fault Value)) (hlen : timings.length = (s.heap.contents c).size)
    (hcalls : ∀ i v k r, (s.heap.contents c)[i]? = some v → timings[i]? = some (k, r) →
      Takes (host.invoke f [v, .ofNat i]) k r) :
    (∀ vs : List Value, timings.map Prod.snd = vs.map .ok →
      ∃ s' d, ((Bound.callback c .map).call host (.fn f :: rest)).run s = .done s' (.arr d) ∧
        s'.heap.contents d = vs.toArray) ∧
    ((∃ k e, (k, .error e) ∈ timings) →
      ∃ i k e s', Decides host.config.map timings i k e ∧
        ((Bound.callback c .map).call host (.fn f :: rest)).run s = .failed s' e) := by
  have htakes : List.Forall₂ (fun t p => Takes t p.1 p.2)
      (mapCalls host f (s.heap.contents c).toList) timings := by
    refine List.forall₂_of_length_eq_of_get ?_ fun i hi hi' => ?_
    · rw [mapCalls, List.length_mapIdx, Array.length_toList, hlen]
    · have hsize : i < (s.heap.contents c).size := hlen ▸ hi'
      rw [List.get_eq_getElem, List.get_eq_getElem]
      simp only [mapCalls, List.getElem_mapIdx, Array.getElem_toList]
      exact callBack_takes (hcalls i _ _ _ (Array.getElem?_eq_getElem hsize) (List.getElem?_eq_getElem hi'))
  have hend := issue_comesTo host htakes s
  have hrun : ((Bound.callback c .map).call host (.fn f :: rest)).run s =
      ((issue host (mapCalls host f (s.heap.contents c).toList) s).bind
        (answerMapped host (s.heap.contents c).size)).finish :=
    congrArg Turn.finish (map_eq_of_fn host c f rest s)
  rw [hrun, Turn.finish_bind]
  generalize (issue host (mapCalls host f (s.heap.contents c).toList) s).finish = o at hend
  cases o with
  | done s' vs =>
    refine ⟨fun vs' hvs' => ?_, fun hfailing => ?_⟩
    · have hsame : vs' = vs := by
        rw [hend] at hvs'
        exact (List.map_injective_iff.2 (fun _ _ h => Except.ok.inj h) hvs').symm
      subst hsame
      exact ⟨_, _, rfl, Heap.contents_alloc_self _ _⟩
    · obtain ⟨k, e, hmem⟩ := hfailing
      exact absurd hmem (not_failing hend)
  | failed s' e =>
    obtain ⟨i, k, hdecides⟩ := hend
    refine ⟨fun vs hvs => absurd (List.mem_of_getElem? hdecides.1) (not_failing hvs), fun _ => ?_⟩
    exact ⟨i, k, e, s', hdecides, rfl⟩
  | exhausted => exact hend.elim

/-- A host whose functions fail late when told true, and earlier otherwise. -/
def failingHost (mode : MapMode) : Host where
  invoke _ args :=
    match args with
    | [.bool true, _] => do
      Task.pause 4
      Task.ofExcept (.error (.runtime "late"))
    | _ => do
      Task.pause 3
      Task.ofExcept (.error (.runtime "early"))
  config := { map := mode }
  limit := 0

/-- Of two calls that fail, the second after fewer pauses, the second decides side by side and the first
one after the other. -/
theorem map_reports_earlier_failure :
    let s : Machine := { Machine.start with heap := ⟨#[#[.bool true, .bool false]]⟩ }
    let timings : List (Nat × Except Fault Value) :=
      [(4, .error (.runtime "late")), (3, .error (.runtime "early"))]
    let args : List Value := [.fn (.script 1)]
    (timings.length = (s.heap.contents ⟨0⟩).size) ∧
      (∃ s', ((Bound.callback ⟨0⟩ .map).call (failingHost .concurrent) args).run s =
        .failed s' (.runtime "early")) ∧
      ∃ s', ((Bound.callback ⟨0⟩ .map).call (failingHost .sequential) args).run s =
        .failed s' (.runtime "late") := by
  intro s timings args
  have hcalls : ∀ mode i v k r, (s.heap.contents ⟨0⟩)[i]? = some v → timings[i]? = some (k, r) →
      Takes ((failingHost mode).invoke (.script 1) [v, .ofNat i]) k r := by
    intro mode i v k r hv hr
    match i with
    | 0 => cases hv; cases hr; exact takes_pause 4 (.error _)
    | 1 => cases hv; cases hr; exact takes_pause 3 (.error _)
    | i + 2 => cases hr
  have hreports := fun mode =>
    (map_reports_deciding_failure (failingHost mode) ⟨0⟩ (.script 1) [] s timings rfl (hcalls mode)).2
      ⟨4, _, List.mem_cons_self⟩
  refine ⟨rfl, ?_, ?_⟩
  · obtain ⟨i, k, e, s', ⟨hi, hleast⟩, hrun⟩ := hreports .concurrent
    match i with
    | 0 =>
      cases hi
      exact absurd (hleast 1 3 _ rfl) (by decide)
    | 1 => cases hi; exact ⟨s', hrun⟩
    | i + 2 => cases hi
  · obtain ⟨i, k, e, s', ⟨hi, hleast⟩, hrun⟩ := hreports .sequential
    match i with
    | 0 => cases hi; exact ⟨s', hrun⟩
    | 1 =>
      cases hi
      exact absurd (hleast 0 4 _ rfl) (by decide)
    | i + 2 => cases hi

end ScriptValues.Callback
