/-
Methods keep a congruence: with related ways to call functions, a bound method does alike (`call_rel`). Of
`map`, whose calls may be issued in two ways, this is so as far as issuing them goes (`map_rel`). Up to their
reports, methods keep a relation that is only a `PlainCongruence`, if they call back alike (`CallsBack`).
-/
import ScriptValues.Proofs.Congruence
import ScriptValues.Proofs.Method.MapOrder
import ScriptValues.Proofs.Sort.Inquiry

namespace ScriptValues

variable {rel : ∀ {α : Type}, Act α → Act α → Prop} {α : Type} {host host' : Host}

/-- The hosts call functions alike and agree on all but how `map` issues its calls. -/
structure Host.Related (rel : ∀ {α : Type}, Act α → Act α → Prop) (host host' : Host) : Prop where
  invoke : ∀ f args, rel (host.invoke f args) (host'.invoke f args)
  iteration : host.config.iteration = host'.config.iteration
  limit : host.limit = host'.limit

/-- The hosts call functions back alike for a method, and agree on all but how `map` issues its calls. -/
structure Host.CallsBack (rel : ∀ {α : Type}, Act α → Act α → Prop) (m : CallbackMethod)
    (host host' : Host) : Prop where
  callBack : ∀ f args, rel (Callback.callBack host m f args) (Callback.callBack host' m f args)
  iteration : host.config.iteration = host'.config.iteration
  limit : host.limit = host'.limit

theorem Callback.callBack_rel (hrel : Congruence @rel)
    (h : ∀ f args, rel (host.invoke f args) (host'.invoke f args)) (m : CallbackMethod) (f : Fn)
    (args : List Value) : rel (callBack host m f args) (callBack host' m f args) :=
  hrel.bind (hrel.emit _) fun _ => h f args

theorem Host.Related.callsBack (hrel : Congruence @rel) (h : Host.Related @rel host host') (m : CallbackMethod) :
    Host.CallsBack @rel m host host' :=
  ⟨Callback.callBack_rel hrel h.invoke m, h.iteration, h.limit⟩

/-- A method that goes on alike with elements that are read alike, whichever elements those are. -/
theorem Elements.ofCell_rel (hrel : PlainCongruence @rel)
    (hiteration : host.config.iteration = host'.config.iteration) (hlimit : host.limit = host'.limit) (c : Cell)
    {k k' : Elements → Act α}
    (hk : ∀ elements : Elements, (∀ i, rel (elements.get i) (elements.get i)) →
      rel (k elements) (k' elements)) :
    rel (Elements.ofCell host c >>= k) (Elements.ofCell host' c >>= k') := by
  rw [Elements.ofCell, Elements.ofCell, ← hiteration, ← hlimit]
  cases host.config.iteration with
  | live => exact hk (live c host.limit) fun i => hrel.bind (hrel.contents c) fun items => hrel.pure _
  | snapshot =>
    simp only [bind_assoc, pure_bind]
    exact hrel.bind (hrel.contents c) fun items => hk (snapshot items) fun i => hrel.pure _

namespace Callback

/-! ## One element at a time -/

section Elements

variable {elements : Elements}

theorem filterFrom_rel (hrel : PlainCongruence @rel)
    (h : ∀ f args, rel (callBack host .filter f args) (callBack host' .filter f args)) (f : Fn)
    (hget : ∀ i, rel (elements.get i) (elements.get i)) (bound i : Nat) :
    rel (filterFrom host f elements bound i) (filterFrom host' f elements bound i) := by
  induction bound generalizing i with
  | zero => exact hrel.exhausted
  | succ bound ih =>
    refine hrel.bind (hget i) fun found => ?_
    cases found with
    | none => exact hrel.pure _
    | some v =>
      refine hrel.bind (h ..) fun answer => ?_
      refine hrel.bind (hrel.ofExcept _) fun keep => ?_
      exact hrel.bind (ih (i + 1)) fun rest => hrel.pure _

theorem reduceFrom_rel (hrel : PlainCongruence @rel)
    (h : ∀ f args, rel (callBack host .reduce f args) (callBack host' .reduce f args)) (f : Fn)
    (hget : ∀ i, rel (elements.get i) (elements.get i)) (bound i : Nat) (acc : Value) :
    rel (reduceFrom host f elements bound i acc) (reduceFrom host' f elements bound i acc) := by
  induction bound generalizing i acc with
  | zero => exact hrel.exhausted
  | succ bound ih =>
    refine hrel.bind (hget i) fun found => ?_
    cases found with
    | none => exact hrel.pure _
    | some v => exact hrel.bind (h ..) fun acc => ih (i + 1) acc

theorem findFrom_rel (hrel : PlainCongruence @rel)
    (h : ∀ f args, rel (callBack host .find f args) (callBack host' .find f args)) (f : Fn)
    (hget : ∀ i, rel (elements.get i) (elements.get i)) (bound i : Nat) :
    rel (findFrom host f elements bound i) (findFrom host' f elements bound i) := by
  induction bound generalizing i with
  | zero => exact hrel.exhausted
  | succ bound ih =>
    refine hrel.bind (hget i) fun found => ?_
    cases found with
    | none => exact hrel.pure _
    | some v =>
      refine hrel.bind (h ..) fun answer => ?_
      refine hrel.bind (hrel.ofExcept _) fun found => ?_
      cases found with
      | true => exact hrel.pure v
      | false => exact ih (i + 1)

end Elements

/-- What `filter` does before it makes its array: it finds the elements to keep. -/
def filtering (host : Host) (c : Cell) (args : List Value) : Act (List Value) := do
  let f ← Task.ofExcept (Argument.read .fn args 0)
  let elements ← Elements.ofCell host c
  filterFrom host f elements elements.bound 0

theorem filter_eq_filtering (host : Host) (c : Cell) (args : List Value) :
    filter host c args = filtering host c args >>= fun kept => Act.alloc kept.toArray := by
  simp only [filter, filtering, bind_assoc]

theorem filtering_rel (hrel : PlainCongruence @rel) (h : Host.CallsBack @rel .filter host host') (c : Cell)
    (args : List Value) : rel (filtering host c args) (filtering host' c args) := by
  refine hrel.bind (hrel.ofExcept _) fun f => ?_
  exact Elements.ofCell_rel hrel h.iteration h.limit c fun elements hget => filterFrom_rel hrel h.callBack f hget ..

theorem filter_rel (hrel : PlainCongruence @rel) (h : Host.CallsBack @rel .filter host host') (c : Cell)
    (args : List Value) : rel (filter host c args) (filter host' c args) := by
  rw [filter_eq_filtering, filter_eq_filtering]
  exact hrel.bind (filtering_rel hrel h c args) fun kept => hrel.alloc _

theorem reduce_rel (hrel : PlainCongruence @rel) (h : Host.CallsBack @rel .reduce host host') (c : Cell)
    (args : List Value) : rel (reduce host c args) (reduce host' c args) := by
  refine hrel.bind (hrel.ofExcept _) fun f => ?_
  refine Elements.ofCell_rel hrel h.iteration h.limit c fun elements hget => ?_
  cases args[1]? with
  | some acc => exact reduceFrom_rel hrel h.callBack f hget ..
  | none =>
    refine hrel.bind (hget 0) fun first => ?_
    cases first with
    | some acc => exact reduceFrom_rel hrel h.callBack f hget ..
    | none => exact hrel.throw _

theorem find_rel (hrel : PlainCongruence @rel) (h : Host.CallsBack @rel .find host host') (c : Cell)
    (args : List Value) : rel (find host c args) (find host' c args) := by
  refine hrel.bind (hrel.ofExcept _) fun f => ?_
  exact Elements.ofCell_rel hrel h.iteration h.limit c fun elements hget => findFrom_rel hrel h.callBack f hget ..

/-! ## Mapping -/

theorem mapCalls_rel {related : Act Value → Act Value → Prop}
    (h : ∀ f args, related (callBack host .map f args) (callBack host' .map f args)) (f : Fn)
    (items : List Value) : List.Forall₂ related (mapCalls host f items) (mapCalls host' f items) := by
  rw [mapCalls, mapCalls, List.mapIdx_eq_zipIdx_map, List.mapIdx_eq_zipIdx_map,
    List.forall₂_map_left_iff, List.forall₂_map_right_iff]
  exact List.forall₂_same.2 fun p _ => h ..

/-- Calls in step are issued in step in the same mode. -/
theorem issue_follows {cut : Prop} {same : Machine → Machine → Prop}
    (hmode : host.config.map = host'.config.map) {calls calls' : List (Act Value)}
    (h : List.Forall₂ (Task.Follows cut same) calls calls') :
    (issue host calls).Follows cut same (issue host' calls') := by
  unfold issue
  rw [← hmode]
  cases host.config.map with
  | concurrent => exact Task.gather_follows h
  | sequential => exact Task.sequence_follows_sequence h

/-- What `map` does before it makes its array: it counts the elements and issues its calls. -/
def mapping (host : Host) (c : Cell) (args : List Value) : Act (Nat × List Value) := do
  let f ← Task.ofExcept (Argument.read .fn args 0)
  let items ← Act.contents c
  let results ← issue host (mapCalls host f items.toList)
  pure (items.size, results)

theorem map_eq_mapping (host : Host) (c : Cell) (args : List Value) :
    map host c args = mapping host c args >>= fun p => answerMapped host p.1 p.2 := by
  simp only [map_eq, mapping, bind_assoc, pure_bind]

theorem mapping_rel (hrel : PlainCongruence @rel)
    (hissue : ∀ f items, rel (issue host (mapCalls host f items)) (issue host' (mapCalls host' f items)))
    (c : Cell) (args : List Value) : rel (mapping host c args) (mapping host' c args) := by
  refine hrel.bind (hrel.ofExcept _) fun f => ?_
  refine hrel.bind (hrel.contents c) fun items => ?_
  exact hrel.bind (hissue f _) fun results => hrel.pure _

/-- `map` keeps a congruence as far as issuing its calls and answering with their results do. -/
theorem map_rel (hrel : PlainCongruence @rel)
    (hissue : ∀ f items, rel (issue host (mapCalls host f items)) (issue host' (mapCalls host' f items)))
    (hanswer : ∀ count results,
      rel (answerMapped host count results) (answerMapped host' count results))
    (c : Cell) (args : List Value) : rel (map host c args) (map host' c args) := by
  rw [map_eq_mapping, map_eq_mapping]
  exact hrel.bind (mapping_rel hrel hissue c args) fun p => hanswer p.1 p.2

theorem answerMapped_eq (host : Host) (count : Nat) (results : List Value) :
    answerMapped host count results = (do
      Act.emit (.mapped count host.config.map)
      Act.alloc results.toArray) := rfl

theorem answerMapped_rel (hrel : Congruence @rel) (hmode : host.config.map = host'.config.map) (count : Nat)
    (results : List Value) : rel (answerMapped host count results) (answerMapped host' count results) := by
  rw [answerMapped_eq, answerMapped_eq, hmode]
  exact hrel.bind (hrel.emit _) fun _ => hrel.alloc _

/-- A `map` that waits for each call keeps a congruence. -/
theorem map_rel_of_sequential (hrel : Congruence @rel)
    (h : ∀ f args, rel (host.invoke f args) (host'.invoke f args))
    (hmode : host.config.map = .sequential) (hmode' : host'.config.map = .sequential) (c : Cell)
    (args : List Value) : rel (map host c args) (map host' c args) := by
  refine map_rel hrel.toPlainCongruence (fun f items => ?_)
    (answerMapped_rel hrel (hmode.trans hmode'.symm)) c args
  rw [issue, issue, hmode, hmode']
  exact hrel.sequence (mapCalls_rel (callBack_rel hrel h .map) f items)

/-! ## Sorting -/

theorem precedes_run (host : Host) (f : Fn) (a b : Value) (n : Nat) :
    (precedes host f a b).run n = (do
      let answer ← callBack host .sort f [a, b]
      let order ← (Task.ofExcept (Argument.result .num .sort answer) : Act Num)
      pure (!(Num.lt (.zero false) order), n + 1)) := by
  simp only [precedes, StateT.run_bind, StateT.run_modify, StateT.run_monadLift, StateT.run_pure,
    bind_assoc, pure_bind]
  rfl

theorem precedes_rel (hrel : PlainCongruence @rel)
    (h : ∀ f args, rel (callBack host .sort f args) (callBack host' .sort f args)) (f : Fn) (a b : Value)
    (n : Nat) : rel ((precedes host f a b).run n) ((precedes host' f a b).run n) := by
  rw [precedes_run, precedes_run]
  refine hrel.bind (h ..) fun answer => ?_
  exact hrel.bind (hrel.ofExcept _) fun order => hrel.pure _

theorem perform_rel (hrel : PlainCongruence @rel)
    (h : ∀ f args, rel (callBack host .sort f args) (callBack host' .sort f args)) (f : Fn)
    (t : Sort.Inquiry Value α) (n : Nat) :
    rel ((t.perform (precedes host f)).run n) ((t.perform (precedes host' f)).run n) := by
  induction t generalizing n with
  | result b => exact hrel.pure (b, n)
  | ask a b next ih => exact hrel.bind (precedes_rel hrel h f a b n) fun p => ih p.1 p.2

/-- What `sort` does before it writes its array: it counts the elements, and puts them in order with a number
of comparisons. -/
def sorting (host : Host) (c : Cell) (args : List Value) : Act (Nat × List Value × Nat) := do
  let f ← Task.ofExcept (Argument.read .fn args 0)
  let items ← Act.contents c
  let result ← (Sort.mergeSort (precedes host f) items.toList).run 0
  pure (items.size, result)

theorem sort_eq_sorting (host : Host) (c : Cell) (args : List Value) :
    sort host c args = (do
      let p ← sorting host c args
      Act.write c p.2.1.toArray
      Act.emit (.sorted p.1 p.2.2)
      pure (.arr c)) := by
  simp only [sort, sorting, bind_assoc, pure_bind]

theorem sorting_rel (hrel : PlainCongruence @rel)
    (h : ∀ f args, rel (callBack host .sort f args) (callBack host' .sort f args)) (c : Cell)
    (args : List Value) : rel (sorting host c args) (sorting host' c args) := by
  refine hrel.bind (hrel.ofExcept _) fun f => ?_
  refine hrel.bind (hrel.contents c) fun items => ?_
  rw [Sort.mergeSort_eq_perform (precedes host f), Sort.mergeSort_eq_perform (precedes host' f)]
  exact hrel.bind (perform_rel hrel h f _ 0) fun p => hrel.pure _

theorem sort_rel (hrel : WritingCongruence @rel)
    (h : ∀ f args, rel (host.invoke f args) (host'.invoke f args)) (c : Cell)
    (args : List Value) : rel (sort host c args) (sort host' c args) := by
  rw [sort_eq_sorting, sort_eq_sorting]
  refine hrel.bind (sorting_rel hrel.toPlainCongruence (callBack_rel hrel.toCongruence h .sort) c args) fun p => ?_
  refine hrel.bind (hrel.write c _) fun _ => ?_
  exact hrel.bind (hrel.emit _) fun _ => hrel.pure _

end Callback

/-- A bound method keeps a congruence if it does when it calls back. -/
theorem Bound.call_rel_of_callback (hrel : PlainCongruence @rel)
    (hwrite : ∀ c items, rel (Act.write c items) (Act.write c items)) {b : Bound} {args : List Value}
    (h : ∀ c m, b = .callback c m → rel (Callback.run host c m args) (Callback.run host' c m args)) :
    rel (b.call host args) (b.call host' args) := by
  cases b with
  | num n m => exact hrel.bind (hrel.ofExcept _) fun answer => hrel.commit answer
  | str s m => exact hrel.bind (hrel.ofExcept _) fun answer => hrel.commit answer
  | arr c m =>
    have hreply : ∀ r : Except Fault Reply,
        rel (Task.ofExcept r >>= Reply.commit c) (Task.ofExcept r >>= Reply.commit c) :=
      fun r => hrel.bind (hrel.ofExcept r) fun reply => hrel.commitReply hwrite c reply
    exact hrel.reading (fun k => m.reply k.heap c args) (fun _ _ => rfl) hreply
  | callback c m => exact h c m rfl

/-- **Methods keep a congruence**, if `map` does. -/
theorem Bound.call_rel (hrel : WritingCongruence @rel) (h : Host.Related @rel host host')
    (hmap : ∀ c args, rel (Callback.map host c args) (Callback.map host' c args)) (b : Bound)
    (args : List Value) : rel (b.call host args) (b.call host' args) := by
  have hplain : PlainCongruence @rel := hrel.toPlainCongruence
  refine Bound.call_rel_of_callback hplain hrel.write fun c m _ => ?_
  have hcalls : Host.CallsBack @rel m host host' := h.callsBack hrel.toCongruence m
  cases m with
  | map => exact hmap c args
  | filter => exact Callback.filter_rel hplain hcalls c args
  | reduce => exact Callback.reduce_rel hplain hcalls c args
  | find => exact Callback.find_rel hplain hcalls c args
  | sort => exact Callback.sort_rel hrel h.invoke c args

end ScriptValues
