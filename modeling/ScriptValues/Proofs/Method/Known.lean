/-
Methods hold known values only. What a method answers is taken from its target and its arguments, or made of
texts and numbers, or an array that it makes; the functions that it calls get elements and numbers. So a
method whose target exists is sound, if the functions that it is lent are (`Bound.call_sound`).
-/
import ScriptValues.Proofs.Machine.Sound
import ScriptValues.Proofs.Method.Writes

namespace ScriptValues

variable {i j : Inventory} {args : List Value} {n : Nat}

/-! ## Arguments and answers -/

theorem AllKnown.any (hargs : AllKnown i args) {v : Value} (h : Argument.read .any args n = .ok v) : v.Known i := by
  obtain ⟨w, hw, hselect⟩ := Argument.read_eq_ok h
  cases hselect
  exact hargs _ (List.mem_of_getElem? hw)

theorem AllKnown.fn (hargs : AllKnown i args) {f : Fn} (h : Argument.read .fn args n = .ok f) : f.Known i := by
  obtain ⟨v, hv, hselect⟩ := Argument.read_eq_ok h
  have hknown := hargs _ (List.mem_of_getElem? hv)
  cases v with
  | fn g =>
    cases hselect
    exact hknown
  | _ => cases hselect

/-- All that the answer refers to exists. -/
def Answer.Known (i : Inventory) : Answer → Prop
  | .value v => v.Known i
  | .fresh items => AllKnown i items

theorem Answer.Known.mono {a : Answer} (hij : i.Grows j) (ha : a.Known i) : a.Known j := by
  cases a with
  | value v => exact Value.Known.mono hij ha
  | fresh items => exact AllKnown.mono hij ha

theorem Answer.commit_sound {a : Answer} (ha : a.Known i) : a.commit.Sound i Value.Known := by
  cases a with
  | value v => exact .pure fun j hij => Value.Known.mono hij ha
  | fresh items => exact Act.alloc_sound ha

theorem Answer.texts_known (parts : List (List Char)) : (Answer.texts parts).Known i := by
  intro v hv
  obtain ⟨part, -, rfl⟩ := List.mem_map.1 hv
  trivial

theorem Answer.nats_known (ns : List Nat) : (Answer.nats ns).Known i := by
  intro v hv
  obtain ⟨n, -, rfl⟩ := List.mem_map.1 hv
  trivial

theorem Value.known_elim {α : Type} {f : α → Value} (hf : ∀ a, (f a).Known i) (o : Option α) :
    (o.elim .null f).Known i := by
  cases o with
  | none => trivial
  | some a => exact hf a

/-- What a method of a string answers is made of texts and numbers. -/
theorem StrMethod.answer_known {text : String} {m : StrMethod} {a : Answer}
    (ha : m.answer text args = .ok a) : a.Known i := by
  cases m <;> simp only [StrMethod.answer, bind_eq_ok_iff, pure, Except.pure] at ha
  case toNum =>
    cases ha
    refine Value.known_elim ?_ _
    exact fun _ => trivial
  case toArr | toUnicodeArr | toCharArr => cases ha; exact Answer.texts_known _
  case toUnicodeCodepointArr | toCharcodeArr | toUtf8ByteArr => cases ha; exact Answer.nats_known _
  case trim | upper | lower => cases ha; trivial
  case replace =>
    obtain ⟨old, -, new, -, ha⟩ := ha
    cases ha
    trivial
  case slice =>
    obtain ⟨start, -, stop, -, ha⟩ := ha
    cases ha
    trivial
  case indexOf =>
    obtain ⟨needle, -, start, -, ha⟩ := ha
    cases ha
    trivial
  case incl =>
    obtain ⟨needle, -, ha⟩ := ha
    cases ha
    trivial
  case split =>
    obtain ⟨sep, -, ha⟩ := ha
    split at ha
    · split at ha <;> cases ha <;> exact Answer.texts_known _
    · cases ha
      exact Answer.texts_known _
  case pick | charcodeAt | codepointAt =>
    obtain ⟨n, -, ha⟩ := ha
    cases ha
    refine Value.known_elim ?_ _
    exact fun _ => trivial

theorem AllKnown.subset {vs ws : List Value} (hvs : AllKnown i vs) (hsub : ws ⊆ vs) : AllKnown i ws :=
  fun v hv => hvs v (hsub hv)

/-- A reply that leaves the target as it is. -/
theorem Reply.known_of_keeps {r : Reply} (hkeeps : r.items = none) (hanswer : r.answer.Known i) :
    (∀ items, r.items = some items → AllKnown i items.toList) ∧ r.answer.Known i :=
  ⟨fun items hnew => absurd (hnew.symm.trans hkeeps) (Option.some_ne_none items), hanswer⟩

/-- What a method of an array replies is taken from arrays and arguments. -/
theorem ArrMethod.reply_known {h : Heap} {c : Cell} {m : ArrMethod} {r : Reply} (hc : (Value.arr c).Known i)
    (hcontents : ∀ d, AllKnown i (h.contents d).toList) (hargs : AllKnown i args)
    (hr : m.reply h c args = .ok r) :
    (∀ items, r.items = some items → AllKnown i items.toList) ∧ r.answer.Known i := by
  have hitems := hcontents c
  cases m <;> simp only [ArrMethod.reply, bind_eq_ok_iff, pure, Except.pure] at hr
  case push | unshift =>
    obtain ⟨v, hv, hr⟩ := hr
    cases hr
    refine ⟨fun items hnew w hw => ?_, hc⟩
    cases hnew
    simp only [Array.toList_push, Array.toList_append, List.mem_append, List.mem_singleton] at hw
    rcases hw with hw | hw
    all_goals first | exact hitems w hw | exact hw ▸ hargs.any hv
  case pop =>
    cases hr
    refine ⟨fun items hnew => ?_, ?_⟩
    · cases hnew
      rw [Array.toList_pop]
      exact hitems.subset (List.dropLast_subset _)
    · rw [Array.back?_eq_getElem?, ← Array.getElem?_toList]
      exact hitems.getD _
  case shift =>
    cases hr
    refine ⟨fun items hnew => ?_, ?_⟩
    · cases hnew
      rw [Array.toList_extract]
      exact hitems.subset fun v hv => List.mem_of_mem_drop (List.mem_of_mem_take hv)
    · rw [← Array.getElem?_toList]
      exact hitems.getD _
  case reverse =>
    cases hr
    refine ⟨fun items hnew => ?_, trivial⟩
    cases hnew
    rw [Array.toList_reverse]
    exact hitems.subset (List.reverse_subset.2 (List.Subset.refl _))
  case concat =>
    obtain ⟨other, -, hr⟩ := hr
    cases hr
    refine Reply.known_of_keeps rfl fun v hv => ?_
    rcases List.mem_append.1 hv with hv | hv
    · exact hitems v hv
    · exact hcontents other v hv
  case slice =>
    obtain ⟨start, -, stop, -, hr⟩ := hr
    cases hr
    refine Reply.known_of_keeps rfl (hitems.subset fun v hv => ?_)
    rw [Items.slice_eq] at hv
    exact List.mem_of_mem_take (List.mem_of_mem_drop hv)
  case copy =>
    cases hr
    exact Reply.known_of_keeps rfl hitems
  case join | incl =>
    obtain ⟨v, -, hr⟩ := hr
    cases hr
    exact Reply.known_of_keeps rfl trivial
  case indexOf =>
    obtain ⟨v, -, start, -, hr⟩ := hr
    cases hr
    exact Reply.known_of_keeps rfl trivial

theorem Reply.commit_sound {c : Cell} {r : Reply}
    (hitems : ∀ items, r.items = some items → AllKnown i items.toList) (hanswer : r.answer.Known i) :
    (r.commit c).Sound i Value.Known := by
  obtain ⟨items, answer⟩ := r
  have hcommit : ∀ j, i.Grows j → answer.commit.Sound j Value.Known := fun j hij =>
    Answer.commit_sound (hanswer.mono hij)
  cases items with
  | none => exact hcommit i (.refl i)
  | some items => exact (Act.write_sound c (hitems items rfl)).bind fun _ j hij _ => hcommit j hij

/-! ## Methods that call back -/

/-- The host calls known functions with known values soundly, once all that `i` lists has been made. -/
def Host.Sound (i : Inventory) (host : Host) : Prop :=
  ∀ f args j, i.Grows j → f.Known j → AllKnown j args → (host.invoke f args).Sound j Value.Known

theorem Host.Sound.later {host : Host} (hij : i.Grows j) (hhost : host.Sound i) : host.Sound j :=
  fun f args k hjk => hhost f args k (hij.trans hjk)

/-- Elements are read soundly. -/
def Elements.Sound (i : Inventory) (elements : Elements) : Prop :=
  ∀ n, (elements.get n).Sound i fun j found => ∀ v, found = some v → v.Known j

theorem Elements.Sound.later {elements : Elements} (hij : i.Grows j) (helements : elements.Sound i) :
    elements.Sound j :=
  fun n => (helements n).later hij

theorem AllKnown.getElem? {items : Array Value} (hitems : AllKnown i items.toList) {v : Value}
    (hv : items[n]? = some v) : v.Known i :=
  hitems v (Array.mem_toList_iff.2 (Array.mem_of_getElem? hv))

theorem Elements.ofCell_sound (host : Host) (c : Cell) :
    (Elements.ofCell host c).Sound i fun j elements => elements.Sound j := by
  rw [Elements.ofCell]
  cases host.config.iteration with
  | live =>
    refine .pure fun j _ n => (Act.contents_sound c).bind fun items k _ hitems => .pure fun l hkl v hv => ?_
    exact (hitems.getElem? hv).mono hkl
  | snapshot =>
    refine (Act.contents_sound c).bind fun items j _ hitems => .pure fun k hjk n => .pure fun l hkl v hv => ?_
    exact (hitems.getElem? hv).mono (hjk.trans hkl)

namespace Callback

variable {host : Host} {f : Fn}

theorem callBack_sound (hhost : host.Sound i) (hf : f.Known i) (hargs : AllKnown i args) (m : CallbackMethod) :
    (callBack host m f args).Sound i Value.Known :=
  (Act.emit_sound _).bind fun _ j hij _ => hhost f args j hij (hf.mono hij) (hargs.mono hij)

theorem allKnown_indexed {v : Value} (hv : v.Known i) (n : Nat) : AllKnown i [v, .ofNat n] :=
  List.forall_mem_cons.2 ⟨hv, List.forall_mem_singleton.2 trivial⟩

/-! ### One element at a time -/

section Elements

variable {elements : Elements}

theorem filterFrom_sound (hhost : host.Sound i) (hf : f.Known i) (helements : elements.Sound i)
    (bound n : Nat) : (filterFrom host f elements bound n).Sound i AllKnown := by
  induction bound generalizing i n with
  | zero => exact .exhausted
  | succ bound ih =>
    refine (helements n).bind fun found j hij hfound => ?_
    cases found with
    | none => exact .pure fun _ _ => nofun
    | some v =>
      have hv := hfound v rfl
      have hcall := callBack_sound (hhost.later hij) (hf.mono hij) (allKnown_indexed hv n) .filter
      refine hcall.bind fun answer k hjk _ => ?_
      refine (Task.Sound.result _).bind fun keep l hkl _ => ?_
      have hil := (hij.trans hjk).trans hkl
      have hrest := ih (hhost.later hil) (hf.mono hil) (helements.later hil) (n + 1)
      refine hrest.bind fun kept m hlm hkept => .pure fun o hmo => ?_
      have hjo := ((hjk.trans hkl).trans hlm).trans hmo
      cases keep with
      | false => exact hkept.mono hmo
      | true => exact List.forall_mem_cons.2 ⟨hv.mono hjo, hkept.mono hmo⟩

theorem reduceFrom_sound (hhost : host.Sound i) (hf : f.Known i) (helements : elements.Sound i) (bound n : Nat)
    {acc : Value} (hacc : acc.Known i) : (reduceFrom host f elements bound n acc).Sound i Value.Known := by
  induction bound generalizing i n acc with
  | zero => exact .exhausted
  | succ bound ih =>
    refine (helements n).bind fun found j hij hfound => ?_
    cases found with
    | none => exact .pure fun k hjk => hacc.mono (hij.trans hjk)
    | some v =>
      have hargs : AllKnown j [acc, v, .ofNat n] :=
        List.forall_mem_cons.2 ⟨hacc.mono hij, allKnown_indexed (hfound v rfl) n⟩
      have hcall := callBack_sound (hhost.later hij) (hf.mono hij) hargs .reduce
      refine hcall.bind fun acc' k hjk hacc' => ?_
      have hik := hij.trans hjk
      exact ih (hhost.later hik) (hf.mono hik) (helements.later hik) (n + 1) hacc'

theorem findFrom_sound (hhost : host.Sound i) (hf : f.Known i) (helements : elements.Sound i) (bound n : Nat) :
    (findFrom host f elements bound n).Sound i Value.Known := by
  induction bound generalizing i n with
  | zero => exact .exhausted
  | succ bound ih =>
    refine (helements n).bind fun found j hij hfound => ?_
    cases found with
    | none => exact .pure fun _ _ => trivial
    | some v =>
      have hv := hfound v rfl
      have hcall := callBack_sound (hhost.later hij) (hf.mono hij) (allKnown_indexed hv n) .find
      refine hcall.bind fun answer k hjk _ => ?_
      refine (Task.Sound.result _).bind fun here l hkl _ => ?_
      cases here with
      | true => exact .pure fun m hlm => hv.mono ((hjk.trans hkl).trans hlm)
      | false =>
        have hil := (hij.trans hjk).trans hkl
        exact ih (hhost.later hil) (hf.mono hil) (helements.later hil) (n + 1)

end Elements

section

variable {c : Cell}

theorem filter_sound (hhost : host.Sound i) (hargs : AllKnown i args) (c : Cell) :
    (filter host c args).Sound i Value.Known := by
  refine (Task.Sound.ofExcept fun f hf j hij => (hargs.fn hf).mono hij).bind fun f j hij hf => ?_
  refine (Elements.ofCell_sound host c).bind fun elements k hjk helements => ?_
  have hkept := filterFrom_sound (hhost.later (hij.trans hjk)) (Fn.Known.mono hjk hf) helements elements.bound 0
  exact hkept.bind fun kept l _ hkept => Act.alloc_sound hkept

theorem reduce_sound (hhost : host.Sound i) (hargs : AllKnown i args) (c : Cell) :
    (reduce host c args).Sound i Value.Known := by
  refine (Task.Sound.ofExcept fun f hf j hij => (hargs.fn hf).mono hij).bind fun f j hij hf => ?_
  refine (Elements.ofCell_sound host c).bind fun elements k hjk helements => ?_
  have hik := hij.trans hjk
  have hf' := Fn.Known.mono hjk hf
  cases hfirst : args[1]? with
  | some acc =>
    have hacc := hargs acc (List.mem_of_getElem? hfirst)
    exact reduceFrom_sound (hhost.later hik) hf' helements _ 0 (hacc.mono hik)
  | none =>
    refine (helements 0).bind fun found l hkl hfound => ?_
    cases found with
    | none => exact .throw _
    | some acc =>
      exact reduceFrom_sound (hhost.later (hik.trans hkl)) (hf'.mono hkl) (helements.later hkl) _ 1
        (hfound acc rfl)

theorem find_sound (hhost : host.Sound i) (hargs : AllKnown i args) (c : Cell) :
    (find host c args).Sound i Value.Known := by
  refine (Task.Sound.ofExcept fun f hf j hij => (hargs.fn hf).mono hij).bind fun f j hij hf => ?_
  refine (Elements.ofCell_sound host c).bind fun elements k hjk helements => ?_
  exact findFrom_sound (hhost.later (hij.trans hjk)) (Fn.Known.mono hjk hf) helements elements.bound 0

end

/-! ### Mapping and sorting -/

theorem mapCalls_sound (hhost : host.Sound i) (hf : f.Known i) {items : List Value}
    (hitems : AllKnown i items) : ∀ call ∈ mapCalls host f items, call.Sound i Value.Known := by
  intro call hcall
  rw [mapCalls, List.mapIdx_eq_zipIdx_map] at hcall
  obtain ⟨p, hp, rfl⟩ := List.mem_map.1 hcall
  exact callBack_sound hhost hf (allKnown_indexed (hitems p.1 (List.fst_mem_of_mem_zipIdx hp)) p.2) .map

theorem issue_sound (host : Host) {calls : List (Act Value)}
    (hcalls : ∀ call ∈ calls, call.Sound i Value.Known) : (issue host calls).Sound i AllKnown := by
  intro j s hij hs
  have hmembers : ∀ m ∈ calls.map Task.Member.running, m.Sound j Value.Known := by
    intro m hm
    obtain ⟨call, hcall, rfl⟩ := List.mem_map.1 hm
    exact (hcalls call hcall).later hij
  have hmono : ∀ i j v, i.Grows j → Value.Known i v → Value.Known j v := fun _ _ _ => Value.Known.mono
  exact (issue_conducts host calls s).sound hmono hs hmembers

theorem map_sound (hhost : host.Sound i) (hargs : AllKnown i args) (c : Cell) :
    (map host c args).Sound i Value.Known := by
  rw [map_eq]
  refine (Task.Sound.ofExcept fun f hf j hij => (hargs.fn hf).mono hij).bind fun f j hij hf => ?_
  refine (Act.contents_sound c).bind fun items k hjk hitems => ?_
  have hcalls := mapCalls_sound (hhost.later (hij.trans hjk)) (Fn.Known.mono hjk hf) hitems
  refine (issue_sound host hcalls).bind fun results l _ hresults => ?_
  rw [answerMapped_eq]
  exact (Act.emit_sound _).bind fun _ m hlm _ => Act.alloc_sound (AllKnown.mono hlm hresults)

/-- The questions of a sort are about known values. -/
theorem perform_sound {β : Type} (hhost : host.Sound i) (hf : f.Known i)
    (t : Sort.Inquiry { v : Value // v.Known i } β) (n : Nat) :
    ((t.perform fun a b => precedes host f a.1 b.1).run n).Sound i fun _ _ => True := by
  induction t generalizing n with
  | result b => exact .pure fun _ _ => trivial
  | ask a b next ih =>
    have hargs : AllKnown i [a.1, b.1] := List.forall_mem_cons.2 ⟨a.2, List.forall_mem_singleton.2 b.2⟩
    have hasked : ((precedes host f a.1 b.1).run n).Sound i fun _ _ => True := by
      rw [precedes_run]
      refine (callBack_sound hhost hf hargs .sort).bind fun answer j _ _ => ?_
      exact (Task.Sound.result _).bind fun order k _ _ => .pure fun _ _ => trivial
    exact hasked.bind fun p j hij _ => (ih p.1 p.2).later hij

theorem mergeSort_sound (hhost : host.Sound i) (hf : f.Known i) {items : List Value}
    (hitems : AllKnown i items) :
    ((Sort.mergeSort (precedes host f) items).run 0).Sound i fun j result => AllKnown j result.1 := by
  -- Each value is sorted with the proof that it is known: whatever comes out has one as well.
  have hitems' : items = (items.attachWith (Value.Known i) hitems).map Subtype.val :=
    (List.attachWith_map_subtype_val hitems).symm
  rw [hitems', Sort.mergeSort_map, Sort.mergeSort_eq_perform, StateT.run_map, map_eq_pure_bind]
  refine (perform_sound hhost hf _ 0).bind fun result j hij _ => .pure fun k hjk v hv => ?_
  obtain ⟨w, -, rfl⟩ := List.mem_map.1 hv
  exact w.2.mono (hij.trans hjk)

theorem sort_sound (hhost : host.Sound i) (hargs : AllKnown i args) {c : Cell} (hc : (Value.arr c).Known i) :
    (sort host c args).Sound i Value.Known := by
  rw [sort_eq_sorting]
  have hsorting : (sorting host c args).Sound i fun j p => AllKnown j p.2.1 := by
    refine (Task.Sound.ofExcept fun f hf j hij => (hargs.fn hf).mono hij).bind fun f j hij hf => ?_
    refine (Act.contents_sound c).bind fun items k hjk hitems => ?_
    have hsorted := mergeSort_sound (hhost.later (hij.trans hjk)) (Fn.Known.mono hjk hf) hitems
    exact hsorted.bind fun result l _ hresult => .pure fun m hlm => AllKnown.mono hlm hresult
  refine hsorting.bind fun p j hij hp => ?_
  refine (Act.write_sound c hp).bind fun _ k hjk _ => ?_
  refine (Act.emit_sound _).bind fun _ l hkl _ => .pure fun m hlm => ?_
  exact hc.mono (((hij.trans hjk).trans hkl).trans hlm)

theorem run_sound (hhost : host.Sound i) (hargs : AllKnown i args) {c : Cell} (hc : (Value.arr c).Known i)
    (m : CallbackMethod) : (run host c m args).Sound i Value.Known := by
  cases m with
  | map => exact map_sound hhost hargs c
  | filter => exact filter_sound hhost hargs c
  | reduce => exact reduce_sound hhost hargs c
  | find => exact find_sound hhost hargs c
  | sort => exact sort_sound hhost hargs hc

end Callback

/-- **A method whose target exists holds known values only**, as far as the functions that it calls do. -/
theorem Bound.call_sound {host : Host} (hhost : host.Sound i) {b : Bound} (hb : b.Known i)
    (hargs : AllKnown i args) : (b.call host args).Sound i Value.Known := by
  cases b with
  | num n m =>
    have hanswer : ∀ a, m.answer n args = .ok a → ∀ j, i.Grows j → a.Known j := by
      cases m
      rintro a ha j -
      cases ha
      trivial
    exact (Task.Sound.ofExcept hanswer).bind fun a j _ ha => Answer.commit_sound ha
  | str s m =>
    exact (Task.Sound.ofExcept fun a ha j _ => StrMethod.answer_known ha).bind fun a j _ ha =>
      Answer.commit_sound ha
  | arr c m =>
    refine .bind .get fun s j hij hs => ?_
    have hreply : ∀ r, m.reply s.heap c args = .ok r → ∀ k, j.Grows k →
        (∀ items, r.items = some items → AllKnown k items.toList) ∧ r.answer.Known k := by
      intro r hr k hjk
      have hc : (Value.arr c).Known j := Value.Known.mono (v := .arr c) hij hb
      obtain ⟨hitems, hanswer⟩ := ArrMethod.reply_known hc hs.contents (hargs.mono hij) hr
      exact ⟨fun items hnew => (hitems items hnew).mono hjk, hanswer.mono hjk⟩
    exact (Task.Sound.ofExcept hreply).bind fun r k _ hr => Reply.commit_sound hr.1 hr.2
  | callback c m => exact Callback.run_sound hhost hargs hb m

end ScriptValues
