/-
What the methods do to arrays, and which arrays they return.

* Five methods write the array that they are bound to, at once (`ArrMethod.writes`), and `sort` writes it at
  its end. What the others do leaves every array that exists as it is: as far as they go, so does all that is
  built from them (`keeps_congruence`).
* A method that returns a new array makes it last of all, however long its calls take (`Bound.call_returns`).
-/
import ScriptValues.Proofs.Method.SortContents
import ScriptValues.Proofs.Task.Guarantee

namespace ScriptValues

/-! ## What kind of method it is -/

/-- The method writes its array at once. -/
def ArrMethod.writes : ArrMethod → Bool
  | .push | .unshift | .pop | .shift | .reverse => true
  | .concat | .slice | .join | .incl | .indexOf | .copy => false

/-- The method returns a new array. -/
def ArrMethod.makesArray : ArrMethod → Bool
  | .concat | .slice | .copy => true
  | .push | .unshift | .pop | .shift | .join | .incl | .indexOf | .reverse => false

/-- The method returns its array. -/
def ArrMethod.returnsTarget : ArrMethod → Bool
  | .push | .unshift => true
  | .pop | .shift | .concat | .slice | .join | .incl | .indexOf | .reverse | .copy => false

/-- The method returns a new array. -/
def StrMethod.makesArray : StrMethod → Bool
  | .toArr | .toUnicodeArr | .toUnicodeCodepointArr | .toCharArr | .toCharcodeArr | .toUtf8ByteArr
  | .split => true
  | .toNum | .replace | .indexOf | .incl | .trim | .upper | .lower | .slice | .pick | .charcodeAt
  | .codepointAt => false

/-- The method returns a new array. -/
def Bound.makesArray : Bound → Bool
  | .num _ _ => false
  | .str _ m => m.makesArray
  | .arr _ m => m.makesArray
  | .callback _ .map | .callback _ .filter => true
  | .callback _ .reduce | .callback _ .find | .callback _ .sort => false

/-- The array that the method is bound to, if it returns that. -/
def Bound.returned? : Bound → Option Cell
  | .num _ _ | .str _ _ => none
  | .arr c m => if m.returnsTarget then some c else none
  | .callback c .sort => some c
  | .callback _ .map | .callback _ .filter | .callback _ .reduce | .callback _ .find => none

/-! ## Methods that do not call back -/

theorem bind_eq_ok_iff {ε α β : Type} {x : Except ε α} {f : α → Except ε β} {b : β} :
    x >>= f = .ok b ↔ ∃ a, x = .ok a ∧ f a = .ok b := by
  cases x with
  | ok a => simp [bind, Except.bind]
  | error e => simp [bind, Except.bind]

section

variable {args : List Value} {host : Host} {c : Cell} {s : Machine}

/-- How a method of an array ends, in its first turn: it fails and has done nothing, it has written its array,
it has made an array, or it has read. -/
inductive ArrMethod.Ends (c : Cell) (m : ArrMethod) (s : Machine) : Turn Machine Fault Value → Prop
  | failed e : Ends c m s (.failed s e)
  | wrote items v : m.writes = true → m.makesArray = false → (m.returnsTarget = true → v = .arr c) →
      Ends c m s (.done { s with heap := s.heap.write c items } v)
  | made items : m.writes = false → m.returnsTarget = false →
      Ends c m s (.done { s with heap := s.heap.alloc items } (.arr s.heap.next))
  | read v : m.writes = false → m.makesArray = false → m.returnsTarget = false → Ends c m s (.done s v)

theorem Bound.arr_call_eq (host : Host) (c : Cell) (m : ArrMethod) (args : List Value) (s : Machine) :
    (Bound.arr c m).call host args s =
      match m.reply s.heap c args with
      | .ok r => r.commit c s
      | .error e => .failed s e := by
  have hcall : (Bound.arr c m).call host args s =
      ((Task.ofExcept (m.reply s.heap c args) : Act Reply) s).bind (Reply.commit c) := rfl
  rw [hcall]
  cases m.reply s.heap c args <;> rfl

theorem Bound.arr_call_ends (host : Host) (c : Cell) (m : ArrMethod) (args : List Value) (s : Machine) :
    m.Ends c s ((Bound.arr c m).call host args s) := by
  rw [Bound.arr_call_eq]
  cases hreply : m.reply s.heap c args with
  | error e => exact .failed e
  | ok r =>
    cases m <;> simp only [ArrMethod.reply, bind_eq_ok_iff, pure, Except.pure] at hreply
    case push | unshift =>
      obtain ⟨v, -, hr⟩ := hreply
      cases hr
      exact .wrote _ _ rfl rfl fun _ => rfl
    case pop | shift | reverse =>
      cases hreply
      exact .wrote _ _ rfl rfl nofun
    case concat =>
      obtain ⟨other, -, hr⟩ := hreply
      cases hr
      exact .made _ rfl rfl
    case slice =>
      obtain ⟨start, -, stop, -, hr⟩ := hreply
      cases hr
      exact .made _ rfl rfl
    case copy =>
      cases hreply
      exact .made _ rfl rfl
    case join | incl =>
      obtain ⟨v, -, hr⟩ := hreply
      cases hr
      exact .read _ rfl rfl rfl
    case indexOf =>
      obtain ⟨v, -, start, -, hr⟩ := hreply
      cases hr
      exact .read _ rfl rfl rfl

theorem StrMethod.answer_of_makesArray {text : String} {m : StrMethod} {a : Answer}
    (hm : m.makesArray = true) (ha : m.answer text args = .ok a) : ∃ items, a = .fresh items := by
  cases m <;> try cases hm
  all_goals simp only [StrMethod.answer, bind_eq_ok_iff, pure, Except.pure] at ha
  case split =>
    obtain ⟨sep, -, ha⟩ := ha
    split at ha
    · split at ha <;> cases ha <;> exact ⟨_, rfl⟩
    · cases ha
      exact ⟨_, rfl⟩
  all_goals
    cases ha
    exact ⟨_, rfl⟩

end

/-! ## What is kept beside the writes -/

variable {rely guar : Machine → Machine → Prop}

/-- Tasks that write no array that exists are built from such tasks. -/
theorem Task.keeps_congruence (h : Compatible rely guar)
    (hspares : ∀ s s' : Machine, s.heap.Spares s'.heap → guar s s') :
    Congruence fun {α} (t _ : Act α) => t.Keeps rely guar where
  onCore _ hf _ := fun s => .done (hspares _ _ (hf s.core)) trivial
  countCall := fun s => .done (hspares _ _ (.refl s.heap)) trivial
  resolved _ _ := fun s => .done (hspares _ _ (.refl s.heap)) trivial
  emit _ := fun s => .done (hspares _ _ (.refl s.heap)) trivial
  throw _ := fun s => .failed (h.refl s)
  exhausted := fun _ => .exhausted
  bind ht hf := ht.bind h hf
  rescue ht hf := fun s => (ht s).handle h hf

/-- A gathering does to the machine what its members do. -/
theorem Callback.issue_keeps (h : Compatible rely guar) {host : Host} {calls : List (Act Value)}
    (hcalls : ∀ call ∈ calls, call.Keeps rely guar) : (Callback.issue host calls).Keeps rely guar := by
  intro s
  refine (Callback.issue_conducts host calls s).conforms h fun m hm => ?_
  obtain ⟨call, hcall, rfl⟩ := List.mem_map.1 hm
  exact fun s₁ _ => hcalls call hcall s₁

theorem Callback.mapping_keeps (h : Compatible rely guar)
    (hspares : ∀ s s' : Machine, s.heap.Spares s'.heap → guar s s') {host : Host}
    (hinvoke : ∀ f args, (host.invoke f args).Keeps rely guar) (c : Cell) (args : List Value) :
    (mapping host c args).Keeps rely guar := by
  have hrel := Task.keeps_congruence h hspares
  refine @mapping_rel _ host host hrel.toPlainCongruence (fun f items => issue_keeps h fun call hcall => ?_) c args
  have hcallBack := @callBack_rel _ host host hrel hinvoke .map
  have hcalls := @mapCalls_rel host host (fun t _ => t.Keeps rely guar) hcallBack f items
  exact List.forall₂_same.1 hcalls call hcall

/-- A method keeps what those keep that write no array that exists, if a write to its own array does. -/
theorem Bound.call_keeps (h : Compatible rely guar)
    (hspares : ∀ s s' : Machine, s.heap.Spares s'.heap → guar s s') {host : Host}
    (hinvoke : ∀ f args, (host.invoke f args).Keeps rely guar) (b : Bound) (args : List Value)
    (harr : ∀ c m, b = .arr c m → (b.call host args).Keeps rely guar)
    (hsort : ∀ c, b = .callback c .sort → ∀ count result,
      (Callback.answerSorted c count result).Keeps rely guar) : (b.call host args).Keeps rely guar := by
  have hrel := Task.keeps_congruence h hspares
  have hcalls : ∀ m, Host.CallsBack (fun {α} (t _ : Act α) => t.Keeps rely guar) m host host :=
    Host.Related.callsBack hrel ⟨hinvoke, rfl, rfl⟩
  cases b with
  | num n m => exact (hrel.ofExcept _).bind h fun answer => hrel.commit answer
  | str text m => exact (hrel.ofExcept _).bind h fun answer => hrel.commit answer
  | arr c m => exact harr c m rfl
  | callback c m =>
    cases m with
    | map =>
      rw [Bound.call, Callback.run, Callback.map_eq_mapping]
      exact (Callback.mapping_keeps h hspares hinvoke c args).bind h fun p =>
        @Callback.answerMapped_rel _ host host hrel rfl p.1 p.2
    | filter => exact @Callback.filter_rel _ host host hrel.toPlainCongruence (hcalls .filter) c args
    | reduce => exact @Callback.reduce_rel _ host host hrel.toPlainCongruence (hcalls .reduce) c args
    | find => exact @Callback.find_rel _ host host hrel.toPlainCongruence (hcalls .find) c args
    | sort =>
      rw [Bound.call, Callback.run, Callback.sort_eq_sorting]
      have hsorting := @Callback.sorting_rel _ host host hrel.toPlainCongruence (hcalls .sort).callBack c args
      exact hsorting.bind h fun p => hsort c rfl p.1 p.2

/-! ## What is returned -/

namespace Heap

/-- All arrays that exist are there still. -/
def Grows (h h' : Heap) : Prop := ∀ c, h.Has c → h'.Has c

/-- The value is an array that did not exist before. -/
def Makes (h h' : Heap) (v : Value) : Prop := ∃ c, v = .arr c ∧ ¬ h.Has c ∧ h'.Has c

theorem Grows.refl (h : Heap) : h.Grows h := fun _ hc => hc

theorem Spares.grows {h h' : Heap} (hspares : h.Spares h') : h.Grows h' := fun c hc => (hspares c hc).1

theorem grows_write (h : Heap) (c : Cell) (items : Array Value) : h.Grows (h.write c items) :=
  fun _ hd => has_write hd c items

theorem makes_alloc {h₀ h : Heap} (hgrown : h₀.Grows h) (items : Array Value) :
    h₀.Makes (h.alloc items) (.arr h.next) := by
  refine ⟨h.next, rfl, fun hold => ?_, ?_⟩
  · exact Nat.lt_irrefl _ (hgrown _ hold)
  · rw [Has, alloc, Array.size_push]
    exact Nat.lt_succ_self _

end Heap

/-- All arrays that exist are there still. -/
def Machine.Grows (s s' : Machine) : Prop := s.heap.Grows s'.heap

theorem Machine.grows_of_spares (s s' : Machine) (h : s.heap.Spares s'.heap) : s.Grows s' := h.grows

theorem Machine.grows_compatible : Compatible Machine.Grows Machine.Grows :=
  .shared (fun s => .refl s.heap) fun h h' c hc => h' c (h c hc)

/-- What a method has returned, as far as it says: a new array, or the one that it is bound to. -/
structure Bound.Returned (b : Bound) (h h' : Heap) (v : Value) : Prop where
  made : b.makesArray = true → h.Makes h' v
  target : ∀ c, b.returned? = some c → v = .arr c

section

variable {host : Host}

theorem Bound.call_grows (hinvoke : ∀ f args, (host.invoke f args).Keeps Machine.Grows Machine.Grows)
    (b : Bound) (args : List Value) : (b.call host args).Keeps Machine.Grows Machine.Grows := by
  refine Bound.call_keeps Machine.grows_compatible Machine.grows_of_spares hinvoke b args ?_ ?_
  · rintro c m rfl s
    have hends := Bound.arr_call_ends host c m args s
    generalize (Bound.arr c m).call host args s = u at hends
    cases hends with
    | failed e => exact .failed (.refl s.heap)
    | wrote items v => exact .done (s.heap.grows_write c items) trivial
    | made items => exact .done (s.heap.spares_alloc items).grows trivial
    | read v => exact .done (.refl s.heap) trivial
  · rintro c rfl count result s
    exact .done (s.heap.grows_write c _) trivial

/-- A method of a string that makes an array does so at once. -/
theorem Bound.str_call_returns {text : String} {m : StrMethod} (hm : m.makesArray = true) (args : List Value)
    (s : Machine) : ((Bound.str text m).call host args s).Conforms Machine.Grows Machine.Grows
      (fun s' v => (Bound.str text m).Returned s.heap s'.heap v) s := by
  have hcall : (Bound.str text m).call host args s =
      ((Task.ofExcept (m.answer text args) : Act Answer) s).bind Answer.commit := rfl
  rw [hcall]
  cases hanswer : m.answer text args with
  | error e => exact .failed (.refl s.heap)
  | ok a =>
    obtain ⟨items, rfl⟩ := StrMethod.answer_of_makesArray hm hanswer
    have hmakes := Heap.makes_alloc (.refl s.heap) items.toArray
    exact .done (s.heap.spares_alloc _).grows ⟨fun _ => hmakes, nofun⟩

theorem Bound.arr_call_returns (c : Cell) (m : ArrMethod) (args : List Value) (s : Machine) :
    ((Bound.arr c m).call host args s).Conforms Machine.Grows Machine.Grows
      (fun s' v => (Bound.arr c m).Returned s.heap s'.heap v) s := by
  have hreturned : ∀ d, (Bound.arr c m).returned? = some d → m.returnsTarget = true ∧ c = d :=
    fun d hd => Option.ite_some_none_eq_some.1 hd
  have hends := Bound.arr_call_ends host c m args s
  generalize (Bound.arr c m).call host args s = u at hends
  cases hends with
  | failed e => exact .failed (.refl s.heap)
  | wrote items v hwrites hmakes htarget =>
    refine .done (s.heap.grows_write c items) ⟨fun h => ?_, fun d hd => ?_⟩
    · exact absurd (hmakes.symm.trans h) Bool.false_ne_true
    · obtain ⟨hreturns, rfl⟩ := hreturned d hd
      exact htarget hreturns
  | made items hwrites htarget =>
    have hmakes := Heap.makes_alloc (.refl s.heap) items
    refine .done (s.heap.spares_alloc items).grows ⟨fun _ => hmakes, fun d hd => ?_⟩
    exact absurd (htarget.symm.trans (hreturned d hd).1) Bool.false_ne_true
  | read v hwrites hmakes htarget =>
    refine .done (.refl s.heap) ⟨fun h => ?_, fun d hd => ?_⟩
    · exact absurd (hmakes.symm.trans h) Bool.false_ne_true
    · exact absurd (htarget.symm.trans (hreturned d hd).1) Bool.false_ne_true

/-- **A method returns what it says**, whatever the functions that it calls and others do meanwhile, as long
as arrays last: a new array is one that did not exist when the method was called. -/
theorem Bound.call_returns (hinvoke : ∀ f args, (host.invoke f args).Keeps Machine.Grows Machine.Grows)
    (b : Bound) (args : List Value) (s : Machine) :
    (b.call host args s).Conforms Machine.Grows Machine.Grows
      (fun s' v => b.Returned s.heap s'.heap v) s := by
  have hgrows := Bound.call_grows hinvoke b args s
  have hrel := Task.keeps_congruence Machine.grows_compatible Machine.grows_of_spares
  cases b with
  | num n m => exact hgrows.imp fun s' v _ => ⟨nofun, nofun⟩
  | str text m =>
    by_cases hm : m.makesArray = true
    · exact Bound.str_call_returns hm args s
    · exact hgrows.imp fun s' v _ => ⟨fun hmakes => absurd hmakes hm, nofun⟩
  | arr c m => exact Bound.arr_call_returns c m args s
  | callback c m =>
    cases m with
    | map =>
      rw [Bound.call, Callback.run, Callback.map_eq_mapping]
      have hmapping := Callback.mapping_keeps Machine.grows_compatible Machine.grows_of_spares hinvoke c args
      refine hmapping.bind_since Machine.grows_compatible s fun p s₁ hs₁ => ?_
      exact .done (s₁.heap.spares_alloc _).grows ⟨fun _ => Heap.makes_alloc hs₁ _, nofun⟩
    | filter =>
      rw [Bound.call, Callback.run, Callback.filter_eq_filtering]
      have hfiltering := @Callback.filtering_rel _ host host hrel.toPlainCongruence
        (Host.Related.callsBack hrel ⟨hinvoke, rfl, rfl⟩ .filter) c args
      refine Task.Keeps.bind_since Machine.grows_compatible hfiltering s fun kept s₁ hs₁ => ?_
      exact .done (s₁.heap.spares_alloc _).grows ⟨fun _ => Heap.makes_alloc hs₁ _, nofun⟩
    | reduce => exact hgrows.imp fun s' v _ => ⟨nofun, nofun⟩
    | find => exact hgrows.imp fun s' v _ => ⟨nofun, nofun⟩
    | sort =>
      rw [Bound.call, Callback.run, Callback.sort_eq_sorting]
      have hsorting := @Callback.sorting_rel _ host host hrel.toPlainCongruence
        (@Callback.callBack_rel _ host host hrel hinvoke .sort) c args
      refine Task.Keeps.bind_since Machine.grows_compatible hsorting s fun p s₁ _ => ?_
      exact .done (s₁.heap.grows_write c _) ⟨nofun, fun d hd => congrArg Value.arr (Option.some.inj hd)⟩

end

end ScriptValues
