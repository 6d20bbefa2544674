/-
What a method asks of its arguments. Every method has a list of parameters (`Bound.parameters`). A call compares them
with the arguments from the left before it does anything else: the first position that does not hold what the parameter
there accepts is the failure of the call, and nothing has happened; if there is none, the method itself runs. Arguments
after the last parameter are not read (`Bound.call_checks_arguments`).

The checks of a method are composed of readings, one for each parameter, so it is shown once for a reading, with any
reader (`Checks.read`, `Checks.read?`), and once for their composition (`Checks.bind`).
-/
import ScriptValues.Proofs.Method.MapOrder
import ScriptValues.Proofs.Method.Writes

namespace ScriptValues

/-! ## Parameters -/

/-- What a method accepts at a position. -/
structure Parameter where
  /-- The argument may not be left out. -/
  required : Bool
  expected : Expected

/-- Whether the parameter accepts what stands at its position; an explicit null is not nothing. -/
def Parameter.accepts (p : Parameter) : Option Value → Bool
  | none => !p.required
  | some v => p.expected.admits v

namespace Parameter

def any : Parameter := ⟨true, .anything⟩

def of (k : Kind) : Parameter := ⟨true, .kind k⟩

/-- A parameter that may be left out. -/
def optional (e : Expected) : Parameter := ⟨false, e⟩

end Parameter

def NumMethod.parameters : NumMethod → List Parameter
  | .toStr => []

def StrMethod.parameters : StrMethod → List Parameter
  | .toNum | .toArr | .toUnicodeArr | .toUnicodeCodepointArr | .toCharArr | .toCharcodeArr | .toUtf8ByteArr
  | .trim | .upper | .lower => []
  | .replace => [.of .str, .of .str]
  | .indexOf => [.of .str, .optional (.kind .num)]
  | .incl => [.of .str]
  | .split => [.optional (.kind .str)]
  | .slice => [.of .num, .of .num]
  | .pick | .charcodeAt | .codepointAt => [.of .num]

def ArrMethod.parameters : ArrMethod → List Parameter
  | .pop | .shift | .reverse | .copy => []
  | .push | .unshift | .incl => [.any]
  | .concat => [.of .arr]
  | .slice => [.of .num, .of .num]
  | .join => [.optional (.kind .str)]
  | .indexOf => [.any, .optional (.kind .num)]

def CallbackMethod.parameters : CallbackMethod → List Parameter
  | .map | .filter | .find | .sort => [.of .fn]
  | .reduce => [.of .fn, .optional .anything]

def Bound.parameters : Bound → List Parameter
  | .num _ m => m.parameters
  | .str _ m => m.parameters
  | .arr _ m => m.parameters
  | .callback _ m => m.parameters

/-- The argument at a position is not what the parameter there accepts. -/
def Offends (ps : List Parameter) (args : List Value) (i : Nat) : Prop :=
  ∃ p, ps[i]? = some p ∧ p.accepts args[i]? = false

/-- The failure for the first position from `first` on at which a parameter does not accept what stands there. -/
def firstRefusal : List Parameter → (first : Nat) → List Value → Option Fault
  | [], _, _ => none
  | p :: ps, first, args =>
    if p.accepts args[first]? then firstRefusal ps (first + 1) args
    else some (Argument.mismatch args first p.expected)

theorem firstRefusal_eq_none_iff {ps : List Parameter} {first : Nat} {args : List Value} :
    firstRefusal ps first args = none ↔ ∀ (i : Nat) p, ps[i]? = some p → p.accepts args[first + i]? = true := by
  induction ps generalizing first with
  | nil => exact ⟨fun _ _ _ => nofun, fun _ => rfl⟩
  | cons p ps ih =>
    rw [firstRefusal]
    split
    · next haccepts =>
      refine ih.trans ⟨fun h i q hq => ?_, fun h i q hq => ?_⟩
      · cases i with
        | zero =>
          cases hq
          exact haccepts
        | succ i =>
          rw [Nat.add_succ, ← Nat.succ_add]
          exact h i q hq
      · rw [Nat.add_assoc, Nat.add_comm 1 i]
        exact h (i + 1) q hq
    · next hrefuses =>
      refine ⟨nofun, fun h => ?_⟩
      exact absurd (h 0 p rfl) hrefuses

theorem firstRefusal_eq_some {ps : List Parameter} {first : Nat} {args : List Value} {e : Fault}
    (h : firstRefusal ps first args = some e) :
    ∃ i p, ps[i]? = some p ∧ p.accepts args[first + i]? = false ∧
      (∀ j < i, ∀ q, ps[j]? = some q → q.accepts args[first + j]? = true) ∧
      e = Argument.mismatch args (first + i) p.expected := by
  induction ps generalizing first with
  | nil => cases h
  | cons p ps ih =>
    rw [firstRefusal] at h
    split at h
    · next haccepts =>
      obtain ⟨i, q, hq, hrefuses, hbelow, rfl⟩ := ih h
      have hplace : ∀ j, first + (j + 1) = first + 1 + j := by omega
      refine ⟨i + 1, q, hq, hplace i ▸ hrefuses, fun j hj r hr => ?_, hplace i ▸ rfl⟩
      cases j with
      | zero =>
        cases hr
        exact haccepts
      | succ j => exact hplace j ▸ hbelow j (Nat.lt_of_succ_lt_succ hj) r hr
    · next hrefuses =>
      cases h
      exact ⟨0, p, rfl, Bool.eq_false_iff.2 hrefuses, nofun, rfl⟩

/-! ## Readings -/

/-- The arguments from `first` on are compared with the parameters, and those after them are not read. -/
structure Checks {α : Type} (ps : List Parameter) (first : Nat) (f : List Value → Except Fault α) : Prop where
  refuses : ∀ {args e}, firstRefusal ps first args = some e → f args = .error e
  accepts : ∀ {args}, firstRefusal ps first args = none → ∃ a, f args = .ok a
  ignores : ∀ args {n}, first + ps.length ≤ n → f (args.take n) = f args

namespace Checks

variable {α β : Type} {first : Nat}

theorem pure (a : α) : Checks [] first fun _ => .ok a := ⟨nofun, fun _ => ⟨a, rfl⟩, fun _ _ _ => rfl⟩

/-- One reading after another. -/
theorem bind {p : Parameter} {ps : List Parameter} {r : List Value → Except Fault α}
    {f : α → List Value → Except Fault β} (hr : Checks [p] first r) (hf : ∀ a, Checks ps (first + 1) (f a)) :
    Checks (p :: ps) first fun args => r args >>= fun a => f a args where
  refuses {args e} h := by
    rw [firstRefusal] at h
    split at h
    · next haccepts =>
      obtain ⟨a, ha⟩ := hr.accepts (if_pos haccepts)
      rw [ha]
      exact (hf a).refuses h
    · next hrefuses =>
      rw [hr.refuses ((if_neg hrefuses).trans h)]
      rfl
  accepts {args} h := by
    rw [firstRefusal] at h
    split at h
    · next haccepts =>
      obtain ⟨a, ha⟩ := hr.accepts (if_pos haccepts)
      obtain ⟨b, hb⟩ := (hf a).accepts h
      exact ⟨b, bind_eq_ok_iff.2 ⟨a, ha, hb⟩⟩
    · cases h
  ignores args n hn := by
    rw [List.length_cons] at hn
    rw [hr.ignores args (Nat.le_trans (by simp) hn)]
    exact congrArg _ (funext fun a => (hf a).ignores args (by omega))

/-- A last reading, the rest of the method being able to fail no more. -/
theorem map {p : Parameter} {r : List Value → Except Fault α} (hr : Checks [p] first r) (f : α → β) :
    Checks [p] first fun args => r args >>= fun a => .ok (f a) := hr.bind fun a => .pure (f a)

/-- What must be there is read just if the parameter accepts it. -/
theorem read (r : Reader α) : Checks [⟨true, r.expected⟩] first (Argument.read r · first) where
  refuses {args e} h := by
    rw [firstRefusal] at h
    split at h
    · cases h
    · next hrefuses =>
      cases h
      refine Argument.read_eq_error fun v hv => ?_
      rw [hv] at hrefuses
      exact Bool.eq_false_iff.2 hrefuses
  accepts {args} h := by
    rw [firstRefusal] at h
    split at h
    · next haccepts =>
      cases hv : args[first]? with
      | none =>
        rw [hv] at haccepts
        cases haccepts
      | some v =>
        rw [hv] at haccepts
        obtain ⟨a, ha⟩ := Option.isSome_iff_exists.1 ((r.isSome_select v).trans haccepts)
        exact ⟨a, by rw [Argument.read, hv, Option.bind_some, ha]⟩
    · cases h
  ignores args n hn := by
    have hget : (args.take n)[first]? = args[first]? := List.getElem?_take_of_lt hn
    rw [Argument.read, Argument.read, Argument.mismatch, Argument.mismatch, hget]

/-- What may be left out is read as if it had to be there, if it is. -/
theorem read? (r : Reader α) : Checks [⟨false, r.expected⟩] first (Argument.read? r · first) where
  refuses {args e} h := by
    rw [firstRefusal] at h
    split at h
    · cases h
    · next hrefuses =>
      cases h
      have hsome : ¬ args.length ≤ first := by
        intro hle
        rw [List.getElem?_eq_none hle] at hrefuses
        exact hrefuses rfl
      have hrequired : firstRefusal [⟨true, r.expected⟩] first args =
          some (Argument.mismatch args first r.expected) := by
        rw [firstRefusal, if_neg]
        rwa [List.getElem?_eq_getElem (Nat.lt_of_not_le hsome)] at hrefuses ⊢
      rw [Argument.read?, if_neg hsome, (read r).refuses hrequired]
      rfl
  accepts {args} h := by
    rw [firstRefusal] at h
    split at h
    · next haccepts =>
      rw [Argument.read?]
      split
      · exact ⟨none, rfl⟩
      · next hsome =>
        have hrequired : firstRefusal [⟨true, r.expected⟩] first args = none := by
          rw [firstRefusal, if_pos, firstRefusal]
          rwa [List.getElem?_eq_getElem (Nat.lt_of_not_le hsome)] at haccepts ⊢
        obtain ⟨a, ha⟩ := (read r).accepts hrequired
        exact ⟨some a, by rw [ha]; rfl⟩
    · cases h
  ignores args n hn := by
    have hlength : (args.take n).length ≤ first ↔ args.length ≤ first := by
      rw [List.length_take]
      simp only [List.length_singleton] at hn
      omega
    simp only [Argument.read?, hlength, (read r).ignores args hn]

/-- What may be left out and may be anything is never refused. -/
theorem anything? : Checks [.optional .anything] first fun args => .ok args[first]? where
  refuses {args e} h := by
    have haccepts : (Parameter.optional .anything).accepts args[first]? = true := by cases args[first]? <;> rfl
    rw [firstRefusal, if_pos haccepts] at h
    cases h
  accepts _ := ⟨_, rfl⟩
  ignores args n hn := by rw [List.getElem?_take_of_lt hn]

/-! ## Methods -/

theorem numMethod (n : Num) (m : NumMethod) : Checks m.parameters 0 (m.answer n) := by
  cases m
  exact .pure _

theorem strMethod (text : String) (m : StrMethod) : Checks m.parameters 0 (m.answer text) := by
  cases m with
  | toNum | toArr | toUnicodeArr | toUnicodeCodepointArr | toCharArr | toCharcodeArr | toUtf8ByteArr => exact .pure _
  | trim | upper | lower => exact .pure _
  | replace => exact (read .str).bind fun _ => (read .str).map _
  | indexOf => exact (read .str).bind fun _ => (read? .num).map _
  | incl => exact (read .str).map _
  | split =>
    refine (read? .str).bind fun sep => ?_
    cases sep with
    | none => exact .pure _
    | some sep =>
      dsimp only
      split <;> exact .pure _
  | slice => exact (read .num).bind fun _ => (read .num).map _
  | pick | charcodeAt | codepointAt => exact (read .num).map _

theorem arrMethod (h : Heap) (c : Cell) (m : ArrMethod) : Checks m.parameters 0 (m.reply h c) := by
  cases m with
  | pop | shift | reverse | copy => exact .pure _
  | push | unshift | incl => exact (read .any).map _
  | concat => exact (read .arr).map _
  | slice => exact (read .num).bind fun _ => (read .num).map _
  | join => exact (read? .str).map _
  | indexOf => exact (read .any).bind fun _ => (read? .num).map _

end Checks

namespace Callback

/-- What a method that calls back reads of its arguments. -/
def arguments : CallbackMethod → List Value → Except Fault (Fn × Option Value)
  | .reduce, args => do
    let f ← Argument.read .fn args 0
    let initial ← .ok args[1]?
    .ok (f, initial)
  | .map, args | .filter, args | .find, args | .sort, args => do
    let f ← Argument.read .fn args 0
    .ok (f, none)

theorem arguments_checks (m : CallbackMethod) : Checks m.parameters 0 (arguments m) := by
  cases m with
  | reduce => exact (Checks.read .fn).bind fun _ => Checks.anything?.map _
  | map | filter | find | sort => exact (Checks.read .fn).map _

/-- The method itself, its arguments having been read. -/
def body (host : Host) (c : Cell) (f : Fn) (initial : Option Value) : CallbackMethod → Act Value
  | .map => do
    let items ← Act.contents c
    let results ← issue host (mapCalls host f items.toList)
    answerMapped host items.size results
  | .filter => do
    let elements ← Elements.ofCell host c
    let kept ← filterFrom host f elements elements.bound 0
    Act.alloc kept.toArray
  | .reduce => do
    let elements ← Elements.ofCell host c
    match initial with
    | some acc => reduceFrom host f elements elements.bound 0 acc
    | none =>
      match ← elements.get 0 with
      | some acc => reduceFrom host f elements elements.bound 1 acc
      | none => throw (.emptyArray .reduce)
  | .find => do
    let elements ← Elements.ofCell host c
    findFrom host f elements elements.bound 0
  | .sort => do
    let items ← Act.contents c
    let (sorted, comparisons) ← (Sort.mergeSort (precedes host f) items.toList).run 0
    Act.write c sorted.toArray
    Act.emit (.sorted items.size comparisons)
    pure (.arr c)

theorem run_eq (host : Host) (c : Cell) (m : CallbackMethod) (args : List Value) :
    run host c m args = Task.ofExcept (arguments m args) >>= fun p => body host c p.1 p.2 m := by
  cases m with
  | map =>
    refine (map_eq host c args).trans ?_
    simp only [arguments]
    cases Argument.read .fn args 0 <;> rfl
  | filter | reduce | find | sort =>
    simp only [arguments, run, filter, reduce, find, sort]
    cases Argument.read .fn args 0 <;> rfl

end Callback

theorem Fault.argument_message (i : Nat) (expected : Expected) (actual : Option Kind) :
    (Fault.argumentType (.argument i) expected actual).message = "Expect " ++ expected.name ++ " for argument #" ++
      Nat.repr (i + 1) ++ ", but got " ++ (actual.map Kind.name).getD "nothing" ++ "." := by
  have hplace (n : String) : " for " ++ ("argument #" ++ n) = " for argument #" ++ n := by
    rw [← String.append_assoc]
    rfl
  have hmessage : (Fault.argumentType (.argument i) expected actual).message = "Expect " ++ expected.name ++ " for " ++
    (Site.argument i).describe ++ ", but got " ++ (actual.map Kind.name).getD "nothing" ++ "." := rfl
  rw [hmessage, Site.describe]
  simp only [String.append_assoc]
  exact congrArg _ (congrArg _ (hplace _))

theorem Answer.commit_done (a : Answer) (s : Machine) : ∃ s' v, a.commit s = .done s' v := by
  cases a with
  | value v => exact ⟨s, v, rfl⟩
  | fresh items => exact ⟨_, _, rfl⟩

theorem Reply.commit_done (c : Cell) (r : Reply) (s : Machine) : ∃ s' v, r.commit c s = .done s' v := by
  obtain ⟨items, answer⟩ := r
  cases items with
  | none => exact answer.commit_done s
  | some items => exact answer.commit_done { s with heap := s.heap.write c items }

namespace Bound

/-- The method runs: one that calls back begins with its function, and any other succeeds. -/
def Proceeds (host : Host) (args : List Value) : Bound → Prop
  | .callback c m => ∃ f initial, Callback.arguments m args = .ok (f, initial) ∧
      (Bound.callback c m).call host args = Callback.body host c f initial m
  | b => ∀ s, ∃ s' v, b.call host args s = .done s' v

variable {host : Host} {args : List Value}

theorem call_refused {b : Bound} {e : Fault} (h : firstRefusal b.parameters 0 args = some e) (s : Machine) :
    b.call host args s = .failed s e := by
  cases b with
  | num n m =>
    have hanswer := (Checks.numMethod n m).refuses h
    simp only [Bound.call, hanswer]
    rfl
  | str text m =>
    have hanswer := (Checks.strMethod text m).refuses h
    simp only [Bound.call, hanswer]
    rfl
  | arr c m => rw [arr_call_eq, (Checks.arrMethod s.heap c m).refuses h]
  | callback c m =>
    rw [Bound.call, Callback.run_eq, (Callback.arguments_checks m).refuses h]
    rfl

theorem call_accepted {b : Bound} (h : firstRefusal b.parameters 0 args = none) : b.Proceeds host args := by
  cases b with
  | num n m =>
    intro s
    obtain ⟨a, ha⟩ := (Checks.numMethod n m).accepts h
    simp only [Bound.call, ha]
    exact a.commit_done s
  | str text m =>
    intro s
    obtain ⟨a, ha⟩ := (Checks.strMethod text m).accepts h
    simp only [Bound.call, ha]
    exact a.commit_done s
  | arr c m =>
    intro s
    obtain ⟨r, hr⟩ := (Checks.arrMethod s.heap c m).accepts h
    rw [arr_call_eq, hr]
    exact r.commit_done c s
  | callback c m =>
    obtain ⟨⟨f, initial⟩, ha⟩ := (Callback.arguments_checks m).accepts h
    refine ⟨f, initial, ha, ?_⟩
    rw [Bound.call, Callback.run_eq, ha]
    rfl

/-- What comes after the last parameter is not read. -/
theorem call_take (b : Bound) : b.call host (args.take b.parameters.length) = b.call host args := by
  have hn : 0 + b.parameters.length ≤ b.parameters.length := Nat.le_of_eq (Nat.zero_add _)
  cases b with
  | num n m =>
    have hanswer := (Checks.numMethod n m).ignores args hn
    simp only [Bound.call, hanswer]
  | str text m =>
    have hanswer := (Checks.strMethod text m).ignores args hn
    simp only [Bound.call, hanswer]
  | arr c m =>
    funext s
    have hreply := (Checks.arrMethod s.heap c m).ignores args hn
    simp only [arr_call_eq, hreply]
  | callback c m =>
    have harguments := (Callback.arguments_checks m).ignores args hn
    simp only [Bound.call, Callback.run_eq, harguments]

/-- **Arguments are checked completely, in order and before all else.** Either no position offends, and the method runs:
without a function to call it succeeds, whatever the machine. Or there is a first position that offends, and the call
fails with what is wrong there, the machine being as it was. Arguments after the last parameter change nothing. -/
theorem call_checks_arguments (b : Bound) (host : Host) (args : List Value) :
    ((∀ i, ¬ Offends b.parameters args i) ∧ b.Proceeds host args ∨
      ∃ i p, b.parameters[i]? = some p ∧ p.accepts args[i]? = false ∧ (∀ j < i, ¬ Offends b.parameters args j) ∧
        ∃ e : Fault, (∀ s, b.call host args s = .failed s e) ∧
          e = .argumentType (.argument i) p.expected (args[i]?.map Value.kind) ∧
          e.message = "Expect " ++ p.expected.name ++ " for argument #" ++ Nat.repr (i + 1) ++ ", but got " ++
            (args[i]?.map (·.kind.name)).getD "nothing" ++ ".") ∧
    b.call host (args.take b.parameters.length) = b.call host args := by
  refine ⟨?_, b.call_take⟩
  cases h : firstRefusal b.parameters 0 args with
  | none =>
    refine .inl ⟨fun i hi => ?_, call_accepted h⟩
    obtain ⟨p, hp, hrefuses⟩ := hi
    have haccepts := firstRefusal_eq_none_iff.1 h i p hp
    rw [Nat.zero_add, hrefuses] at haccepts
    cases haccepts
  | some e =>
    obtain ⟨i, p, hp, hrefuses, hbelow, he⟩ := firstRefusal_eq_some h
    rw [Nat.zero_add] at hrefuses he
    refine .inr ⟨i, p, hp, hrefuses, fun j hj hoffends => ?_, e, call_refused h, he, ?_⟩
    · obtain ⟨q, hq, hrefuses⟩ := hoffends
      have haccepts := hbelow j hj q hq
      rw [Nat.zero_add, hrefuses] at haccepts
      cases haccepts
    · rw [he, Argument.mismatch, Fault.argument_message, Option.map_map]
      rfl

end Bound

end ScriptValues
