/-
Methods are bound late. A method that is looked up, kept while a script does whatever it does, and then called, does
what it does when it is looked up only then (`bindLast_inStep`): binding copies nothing of an array, and whether a name
is a method does not depend on what happens in between. The two runs number their native functions differently, as the
one makes the bound method before those that the operations make and the other after them; what they leave is alike up
to these numbers.
-/
import ScriptValues.Proofs.Method.Resolution
import ScriptValues.Proofs.Script.Known
import ScriptValues.Proofs.Script.Rename

namespace ScriptValues

/-! ## Numbers -/

/-- Leaves the number `k` free: those from it on are one greater. -/
def makeRoom (k : Nat) : Nat ↪ Nat where
  toFun n := if n < k then n else n + 1
  inj' m n h := by grind

/-- Leaves the number `k` free for `m`: those from `k` on are one greater, up to `m`. -/
def moveTo (k m : Nat) : Nat ↪ Nat where
  toFun n := if n < k ∨ m < n then n else if n = m then k else n + 1
  inj' a b h := by grind

theorem makeRoom_below {k n : Nat} (h : n < k) : makeRoom k n = n := if_pos h

theorem makeRoom_above {k n : Nat} (h : k ≤ n) : makeRoom k n = n + 1 := if_neg (Nat.not_lt.2 h)

theorem moveTo_below {k m n : Nat} (h : n < k) : moveTo k m n = n := if_pos (.inl h)

theorem moveTo_self {k m : Nat} (h : k ≤ m) : moveTo k m m = k := by
  change (if m < k ∨ m < m then m else if m = m then k else m + 1) = k
  rw [if_neg (by omega), if_pos rfl]

theorem moveTo_above {k m n : Nat} (h : m < n) : moveTo k m n = n := if_pos (.inr h)

/-- Before `m`, room is made alike. -/
theorem makeRoom_eq_moveTo {k m n : Nat} (h : n < m) : makeRoom k n = moveTo k m n := by
  change (if n < k then n else n + 1) = if n < k ∨ m < n then n else if n = m then k else n + 1
  grind

namespace Script

/-! ## Binding first and binding last -/

/-- The scope of a call with these arguments, further calls nesting at most `depth` deep. -/
def callScope (setting : Setting) (depth : Nat) (arguments : List Value) : Scope :=
  ⟨⟨invoke setting depth, setting.config, setting.limit⟩, setting.delay, arguments⟩

/-- Calls a value with the values of expressions. -/
def applyTo (scope : Scope) (args : List Expr) (f : Value) : Act Value := do
  let vs ← evalAll scope args
  callValue scope.host f vs f.kind.name

/-- Looks a property up, does operations, and calls what it found. -/
def bindFirst (scope : Scope) (v : Value) (name : String) (operations args : List Expr) : Act Value := do
  let f ← resolve v name
  let _ ← evalAll scope operations
  applyTo scope args f

/-- Does operations, looks a property up, and calls what it found. -/
def bindLast (scope : Scope) (v : Value) (name : String) (operations args : List Expr) : Act Value := do
  let _ ← evalAll scope operations
  let f ← resolve v name
  applyTo scope args f

variable {ρ : Nat ↪ Nat} {i j : Inventory} {scope : Scope}

theorem applyTo_renames {scope' : Scope} (h : Scope.Renames ρ scope scope') (args : List Expr) (f : Value) :
    Task.Renames ρ (Value.rename ρ) (applyTo scope args f) (applyTo scope' args (f.rename ρ)) := by
  refine (evalAll_renames h args).bind fun vs => ?_
  rw [Value.kind_rename]
  exact callValue_renames h.host f vs _

variable {k : Nat} {s s' : Machine} {v : Value} {name : String}

/-- A machine beside the one that has bound a method. -/
theorem bound_renamed (hs : s.Accounted i) (v : Value) (name : String) :
    s.Renamed (makeRoom s.natives) (s.bound v name) := by
  refine (Machine.Renamed.refl s).recount hs (fun n hn => (makeRoom_below hn).symm) (fun n => ?_) _ _
  rw [makeRoom_above (Nat.le_add_right _ n)]
  omega

/-- The machine that binds the method now, beside one that has bound it. -/
theorem renamed_of_bound (h : s.Renamed (makeRoom k) s') (hs : s.Accounted j) (hk : k ≤ s.natives) (v : Value)
    (name : String) : (s.bound v name).Renamed (moveTo k s.natives) s' := by
  have hnext : makeRoom k s.natives = s'.natives := h.natives 0
  rw [makeRoom_above hk] at hnext
  refine h.recount hs (fun n hn => makeRoom_eq_moveTo hn) (fun n => ?_) _ s'.events
  rw [← hnext, moveTo_above (by omega)]

/-- Functions are called soundly in the scope, and renumbering those that have not been made does not change it. -/
structure Scope.Closed (i : Inventory) (scope : Scope) : Prop where
  sound : Scope.Sound i scope
  renames : ∀ ρ : Nat ↪ Nat, (∀ n < i.natives.length, ρ n = n) → Scope.Renames ρ scope scope

theorem callScope_closed (setting : Setting) (depth : Nat) {arguments : List Value}
    (harguments : AllKnown i arguments) : Scope.Closed i (callScope setting depth arguments) where
  sound := ⟨fun _ _ _ _ hf hargs => invoke_sound setting depth hf hargs, harguments⟩
  renames ρ hρ := by
    refine ⟨⟨invoke_renames setting depth, rfl, rfl⟩, rfl, ?_⟩
    have hself : arguments.map (Value.rename ρ) = arguments.map id :=
      List.map_congr_left fun v hv => ((harguments v hv).rename_congr hρ).trans v.rename_refl
    exact (hself.trans arguments.map_id).symm

/-- **Methods are bound late.** -/
theorem bindLast_inStep (hs : s.Accounted i) (hscope : Scope.Closed i scope)
    (hmethod : v.kind.isMethod name = some true) (operations args : List Expr) :
    ∃ ρ : Nat ↪ Nat, (∀ n < s.natives, ρ n = n) ∧
      (Task.run (bindLast scope v name operations args) s).InStep (Machine.Renamed ρ) (fun w w' => w' = w.rename ρ)
        (Task.run (bindFirst scope v name operations args) s) := by
  obtain ⟨b, hresolve⟩ := resolve_method hmethod
  have hbind : ∀ (f : Value → Act Value) s,
      (resolve v name >>= f) s = f (.fn (.native s.natives b)) (s.bound v name) := by
    intro f s
    change (resolve v name s).bind f = _
    rw [hresolve, Turn.bind]
  have hfirst : bindFirst scope v name operations args s =
      (evalAll scope operations (s.bound v name)).bind fun _ => applyTo scope args (.fn (.native s.natives b)) :=
    hbind ..
  have hlast : bindLast scope v name operations args s =
      (evalAll scope operations s).bind fun _ => resolve v name >>= applyTo scope args := rfl
  -- The operations take the same course, on the one side with the method bound already.
  have hroom := hscope.renames (makeRoom s.natives) fun n hn => makeRoom_below (hs.natives ▸ hn)
  have hend := (evalAll_renames hroom operations s (s.bound v name) (bound_renamed hs v name)).finish
  have hsound := (evalAll_sound hscope.sound operations i s (.refl i) hs).finish
  rw [Task.run, Task.run, hfirst, hlast, Turn.finish_bind, Turn.finish_bind]
  generalize (evalAll scope operations s).finish = o at hend hsound ⊢
  generalize (evalAll scope operations (s.bound v name)).finish = o' at hend ⊢
  cases hend with
  | failed hrenamed => exact ⟨makeRoom s.natives, fun n => makeRoom_below, .failed hrenamed⟩
  | exhausted => exact ⟨makeRoom s.natives, fun n => makeRoom_below, .exhausted⟩
  | @done s₁ s₁' _ _ hrenamed _ =>
    obtain ⟨j, hij, hs₁, -⟩ := hsound
    have hgrown : s.natives ≤ s₁.natives := by
      rw [hs.natives, hs₁.natives]
      exact hij.natives.length_le
    have hmoved := renamed_of_bound hrenamed hs₁ hgrown v name
    have hnumbers := hscope.renames (moveTo s.natives s₁.natives) fun n hn => moveTo_below (hs.natives ▸ hn)
    have hcall := applyTo_renames hnumbers args (.fn (.native s₁.natives b)) _ _ hmoved
    rw [Value.rename, Fn.rename, moveTo_self hgrown] at hcall
    refine ⟨moveTo s.natives s₁.natives, fun n => moveTo_below, ?_⟩
    dsimp only
    rw [hbind]
    exact hcall.finish

/-- **Properties go by the tables, and methods are bound late.** What looking a property up does, and how it fails, is
what the names of the kind and `Kind.isMethod` say, and the heap is left alone. A method is bound as a new function; and
a script that binds one, does operations and calls it ends as one that does the operations first and then binds and
calls it: both are cut off, or fail in the same way, or have the same result, and the heap, the globals and the records
that they leave are the same, all this but for the numbers of the native functions made since. -/
theorem resolve_agrees_bound_late (s : Machine) (v : Value) (name : String) :
    ResolvesByTables s v name ∧
      ∀ i, s.Accounted i → v.Known i →
        (v.kind.isMethod name = some true ↔
          ∃ s' n b, resolve v name s = .done s' (.fn (.native n b)) ∧ b.name = name ∧
            ∀ g : Fn, g.Known i → s'.heap.eq (.fn (.native n b)) (.fn g) = false) ∧
        (v.kind.isMethod name = some true →
          ∀ setting depth arguments, AllKnown i arguments → ∀ operations args : List Expr,
            ∃ ρ : Nat ↪ Nat, (∀ n < s.natives, ρ n = n) ∧
              (Task.run (bindLast (callScope setting depth arguments) v name operations args) s).InStep
                (Machine.Renamed ρ) (fun w w' => w' = w.rename ρ)
                (Task.run (bindFirst (callScope setting depth arguments) v name operations args) s)) := by
  refine ⟨resolve_by_tables s v name, fun i hs hv => ⟨isMethod_iff_binds hs hv, ?_⟩⟩
  intro hmethod setting depth arguments harguments operations args
  exact bindLast_inStep hs (callScope_closed setting depth harguments) hmethod operations args

/-- The machine that has made one array, which is empty. -/
def oneArray : Machine := { Machine.start with heap := Heap.empty.alloc #[] }

theorem oneArray_accounted : oneArray.Accounted ⟨1, [], 0⟩ where
  arrays := rfl
  natives := rfl
  scripts := rfl
  bounds := nofun
  contents := by
    rintro ⟨n⟩ v hv
    cases n <;> cases hv
  globals := nofun

/-- A method of the array, bound before another one is called. -/
theorem pop_bound_late :
    let scope := callScope (.ofConfig ⟨.sequential, .live⟩) 1 [.arr ⟨0⟩]
    let operations := [Expr.method (.argument 0) "push" [.bool true]]
    oneArray.Accounted ⟨1, [], 0⟩ ∧ (Value.arr ⟨0⟩).Known ⟨1, [], 0⟩ ∧ Kind.arr.isMethod "pop" = some true ∧
      ∃ ρ : Nat ↪ Nat, (∀ n < 0, ρ n = n) ∧
        (Task.run (bindLast scope (.arr ⟨0⟩) "pop" operations []) oneArray).InStep (Machine.Renamed ρ)
          (fun w w' => w' = w.rename ρ) (Task.run (bindFirst scope (.arr ⟨0⟩) "pop" operations []) oneArray) := by
  have hknown : (Value.arr ⟨0⟩).Known ⟨1, [], 0⟩ := Nat.one_pos
  have hmethod : Kind.arr.isMethod "pop" = some true := by decide
  refine ⟨oneArray_accounted, hknown, hmethod, ?_⟩
  have hlate := ((resolve_agrees_bound_late oneArray (.arr ⟨0⟩) "pop").2 _ oneArray_accounted hknown).2 hmethod
  exact hlate _ _ _ (List.forall_mem_singleton.2 hknown) _ _

end Script

end ScriptValues
