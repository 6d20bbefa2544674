/-
What a machine has made so far. Arrays and functions are numbered in order of creation, and an `Inventory`
lists them; it only grows (`Grows`). A value is `Known` if all that it refers to is in the inventory: its
arrays exist, and its functions are those that were made under their numbers. A machine is `Accounted` for if
it has made just what the inventory lists, and all that it holds is known.

* `Accounted.alloc`, `Accounted.write`, `Accounted.bindMethod`, `Accounted.makeFunction`, `Accounted.assign`:
  what is made or written of known values leaves the machine accounted for.
-/
import ScriptValues.Machine
import ScriptValues.Association

namespace ScriptValues

/-- The arrays and functions that have been made. -/
structure Inventory where
  /-- How many arrays. -/
  arrays : Nat
  /-- The methods that native functions were made of, in order. -/
  natives : List Bound
  /-- How many script functions; the first has number 1. -/
  scripts : Nat

variable {i j k : Inventory}

/-- All that is in the first is in the second, under the same number. -/
structure Inventory.Grows (i j : Inventory) : Prop where
  arrays : i.arrays ≤ j.arrays
  natives : i.natives <+: j.natives
  scripts : i.scripts ≤ j.scripts

theorem Inventory.Grows.refl (i : Inventory) : i.Grows i := ⟨Nat.le_refl _, List.prefix_refl _, Nat.le_refl _⟩

theorem Inventory.Grows.trans (hij : i.Grows j) (hjk : j.Grows k) : i.Grows k :=
  ⟨Nat.le_trans hij.arrays hjk.arrays, hij.natives.trans hjk.natives, Nat.le_trans hij.scripts hjk.scripts⟩

/-! ## Known values -/

/-- The target of the method exists. -/
def Bound.Known (i : Inventory) : Bound → Prop
  | .num _ _ | .str _ _ => True
  | .arr c _ | .callback c _ => c.id < i.arrays

/-- The function is the one that was made under its number. -/
def Fn.Known (i : Inventory) : Fn → Prop
  | .native id b => i.natives[id]? = some b
  | .script id => 0 < id ∧ id ≤ i.scripts

/-- All that the value refers to exists. -/
def Value.Known (i : Inventory) : Value → Prop
  | .arr c => c.id < i.arrays
  | .fn f => f.Known i
  | .errorWith _ info => info.Known i
  | _ => True

theorem Bound.Known.mono {b : Bound} (hij : i.Grows j) (hb : b.Known i) : b.Known j := by
  cases b with
  | num n m | str s m => trivial
  | arr c m | callback c m => exact Nat.lt_of_lt_of_le hb hij.arrays

theorem Fn.Known.mono {f : Fn} (hij : i.Grows j) (hf : f.Known i) : f.Known j := by
  cases f with
  | native id b =>
    obtain ⟨later, hlater⟩ := hij.natives
    obtain ⟨hid, -⟩ := List.getElem?_eq_some_iff.1 hf
    rw [Known, ← hlater, List.getElem?_append_left hid]
    exact hf
  | script id => exact ⟨hf.1, Nat.le_trans hf.2 hij.scripts⟩

theorem Value.Known.mono {v : Value} (hij : i.Grows j) (hv : v.Known i) : v.Known j := by
  induction v with
  | arr c => exact Nat.lt_of_lt_of_le hv hij.arrays
  | fn f => exact Fn.Known.mono hij hv
  | errorWith name info ih => exact ih hv
  | null | bool b | num n | str s | error name => trivial

/-- All values of a list are known. -/
def AllKnown (i : Inventory) (vs : List Value) : Prop := ∀ v ∈ vs, v.Known i

theorem AllKnown.nil : AllKnown i [] := fun _ hv => absurd hv List.not_mem_nil

theorem AllKnown.mono {vs : List Value} (hij : i.Grows j) (hvs : AllKnown i vs) : AllKnown j vs :=
  fun v hv => (hvs v hv).mono hij

theorem AllKnown.getD {vs : List Value} (hvs : AllKnown i vs) (n : Nat) : (vs[n]?.getD .null).Known i := by
  cases hfound : vs[n]? with
  | none => trivial
  | some v => exact hvs v (List.mem_of_getElem? hfound)

/-! ## Machines -/

/-- The machine has made just what the inventory lists, and holds known values only. -/
structure Machine.Accounted (i : Inventory) (s : Machine) : Prop where
  arrays : s.heap.cells.size = i.arrays
  natives : s.natives = i.natives.length
  scripts : s.bodies.size = i.scripts
  bounds : ∀ b ∈ i.natives, b.Known i
  contents : ∀ c, AllKnown i (s.heap.contents c).toList
  globals : ∀ name v, s.globals.lookup name = some v → v.Known i

theorem Heap.contents_of_not_has {h : Heap} {c : Cell} (hc : ¬ h.Has c) : h.contents c = #[] := by
  rw [contents, Array.getD_eq_getD_getElem?, Array.getElem?_eq_none (Nat.le_of_not_lt hc), Option.getD_none]

namespace Machine

theorem start_accounted : start.Accounted ⟨0, [], 0⟩ where
  arrays := rfl
  natives := rfl
  scripts := rfl
  bounds := nofun
  contents c := by
    have hempty : start.heap.contents c = #[] := Heap.contents_of_not_has (Nat.not_lt_zero _)
    rw [hempty]
    exact .nil
  globals := nofun

namespace Accounted

variable {s : Machine} {items : Array Value}

/-- Records may change. -/
theorem beside {s' : Machine} (hs : s.Accounted i) (hheap : s'.heap = s.heap)
    (hnatives : s'.natives = s.natives) (hbodies : s'.bodies = s.bodies)
    (hglobals : s'.globals = s.globals) : s'.Accounted i where
  arrays := by rw [hheap, hs.arrays]
  natives := by rw [hnatives, hs.natives]
  scripts := by rw [hbodies, hs.scripts]
  bounds := hs.bounds
  contents := hheap ▸ hs.contents
  globals := hglobals ▸ hs.globals

theorem alloc (hs : s.Accounted i) (hitems : AllKnown i items.toList) :
    ∃ j, i.Grows j ∧ { s with heap := s.heap.alloc items }.Accounted j ∧ (Value.arr s.heap.next).Known j := by
  let j : Inventory := { i with arrays := i.arrays + 1 }
  have hij : i.Grows j := ⟨Nat.le_succ _, List.prefix_refl _, Nat.le_refl _⟩
  have hnew : s.heap.next.id < i.arrays + 1 := by
    rw [Heap.next, hs.arrays]
    exact Nat.lt_succ_self _
  refine ⟨j, hij, ⟨?_, hs.natives, hs.scripts, fun b hb => (hs.bounds b hb).mono hij, fun c => ?_,
    fun name v hv => (hs.globals name v hv).mono hij⟩, hnew⟩
  · rw [Heap.alloc, Array.size_push, hs.arrays]
  · by_cases hold : s.heap.Has c
    · rw [Heap.contents_alloc_other hold]
      exact (hs.contents c).mono hij
    by_cases hnext : c = s.heap.next
    · rw [hnext, Heap.contents_alloc_self]
      exact hitems.mono hij
    · have hnone : ¬ (s.heap.alloc items).Has c := by
        have hid : c.id ≠ s.heap.cells.size := fun h => hnext (congrArg Cell.mk h)
        rw [Heap.Has, Heap.alloc, Array.size_push]
        rw [Heap.Has] at hold
        omega
      rw [Heap.contents_of_not_has hnone]
      exact .nil

theorem write (hs : s.Accounted i) (hitems : AllKnown i items.toList) (c : Cell) :
    { s with heap := s.heap.write c items }.Accounted i := by
  refine ⟨?_, hs.natives, hs.scripts, hs.bounds, fun d => ?_, hs.globals⟩
  · rw [Heap.write, Array.size_setIfInBounds, hs.arrays]
  · by_cases hd : d = c
    · subst hd
      by_cases hhas : s.heap.Has d
      · rw [Heap.contents_write_self hhas]
        exact hitems
      · have hnone : ¬ (s.heap.write d items).Has d := by
          rwa [Heap.Has, Heap.write, Array.size_setIfInBounds]
        rw [Heap.contents_of_not_has hnone]
        exact .nil
    · rw [Heap.contents_write_other hd]
      exact hs.contents d

theorem bindMethod (hs : s.Accounted i) {b : Bound} (hb : b.Known i) :
    ∃ j, i.Grows j ∧ { s with natives := s.natives + 1 }.Accounted j ∧
      (Value.fn (.native s.natives b)).Known j := by
  let j : Inventory := { i with natives := i.natives ++ [b] }
  have hij : i.Grows j := ⟨Nat.le_refl _, List.prefix_append _ _, Nat.le_refl _⟩
  have hfound : (i.natives ++ [b])[s.natives]? = some b := by rw [hs.natives, List.getElem?_concat_length]
  refine ⟨j, hij, ⟨hs.arrays, ?_, hs.scripts, fun b' hb' => ?_, fun c => (hs.contents c).mono hij,
    fun name v hv => (hs.globals name v hv).mono hij⟩, hfound⟩
  · rw [List.length_append, hs.natives, List.length_singleton]
  · rcases List.mem_append.1 hb' with hold | hnew
    · exact (hs.bounds b' hold).mono hij
    · rw [List.mem_singleton.1 hnew]
      exact hb.mono hij

theorem makeFunction (hs : s.Accounted i) (body : List Expr) :
    ∃ j, i.Grows j ∧ { s with bodies := s.bodies.push body }.Accounted j ∧
      (Value.fn (.script (s.bodies.size + 1))).Known j := by
  let j : Inventory := { i with scripts := i.scripts + 1 }
  have hij : i.Grows j := ⟨Nat.le_refl _, List.prefix_refl _, Nat.le_succ _⟩
  have hnumber : 0 < s.bodies.size + 1 ∧ s.bodies.size + 1 ≤ i.scripts + 1 :=
    ⟨Nat.succ_pos _, Nat.succ_le_succ (Nat.le_of_eq hs.scripts)⟩
  refine ⟨j, hij, ⟨hs.arrays, hs.natives, ?_, fun b hb => (hs.bounds b hb).mono hij,
    fun c => (hs.contents c).mono hij, fun name v hv => (hs.globals name v hv).mono hij⟩, hnumber⟩
  rw [Array.size_push, hs.scripts]

theorem assign (hs : s.Accounted i) {v : Value} (hv : v.Known i) (name : String) :
    { s with globals := setKey name v s.globals }.Accounted i := by
  refine ⟨hs.arrays, hs.natives, hs.scripts, hs.bounds, hs.contents, fun other w hw => ?_⟩
  by_cases hother : other = name
  · subst hother
    rw [lookup_setKey_self, Option.some.injEq] at hw
    exact hw ▸ hv
  · rw [lookup_setKey_other hother] at hw
    exact hs.globals other w hw

end Accounted

end Machine

end ScriptValues
