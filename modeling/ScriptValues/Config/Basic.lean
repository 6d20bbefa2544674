/-
The configuration of the methods that call back: whether `map` runs its calls side by side, and
whether `filter`, `reduce` and `find` see changes to the array while they run. A mode is chosen by its name (`Modes`).
-/

namespace ScriptValues

/-- How `map` issues its calls. -/
inductive MapMode
  /-- All side by side; results are gathered in order. -/
  | concurrent
  /-- Each after the one before is done. -/
  | sequential
deriving DecidableEq, Inhabited

/-- What `filter`, `reduce` and `find` run over. -/
inductive IterationMode
  /-- The array as it is at each step, up to its current end. -/
  | live
  /-- The elements that were there at the start. -/
  | snapshot
deriving DecidableEq, Inhabited

structure Config where
  map : MapMode := .concurrent
  iteration : IterationMode := .live
deriving DecidableEq, Inhabited

/-! ## Names of modes -/

/-- The modes of one choice, and what each of them is called. -/
structure Modes (μ : Type) where
  all : List μ
  name : μ → String
  mem_all : ∀ mode, mode ∈ all
  name_injective : ∀ mode mode', name mode = name mode' → mode = mode'

namespace Modes

variable {μ : Type}

/-- The mode of a name. -/
def ofName? (modes : Modes μ) (name : String) : Option μ := modes.all.find? (modes.name · == name)

theorem ofName?_eq_some_iff (modes : Modes μ) {name : String} {mode : μ} :
    modes.ofName? name = some mode ↔ modes.name mode = name := by
  have hfound {name : String} {mode : μ} (h : modes.ofName? name = some mode) : modes.name mode = name :=
    eq_of_beq (List.find?_some (p := (modes.name · == name)) h)
  refine ⟨hfound, ?_⟩
  rintro rfl
  obtain ⟨other, hother⟩ : ∃ other, modes.ofName? (modes.name mode) = some other :=
    Option.isSome_iff_exists.1 (List.find?_isSome.2 ⟨mode, modes.mem_all mode, beq_self_eq_true _⟩)
  rw [hother, modes.name_injective other mode (hfound hother)]

end Modes

def MapMode.name : MapMode → String
  | .concurrent => "concurrent"
  | .sequential => "sequential"

def MapMode.modes : Modes MapMode where
  all := [.concurrent, .sequential]
  name := name
  mem_all mode := by cases mode <;> decide
  name_injective mode mode' := by cases mode <;> cases mode' <;> decide

def IterationMode.name : IterationMode → String
  | .live => "live"
  | .snapshot => "snapshot"

def IterationMode.modes : Modes IterationMode where
  all := [.live, .snapshot]
  name := name
  mem_all mode := by cases mode <;> decide
  name_injective mode mode' := by cases mode <;> cases mode' <;> decide

end ScriptValues
