/-
Cuts of arrays. Each of two numbers is taken for a position counted from either end, be it NaN, an infinity or far
outside (`Num.relativeIndex_eq`), and the elements from one position up to the other are copied to a new array. The
positions are always within the array, so no cut is refused (`slice_exact`).
-/
import ScriptValues.Proofs.Method.Writes
import ScriptValues.Proofs.Number.Counting

namespace ScriptValues

/-! ## The elements of a cut -/

/-- The elements of a range that does not go beyond the end stand at its positions, in order. -/
theorem Items.map_some_range {xs : List Value} {i j : Nat} (hj : j ≤ xs.length) :
    ((xs.take j).drop i).map some = (List.range' i (j - i)).map (xs[·]?) := by
  refine List.ext_getElem? fun k => ?_
  rw [List.getElem?_map, List.getElem?_map, List.getElem?_drop]
  by_cases hk : k < j - i
  · have hin : i + k < xs.length := by omega
    rw [List.getElem?_take_of_lt (by omega), List.getElem?_range' hk, List.getElem?_eq_getElem hin]
    simp [hin]
  · have hout : (List.range' i (j - i)).length ≤ k := by
      rw [List.length_range']
      omega
    rw [List.getElem?_eq_none hout, List.getElem?_eq_none (by simp; omega)]
    rfl

theorem Items.map_some_slice (items : Array Value) (b e : Num) : (slice items b e).map some =
    (List.range' (b.relativeIndex items.size) (e.relativeIndex items.size - b.relativeIndex items.size)).map
      (items[·]?) := by
  rw [slice_eq, map_some_range (Array.length_toList ▸ e.relativeIndex_le items.size)]
  simp only [Array.getElem?_toList]

/-! ## What a script gets -/

/-- The elements at the positions of a range have been copied to a new array, and nothing else has changed. -/
structure Machine.Copied (s s' : Machine) (c new : Cell) (start stop : Nat) : Prop where
  made : ¬ s.heap.Has new ∧ s'.heap.Has new
  elements : (s'.heap.contents new).toList.map some =
    (List.range' start (stop - start)).map ((s.heap.contents c)[·]?)
  spares : s.heap.Spares s'.heap
  rest : s' = { s with heap := s'.heap }

theorem Bound.slice_call_eq (host : Host) (s : Machine) (c : Cell) (b e : Num) :
    (Bound.arr c .slice).call host [.num b, .num e] s =
      .done { s with heap := s.heap.alloc (Items.slice (s.heap.contents c) b e).toArray } (.arr s.heap.next) :=
  Bound.arr_call_eq host c .slice [.num b, .num e] s

theorem Bound.slice_call_copied (host : Host) (s : Machine) (c : Cell) (b e : Num) :
    ∃ s', (Bound.arr c .slice).call host [.num b, .num e] s = .done s' (.arr s.heap.next) ∧
      s.Copied s' c s.heap.next (b.relativeIndex (s.heap.contents c).size) (e.relativeIndex (s.heap.contents c).size) := by
  obtain ⟨new, hnew, hmade⟩ := Heap.makes_alloc (.refl s.heap) (Items.slice (s.heap.contents c) b e).toArray
  cases hnew
  refine ⟨_, slice_call_eq host s c b e, hmade, ?_, s.heap.spares_alloc _, rfl⟩
  rw [Heap.contents_alloc_self]
  exact Items.map_some_slice _ b e

/-- **A cut of an array is exact and never out of range**: its ends are the integer parts of two numbers, counted from
either end and taken no further than to the ends of the array, and a new array holds just the elements between them. -/
theorem slice_exact :
    (∀ (x : Num) (len : Nat), len ≤ 2 ^ 63 - 1 →
      (x.relativeIndex len : EInt) = (if 0 ≤ x.part then min (len : EInt) x.part else max 0 (len + x.part)) ∧
      x.relativeIndex len ≤ len) ∧
    ∀ (host : Host) (s : Machine) (c : Cell) (b e : Num),
      (∃ cut, Items.cut (s.heap.contents c) b e = .ok cut) ∧
      ∃ s' new, (Bound.arr c .slice).call host [.num b, .num e] s = .done s' (.arr new) ∧
        s.Copied s' c new (b.relativeIndex (s.heap.contents c).size) (e.relativeIndex (s.heap.contents c).size) := by
  constructor
  · intro x len hlen
    exact ⟨x.relativeIndex_eq hlen, x.relativeIndex_le len⟩
  · intro host s c b e
    obtain ⟨s', hcall, hcopied⟩ := Bound.slice_call_copied host s c b e
    exact ⟨⟨_, Items.cut_eq _ b e⟩, s', _, hcall, hcopied⟩

/-- From the second element before the end on without end, the last two elements are copied. -/
theorem slice_exact_last_two :
    let host : Host := ⟨fun _ _ => pure .null, {}, 8⟩
    let s : Machine := { Machine.start with heap := ⟨#[#[.str "a", .str "b", .str "c"]]⟩ }
    let b := Num.ofInt (-2)
    let e := Num.infinity false
    3 ≤ 2 ^ 63 - 1 ∧
      (b.relativeIndex 3 : EInt) = (if 0 ≤ b.part then min ((3 : Nat) : EInt) b.part else max 0 ((3 : Nat) + b.part)) ∧
      ∃ s' new, (Bound.arr ⟨0⟩ .slice).call host [.num b, .num e] s = .done s' (.arr new) ∧
        (s'.heap.contents new).toList = [.str "b", .str "c"] := by
  intro host s b e
  have hlen : 3 ≤ 2 ^ 63 - 1 := by decide
  obtain ⟨hindex, hslice⟩ := slice_exact
  obtain ⟨-, s', new, hcall, hcopied⟩ := hslice host s ⟨0⟩ b e
  have hrange : (List.range' (b.relativeIndex 3) (e.relativeIndex 3 - b.relativeIndex 3)).map
      ((s.heap.contents ⟨0⟩)[·]?) = [.str "b", .str "c"].map some := by decide +kernel
  have hcontents := hcopied.elements.trans hrange
  exact ⟨hlen, (hindex b 3 hlen).1, s', new, hcall, List.map_injective_iff.2 (Option.some_injective _) hcontents⟩

end ScriptValues
