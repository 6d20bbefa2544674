/-
Searches of arrays. A search answers with the first position from its start on that holds an element structurally equal
to the value (`Heap.HoldsAt`), or with -1, and changes nothing, also where the array contains itself or is looked for in
itself (`array_search`). The positions that hold the value are a list in increasing order (`Heap.hits`), of which a search
finds the head (`Heap.indexOf_eq_head?`); a script that searches on behind what was found goes down that list
(`searches_iff`).
-/
import Mathlib.Data.List.Sort
import ScriptValues.Proofs.Heap.Bisimulation
import ScriptValues.Proofs.Method.Writes
import ScriptValues.Proofs.Number.Counting

namespace ScriptValues

/-! ## Positions that hold a value -/

namespace Heap

variable {h : Heap} {items : Array Value} {v : Value} {start i : Nat}

/-- The element at a position is structurally equal to a value. -/
def HoldsAt (h : Heap) (items : Array Value) (v : Value) (i : Nat) : Prop :=
  ∃ w, items[i]? = some w ∧ ∃ R, h.Bisimulation R ∧ Value.Related R w v

/-- The positions from a start on whose elements compare equal to a value. -/
def hits (h : Heap) (items : Array Value) (v : Value) (start : Nat) : List Nat :=
  (List.range' start (items.size - start)).filter fun i => items[i]?.any (h.eq · v)

theorem any_eq_iff_holdsAt : items[i]?.any (h.eq · v) = true ↔ h.HoldsAt items v i := by
  rw [Option.any_eq_true]
  exact exists_congr fun w => and_congr_right fun _ => eq_true_iff

theorem HoldsAt.lt (hi : h.HoldsAt items v i) : i < items.size := by
  obtain ⟨w, hw, -⟩ := hi
  exact (Array.getElem?_eq_some_iff.1 hw).1

theorem mem_hits : i ∈ h.hits items v start ↔ start ≤ i ∧ h.HoldsAt items v i := by
  rw [hits, List.mem_filter, any_eq_iff_holdsAt, List.mem_range'_1]
  constructor
  · intro hmem
    exact ⟨hmem.1.1, hmem.2⟩
  · intro hmem
    have hlt := hmem.2.lt
    exact ⟨by omega, hmem.2⟩

theorem hits_increasing (h : Heap) (items : Array Value) (v : Value) (start : Nat) :
    (h.hits items v start).Pairwise (· < ·) :=
  (List.pairwise_lt_range' 1).filter _

theorem isLeast_of_hits {rest : List Nat} (hhits : h.hits items v start = i :: rest) :
    IsLeast {j | start ≤ j ∧ h.HoldsAt items v j} i := by
  have hsorted := hhits ▸ h.hits_increasing items v start
  have hmem : ∀ j, j ∈ i :: rest ↔ start ≤ j ∧ h.HoldsAt items v j := fun j => hhits ▸ mem_hits
  refine ⟨(hmem i).1 List.mem_cons_self, fun j hj => ?_⟩
  rcases List.mem_cons.1 ((hmem j).2 hj) with rfl | hrest
  · exact Nat.le_refl _
  · exact Nat.le_of_lt ((List.pairwise_cons.1 hsorted).1 j hrest)

/-- Behind the first position that holds the value are the others. -/
theorem hits_succ {rest : List Nat} (hhits : h.hits items v start = i :: rest) : h.hits items v (i + 1) = rest := by
  have hsorted := hhits ▸ h.hits_increasing items v start
  obtain ⟨hlt, hrest⟩ := List.pairwise_cons.1 hsorted
  refine (h.hits_increasing items v (i + 1)).eq_of_mem_iff hrest fun j => ?_
  have hj : j ∈ i :: rest ↔ start ≤ j ∧ h.HoldsAt items v j := hhits ▸ mem_hits
  have hi : start ≤ i := (isLeast_of_hits hhits).1.1
  rw [mem_hits]
  constructor
  · rintro ⟨hle, hholds⟩
    exact (List.mem_cons.1 (hj.2 ⟨by omega, hholds⟩)).resolve_left (by omega)
  · intro hmem
    exact ⟨hlt j hmem, (hj.1 (List.mem_cons_of_mem _ hmem)).2⟩

/-- The first hit in what is left of a list, counted from the start of the list. -/
theorem findIdx?_drop (xs : List Value) (p : Value → Bool) (start : Nat) :
    ((xs.drop start).findIdx? p).map (· + start) =
      (List.range' start (xs.length - start)).find? fun i => xs[i]?.any p := by
  induction hleft : xs.length - start generalizing start with
  | zero =>
    rw [List.drop_eq_nil_of_le (by omega)]
    rfl
  | succ left ih =>
    have hin : start < xs.length := by omega
    have hrest := ih (start + 1) (by omega)
    rw [List.drop_eq_getElem_cons hin, List.findIdx?_cons, List.range'_succ, List.find?_cons,
      List.getElem?_eq_getElem hin, Option.any_some, ← hrest]
    by_cases hp : p xs[start] = true
    · simp [hp]
    · simp [hp, Function.comp_def, Nat.add_assoc, Nat.add_comm 1]

/-- **A search finds the head of the positions that hold the value.** -/
theorem indexOf_eq_head? (h : Heap) (items : Array Value) (v : Value) (from? : Option Num) : h.indexOf items v from? =
    (h.hits items v (from?.elim 0 (·.relativeIndex items.size))).head? := by
  rw [indexOf_eq, findIdx?_drop, hits, List.head?_filter, Array.length_toList]
  simp only [Array.getElem?_toList]

end Heap

/-! ## The start of a search -/

/-- Where a search is told to begin: at the start if nothing is said, at the integer part of a number, or if that is
negative so far before the end, and never outside. -/
noncomputable def searchedFrom (length : Nat) : Option Num → EInt
  | none => 0
  | some x => if 0 ≤ x.part then min (length : EInt) x.part else max 0 (length + x.part)

theorem searchedFrom_eq {length : Nat} (hlength : length ≤ 2 ^ 63 - 1) (from? : Option Num) :
    searchedFrom length from? = (from?.elim 0 (·.relativeIndex length) : Nat) := by
  cases from? with
  | none => rfl
  | some x => exact (x.relativeIndex_eq hlength).symm

theorem searchedFrom_le_iff {length : Nat} (hlength : length ≤ 2 ^ 63 - 1) {from? : Option Num} {i : Nat} :
    searchedFrom length from? ≤ (i : EInt) ↔ from?.elim 0 (·.relativeIndex length) ≤ i := by
  rw [searchedFrom_eq hlength]
  exact (WithBotTop.coe_le_coe (a := ((_ : Nat) : Int))).trans Int.ofNat_le

/-- The positions that are searched and hold the value. -/
def Heap.matched (h : Heap) (items : Array Value) (v : Value) (from? : Option Num) : Set ℕ :=
  {i | searchedFrom items.size from? ≤ (i : EInt) ∧ h.HoldsAt items v i}

theorem Heap.matched_eq {h : Heap} {items : Array Value} (hlength : items.size ≤ 2 ^ 63 - 1) (v : Value)
    (from? : Option Num) : h.matched items v from? =
      {i | from?.elim 0 (·.relativeIndex items.size) ≤ i ∧ h.HoldsAt items v i} :=
  Set.ext fun _ => and_congr_left' (searchedFrom_le_iff hlength)

/-! ## What a script finds -/

/-- The number is the least of the positions, or -1 if there are none. -/
structure IsFirstOf (positions : Set ℕ) (n : Num) : Prop where
  least : ∀ i : ℕ, n.Is i ↔ IsLeast positions i
  none : n = .ofInt (-1) ↔ positions = ∅

theorem isFirstOf_empty : IsFirstOf ∅ (.ofInt (-1)) where
  least i := iff_of_false (Num.not_is_neg_one i) fun h => h.1
  none := iff_of_true rfl rfl

theorem isFirstOf_ofNat {positions : Set ℕ} {i : ℕ} (hi : i ≤ 2 ^ 53) (hleast : IsLeast positions i) :
    IsFirstOf positions (.ofNat i) where
  least j := by
    rw [Num.ofNat_is_iff hi]
    constructor
    · rintro rfl
      exact hleast
    · exact hleast.unique
  none := by
    refine iff_of_false (fun heq => ?_) (Set.nonempty_iff_ne_empty.1 ⟨i, hleast.1⟩)
    exact Num.not_is_neg_one i (heq ▸ Num.ofNat_is hi)

theorem Bound.indexOf_call_eq (host : Host) (s : Machine) (c : Cell) (v : Value) (from? : Option Num) :
    (Bound.arr c .indexOf).call host (v :: (from?.map Value.num).toList) s =
      .done s (.num ((s.heap.indexOf (s.heap.contents c) v from?).elim (.ofInt (-1)) .ofNat)) := by
  cases from? <;> exact Bound.arr_call_eq host c .indexOf _ s

theorem Bound.incl_call_eq (host : Host) (s : Machine) (c : Cell) (v : Value) :
    (Bound.arr c .incl).call host [v] s = .done s (.bool ((s.heap.contents c).toList.any (s.heap.eq · v))) :=
  Bound.arr_call_eq host c .incl [v] s

theorem Heap.isFirstOf_indexOf {h : Heap} {items : Array Value} (hlength : items.size < 2 ^ 53) (v : Value)
    (from? : Option Num) :
    IsFirstOf (h.matched items v from?) ((h.indexOf items v from?).elim (.ofInt (-1)) .ofNat) := by
  rw [matched_eq (by omega), indexOf_eq_head?]
  generalize from?.elim 0 (·.relativeIndex items.size) = start
  cases hhits : h.hits items v start with
  | nil =>
    have hempty : {i | start ≤ i ∧ h.HoldsAt items v i} = ∅ := by
      refine Set.eq_empty_of_forall_notMem fun i hi => ?_
      exact List.not_mem_nil (hhits ▸ mem_hits.2 hi)
    rw [hempty, List.head?_nil, Option.elim_none]
    exact isFirstOf_empty
  | cons i rest =>
    have hleast := isLeast_of_hits hhits
    have hlt := hleast.1.2.lt
    rw [List.head?_cons, Option.elim_some]
    exact isFirstOf_ofNat (by omega) hleast

theorem Heap.any_eq_iff_indexOf_ne {h : Heap} {items : Array Value} (hlength : items.size < 2 ^ 53) (v : Value) :
    items.toList.any (h.eq · v) = true ↔ (h.indexOf items v none).elim (Num.ofInt (-1)) .ofNat ≠ .ofInt (-1) := by
  rw [Ne, (h.isFirstOf_indexOf hlength v none).none, ← Ne, ← Set.nonempty_iff_ne_empty, matched_eq (by omega),
    List.any_eq_true]
  constructor
  · rintro ⟨w, hw, heq⟩
    obtain ⟨i, hi⟩ := List.mem_iff_getElem?.1 hw
    exact ⟨i, Nat.zero_le i, w, by rw [← hi, Array.getElem?_toList], eq_true_iff.1 heq⟩
  · rintro ⟨i, -, w, hw, hrelated⟩
    exact ⟨w, List.mem_iff_getElem?.2 ⟨i, by rw [Array.getElem?_toList, hw]⟩, eq_true_iff.2 hrelated⟩

/-! ## Searching on -/

/-- A script searches an array for a value, and after each position that it finds from the next one on, until the answer
is -1. -/
inductive Searches (host : Host) (c : Cell) (v : Value) : Machine → Option Num → List Num → Machine → Prop
  | stop {s s' from? n} : (Bound.arr c .indexOf).call host (v :: (from?.map Value.num).toList) s = .done s' (.num n) →
      n.eq (.ofInt (-1)) = true → Searches host c v s from? [] s'
  | next {s s' s'' from? n found} :
      (Bound.arr c .indexOf).call host (v :: (from?.map Value.num).toList) s = .done s' (.num n) →
      n.eq (.ofInt (-1)) = false → Searches host c v s' (some (n.add (.ofNat 1))) found s'' →
      Searches host c v s from? (n :: found) s''

section

variable {host : Host} {s s' : Machine} {c : Cell} {v : Value} {from? : Option Num} {n : Num} {found : List Num}

theorem searches_of_eq_neg_one
    (hcall : (Bound.arr c .indexOf).call host (v :: (from?.map Value.num).toList) s = .done s (.num n))
    (hn : n.eq (.ofInt (-1)) = true) : Searches host c v s from? found s' ↔ found = [] ∧ s' = s := by
  constructor
  · intro hsearches
    cases hsearches with
    | stop hstop _ =>
      cases hcall.symm.trans hstop
      exact ⟨rfl, rfl⟩
    | next hnext hne _ =>
      cases hcall.symm.trans hnext
      exact absurd (hne.symm.trans hn) Bool.false_ne_true
  · rintro ⟨rfl, rfl⟩
    exact .stop hcall hn

theorem searches_of_ne_neg_one
    (hcall : (Bound.arr c .indexOf).call host (v :: (from?.map Value.num).toList) s = .done s (.num n))
    (hn : n.eq (.ofInt (-1)) = false) : Searches host c v s from? found s' ↔
      ∃ rest, Searches host c v s (some (n.add (.ofNat 1))) rest s' ∧ found = n :: rest := by
  constructor
  · intro hsearches
    cases hsearches with
    | stop hstop heq =>
      cases hcall.symm.trans hstop
      exact absurd (hn.symm.trans heq) Bool.false_ne_true
    | next hnext _ hon =>
      cases hcall.symm.trans hnext
      exact ⟨_, hon, rfl⟩
  · rintro ⟨rest, hon, rfl⟩
    exact .next hcall hn hon

theorem Bound.indexOf_call_of_hits (host : Host) {hits : List ℕ}
    (hhits : s.heap.hits (s.heap.contents c) v (from?.elim 0 (·.relativeIndex (s.heap.contents c).size)) = hits) :
    (Bound.arr c .indexOf).call host (v :: (from?.map Value.num).toList) s =
      .done s (.num (hits.head?.elim (.ofInt (-1)) .ofNat)) := by
  rw [indexOf_call_eq, Heap.indexOf_eq_head?, hhits]

/-- What is found by searching on are the positions that hold the value, one after the other. -/
theorem searches_iff (hlength : (s.heap.contents c).size < 2 ^ 53) (from? : Option Num) (found : List Num) :
    Searches host c v s from? found s' ↔
      found = (s.heap.hits (s.heap.contents c) v
        (from?.elim 0 (·.relativeIndex (s.heap.contents c).size))).map .ofNat ∧ s' = s := by
  generalize hhits : s.heap.hits (s.heap.contents c) v (from?.elim 0 (·.relativeIndex (s.heap.contents c).size)) = hits
  induction hits generalizing from? found with
  | nil =>
    have hcall := Bound.indexOf_call_of_hits host hhits
    rw [List.head?_nil, Option.elim_none] at hcall
    exact searches_of_eq_neg_one hcall (by decide +kernel)
  | cons i rest ih =>
    have hlt := (Heap.isLeast_of_hits hhits).1.2.lt
    let behind : Option Num := some ((Num.ofNat i).add (.ofNat 1))
    have hrest : s.heap.hits (s.heap.contents c) v (behind.elim 0 (·.relativeIndex (s.heap.contents c).size)) = rest := by
      rw [Option.elim_some, Num.relativeIndex_behind hlength hlt]
      exact Heap.hits_succ hhits
    have hon := fun found => ih behind found hrest
    have hcall := Bound.indexOf_call_of_hits host hhits
    rw [List.head?_cons, Option.elim_some] at hcall
    rw [List.map_cons, searches_of_ne_neg_one hcall (Num.ofNat_ne_neg_one (by omega))]
    constructor
    · rintro ⟨found, hsearches, rfl⟩
      obtain ⟨rfl, rfl⟩ := (hon found).1 hsearches
      exact ⟨rfl, rfl⟩
    · rintro ⟨rfl, rfl⟩
      exact ⟨_, (hon _).2 ⟨rfl, rfl⟩, rfl⟩

end

/-- **Search agrees with structural equality and with itself**: `indexOf` answers with the first position from its start
on that holds the value, `incl` says whether there is one at all, and searching on behind what was found lists all of
them in order; nothing is changed by it, whatever the arrays contain. -/
theorem array_search (host : Host) (s : Machine) (c : Cell) (v : Value) (from? : Option Num)
    (hlength : (s.heap.contents c).size < 2 ^ 53) :
    ∃ n m b,
      (Bound.arr c .indexOf).call host (v :: (from?.map Value.num).toList) s = .done s (.num n) ∧
      IsFirstOf (s.heap.matched (s.heap.contents c) v from?) n ∧
      (Bound.arr c .indexOf).call host [v] s = .done s (.num m) ∧
      (Bound.arr c .incl).call host [v] s = .done s (.bool b) ∧ (b = true ↔ m ≠ .ofInt (-1)) ∧
      ∃ positions : List ℕ, positions.Pairwise (· < ·) ∧
        (∀ i, i ∈ positions ↔ i ∈ s.heap.matched (s.heap.contents c) v from?) ∧
        ∀ found s', Searches host c v s from? found s' ↔ found = positions.map .ofNat ∧ s' = s := by
  refine ⟨_, _, _, Bound.indexOf_call_eq host s c v from?, s.heap.isFirstOf_indexOf hlength v from?,
    Bound.indexOf_call_eq host s c v none, Bound.incl_call_eq host s c v, s.heap.any_eq_iff_indexOf_ne hlength v,
    _, s.heap.hits_increasing _ v _, fun i => ?_, fun found s' => searches_iff hlength from? found⟩
  rw [Heap.matched_eq (by omega)]
  exact Heap.mem_hits

/-- Two arrays that contain themselves and each other are equal: searched for in itself, the first is found twice. -/
theorem array_search_ring :
    let host : Host := ⟨fun _ _ => pure .null, {}, 8⟩
    let ring : Heap := ⟨#[#[.arr ⟨0⟩, .null, .arr ⟨1⟩], #[.arr ⟨1⟩, .null, .arr ⟨0⟩]]⟩
    let s : Machine := { Machine.start with heap := ring }
    (s.heap.contents ⟨0⟩).size < 2 ^ 53 ∧
      ∀ found s', Searches host ⟨0⟩ (.arr ⟨0⟩) s none found s' ↔ found = [.ofNat 0, .ofNat 2] ∧ s' = s := by
  intro host ring s
  have hlength : (s.heap.contents ⟨0⟩).size < 2 ^ 53 := by decide
  obtain ⟨-, -, -, -, -, -, -, -, positions, hincreasing, hmem, hsearches⟩ :=
    array_search host s ⟨0⟩ (.arr ⟨0⟩) none hlength
  have hpositions : positions = s.heap.hits (s.heap.contents ⟨0⟩) (.arr ⟨0⟩) 0 := by
    refine hincreasing.eq_of_mem_iff (s.heap.hits_increasing ..) fun i => ?_
    rw [hmem, Heap.matched_eq (by decide), Heap.mem_hits]
    rfl
  have hhits : s.heap.hits (s.heap.contents ⟨0⟩) (.arr ⟨0⟩) 0 = [0, 2] := by decide +kernel
  rw [hpositions, hhits] at hsearches
  exact ⟨hlength, hsearches⟩

end ScriptValues
