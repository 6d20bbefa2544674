/-
The comparison of two values as it goes, with nothing to bound it. `Heap.Compares h path v w answer` is a
finite account of it: which pairs are looked into, in which order, and what answer comes out. An account
ends where values differ or agree at once, where a cell meets itself, and where a pair of cells is met that
is still under comparison further up (`path`).

* `Compares.unique`: there is at most one answer.
* `compares_cells`, `compares_eq`: there is one, and it is that of `Heap.eq`. No path holds a pair twice, and
  a pair that is looked into any further is one of two cells of the heap; so the comparison ends by itself,
  before `Heap.eq` reaches its bound.
-/
import Mathlib.Data.List.Nodup
import Mathlib.Data.List.Perm.Subperm
import Mathlib.Data.List.ProdSigma
import ScriptValues.Heap.Equal

namespace ScriptValues

/-- The values are neither two arrays nor two errors that carry values: nothing has to be looked into. -/
def Value.Plain : Value → Value → Prop
  | .arr _, .arr _ => False
  | .errorWith _ _, .errorWith _ _ => False
  | _, _ => True

theorem Value.eqWith_of_plain {v w : Value} (h : v.Plain w) (cells cells' : Cell → Cell → Bool) :
    v.eqWith cells w = v.eqWith cells' w := by
  cases v <;> cases w <;> first | rfl | exact absurd h id

namespace Heap

/-- The comparison of two values comes to an end with this answer; `path` are the pairs of cells under
comparison further up. -/
inductive Compares (h : Heap) : (path : List (Cell × Cell)) → Value → Value → (answer : Bool) → Prop
  | plain {path v w} : v.Plain w → Compares h path v w (v.eqWith (fun _ _ => false) w)
  | name {path m n v w} : m ≠ n → Compares h path (.errorWith m v) (.errorWith n w) false
  | info {path n v w answer} : Compares h path v w answer →
      Compares h path (.errorWith n v) (.errorWith n w) answer
  | same {path a} : Compares h path (.arr a) (.arr a) true
  | met {path a b} : (a, b) ∈ path → Compares h path (.arr a) (.arr b) true
  | size {path a b} : a ≠ b → (a, b) ∉ path → (h.contents a).size ≠ (h.contents b).size →
      Compares h path (.arr a) (.arr b) false
  /-- All elements are compared, and all are equal. -/
  | alike {path a b} : a ≠ b → (a, b) ∉ path → (h.contents a).size = (h.contents b).size →
      (∀ (i : Nat) v w, (h.contents a)[i]? = some v → (h.contents b)[i]? = some w →
        Compares h ((a, b) :: path) v w true) →
      Compares h path (.arr a) (.arr b) true
  /-- The elements at `i` are the first to differ, and the last to be compared. -/
  | unlike {path a b} (i : Nat) {v w} : a ≠ b → (a, b) ∉ path → (h.contents a).size = (h.contents b).size →
      (∀ j < i, ∀ v w, (h.contents a)[j]? = some v → (h.contents b)[j]? = some w →
        Compares h ((a, b) :: path) v w true) →
      (h.contents a)[i]? = some v → (h.contents b)[i]? = some w →
      Compares h ((a, b) :: path) v w false →
      Compares h path (.arr a) (.arr b) false

variable {h : Heap}

/-- **A comparison has one answer.** -/
theorem Compares.unique {path : List (Cell × Cell)} {v w : Value} {answer answer' : Bool}
    (hc : h.Compares path v w answer) (hc' : h.Compares path v w answer') : answer = answer' := by
  induction hc generalizing answer' with
  | plain hp =>
    cases hc' with
    | plain _ => rfl
    | name _ | info _ | same | met _ | size _ _ _ | alike _ _ _ _ | unlike _ _ _ _ _ _ _ _ =>
      exact absurd hp id
  | name hn =>
    cases hc' with
    | plain hp => exact absurd hp id
    | name _ => rfl
    | info _ => exact absurd rfl hn
  | info _ ih =>
    cases hc' with
    | plain hp => exact absurd hp id
    | name hn => exact absurd rfl hn
    | info hv => exact ih hv
  | same =>
    cases hc' with
    | plain hp => exact absurd hp id
    | same | met _ | alike _ _ _ _ => rfl
    | size hne _ _ | unlike _ hne _ _ _ _ _ _ => exact absurd rfl hne
  | met hmem =>
    cases hc' with
    | plain hp => exact absurd hp id
    | same | met _ | alike _ _ _ _ => rfl
    | size _ hnot _ | unlike _ _ hnot _ _ _ _ _ => exact absurd hmem hnot
  | size hne hnot hsize =>
    cases hc' with
    | plain hp => exact absurd hp id
    | same => exact absurd rfl hne
    | met hmem => exact absurd hmem hnot
    | size _ _ _ => rfl
    | alike _ _ heq _ | unlike _ _ _ heq _ _ _ _ => exact absurd heq hsize
  | alike hne hnot heq _ ih =>
    cases hc' with
    | plain hp => exact absurd hp id
    | same | met _ | alike _ _ _ _ => rfl
    | size _ _ hsize => exact absurd heq hsize
    | unlike i _ _ _ _ hv hw hdiffer => exact ih i _ _ hv hw hdiffer
  | unlike i hne hnot heq _ hv hw _ _ ih =>
    cases hc' with
    | plain hp => exact absurd hp id
    | same => exact absurd rfl hne
    | met hmem => exact absurd hmem hnot
    | alike _ _ _ hall => exact ih (hall i _ _ hv hw)
    | size _ _ _ | unlike _ _ _ _ _ _ _ _ => rfl

/-! ## The answer of the bounded comparison -/

/-- Values are compared as far as cells are. -/
theorem compares_of_cells {path : List (Cell × Cell)} {cells : Cell → Cell → Bool}
    (hcells : ∀ a b, h.Compares path (.arr a) (.arr b) (cells a b)) (v w : Value) :
    h.Compares path v w (v.eqWith cells w) := by
  induction v generalizing w with
  | arr a =>
    cases w with
    | arr b => exact hcells a b
    | _ => exact .plain trivial
  | errorWith m v ih =>
    cases w with
    | errorWith n w =>
      by_cases hname : m = n
      · subst hname
        simpa [Value.eqWith] using Compares.info (ih w)
      · have hnames : (m == n) = false := beq_eq_false_iff_ne.2 hname
        simpa [Value.eqWith, hnames] using Compares.name hname
    | _ => exact .plain trivial
  | _ =>
    rw [Value.eqWith_of_plain (by cases w <;> trivial) cells fun _ _ => false]
    exact .plain (by cases w <;> trivial)

theorem pairwise_eq_true_iff {eq : Value → Value → Bool} {vs ws : List Value} :
    pairwise eq vs ws = true ↔ vs.length = ws.length ∧
      ∀ (i : Nat) v w, vs[i]? = some v → ws[i]? = some w → eq v w = true := by
  induction vs generalizing ws with
  | nil => cases ws <;> simp [pairwise]
  | cons v vs ih =>
    cases ws with
    | nil => simp [pairwise]
    | cons w ws =>
      simp only [pairwise, Bool.and_eq_true, ih, List.length_cons, Nat.add_right_cancel_iff]
      constructor
      · rintro ⟨hvw, hlen, hrest⟩
        refine ⟨hlen, fun i x y hx hy => ?_⟩
        cases i with
        | zero => simp_all
        | succ i => exact hrest i x y hx hy
      · rintro ⟨hlen, hall⟩
        exact ⟨hall 0 v w rfl rfl, hlen, fun i x y hx hy => hall (i + 1) x y hx hy⟩

/-- Sequences of one length that are not equal differ at a first place. -/
theorem exists_first_of_pairwise_eq_false {eq : Value → Value → Bool} {vs ws : List Value}
    (hlen : vs.length = ws.length) (hdiffer : pairwise eq vs ws = false) :
    ∃ (i : Nat) (v w : Value), vs[i]? = some v ∧ ws[i]? = some w ∧ eq v w = false ∧
      ∀ j < i, ∀ v w, vs[j]? = some v → ws[j]? = some w → eq v w = true := by
  induction vs generalizing ws with
  | nil =>
    obtain rfl := List.eq_nil_of_length_eq_zero hlen.symm
    simp [pairwise] at hdiffer
  | cons v vs ih =>
    obtain ⟨w, ws, rfl⟩ := List.exists_cons_of_length_eq_add_one hlen.symm
    cases hvw : eq v w with
    | false => exact ⟨0, v, w, rfl, rfl, hvw, fun j hj => absurd hj (Nat.not_lt_zero j)⟩
    | true =>
      simp only [pairwise, hvw, Bool.true_and] at hdiffer
      obtain ⟨i, x, y, hx, hy, hxy, hbefore⟩ := ih (Nat.succ_inj.1 hlen) hdiffer
      refine ⟨i + 1, x, y, hx, hy, hxy, fun j hj x' y' hx' hy' => ?_⟩
      cases j with
      | zero => simp_all
      | succ j => exact hbefore j (Nat.lt_of_succ_lt_succ hj) x' y' hx' hy'

/-- Two cells are compared as far as their elements are. -/
theorem compares_of_elements {path : List (Cell × Cell)} {a b : Cell} {eq : Value → Value → Bool}
    (hne : a ≠ b) (hnot : (a, b) ∉ path) (hsize : (h.contents a).size = (h.contents b).size)
    (heq : ∀ v ∈ h.contents a, ∀ w ∈ h.contents b, h.Compares ((a, b) :: path) v w (eq v w)) :
    h.Compares path (.arr a) (.arr b)
      (pairwise eq (h.contents a).toList (h.contents b).toList) := by
  have helement : ∀ {i : Nat} {v w}, (h.contents a)[i]? = some v → (h.contents b)[i]? = some w →
      h.Compares ((a, b) :: path) v w (eq v w) :=
    fun hv hw => heq _ (Array.mem_of_getElem? hv) _ (Array.mem_of_getElem? hw)
  cases hall : pairwise eq (h.contents a).toList (h.contents b).toList with
  | true =>
    refine .alike hne hnot hsize fun i v w hv hw => ?_
    have hvw : eq v w = true :=
      (pairwise_eq_true_iff.1 hall).2 i v w (by simpa using hv) (by simpa using hw)
    exact hvw ▸ helement hv hw
  | false =>
    obtain ⟨i, v, w, hv, hw, hvw, hbefore⟩ := exists_first_of_pairwise_eq_false (by simpa) hall
    rw [Array.getElem?_toList] at hv hw
    refine .unlike i hne hnot hsize (fun j hj x y hx hy => ?_) hv hw (hvw ▸ helement hv hw)
    have hxy : eq x y = true := hbefore j hj x y (by simpa using hx) (by simpa using hy)
    exact hxy ▸ helement hx hy

/-! ## The bound -/

/-- The path holds each pair once, and only pairs of cells of the heap. -/
structure Path (h : Heap) (path : List (Cell × Cell)) : Prop where
  nodup : path.Nodup
  has : ∀ p ∈ path, h.Has p.1 ∧ h.Has p.2

theorem Path.nil : h.Path [] := ⟨.nil, by simp⟩

theorem Path.cons {path : List (Cell × Cell)} {a b : Cell} (hpath : h.Path path) (hnot : (a, b) ∉ path)
    (ha : h.Has a) (hb : h.Has b) : h.Path ((a, b) :: path) :=
  ⟨List.nodup_cons.2 ⟨hnot, hpath.nodup⟩, List.forall_mem_cons.2 ⟨⟨ha, hb⟩, hpath.has⟩⟩

/-- There are no more pairs than the bound allows for. -/
theorem Path.length_lt {path : List (Cell × Cell)} (hpath : h.Path path) :
    path.length < h.pathBound := by
  let ids := path.map fun p => (p.1.id, p.2.id)
  let all := List.range h.cells.size ×ˢ List.range h.cells.size
  have hinj : Function.Injective fun p : Cell × Cell => (p.1.id, p.2.id) := by
    rintro ⟨⟨a⟩, ⟨b⟩⟩ ⟨⟨c⟩, ⟨d⟩⟩ heq
    simpa using heq
  have hsub : ids ⊆ all := by
    intro q hq
    obtain ⟨p, hp, rfl⟩ := List.mem_map.1 hq
    simpa [all, Has] using hpath.has p hp
  have hle : ids.length ≤ all.length := (List.subperm_of_subset (List.Nodup.map hinj hpath.nodup) hsub).length_le
  simp only [ids, all, List.length_map, List.length_product, List.length_range] at hle
  exact Nat.lt_succ_of_le hle

/-- A cell with an element is a cell of the heap. -/
theorem has_of_mem_contents {c : Cell} {v : Value} (hv : v ∈ h.contents c) : h.Has c := by
  by_contra hnot
  have hempty : h.contents c = #[] := by
    simp only [Has, Nat.not_lt] at hnot
    simp [contents, Array.getD_eq_getD_getElem?, hnot]
  simp [hempty] at hv

/-- **The comparison of two cells ends**, with the answer that the bounded one has, as long as the bound has
room for all pairs. -/
theorem compares_cells {fuel : Nat} {path : List (Cell × Cell)} (hpath : h.Path path)
    (hroom : h.pathBound ≤ fuel + path.length) (a b : Cell) :
    h.Compares path (.arr a) (.arr b) (h.eqCells fuel path a b) := by
  induction fuel generalizing path a b with
  | zero => exact absurd hpath.length_lt (by omega)
  | succ fuel ih =>
    rw [eqCells]
    by_cases hne : a = b
    · subst hne
      simpa using Compares.same
    have hcells : (a == b) = false := beq_eq_false_iff_ne.2 hne
    by_cases hnot : (a, b) ∈ path
    · simpa [hnot] using Compares.met hnot
    by_cases hsize : (h.contents a).size = (h.contents b).size
    · simp only [hcells, hnot, hsize, List.contains_eq_mem, decide_false, beq_self_eq_true,
        Bool.false_or, Bool.true_and]
      refine compares_of_elements hne hnot hsize fun v hv w hw => ?_
      refine compares_of_cells (ih ?_ ?_) v w
      · exact hpath.cons hnot (has_of_mem_contents hv) (has_of_mem_contents hw)
      · simpa [Nat.add_assoc, Nat.add_comm 1] using hroom
    · have hsizes : ((h.contents a).size == (h.contents b).size) = false := beq_eq_false_iff_ne.2 hsize
      simpa [hcells, hnot, hsizes] using Compares.size hne hnot hsize

/-- **Every comparison ends**, and `Heap.eq` has its answer. -/
theorem compares_eq (h : Heap) (v w : Value) : h.Compares [] v w (h.eq v w) :=
  compares_of_cells (compares_cells Path.nil (Nat.le_refl _)) v w

theorem compares_iff {v w : Value} {answer : Bool} : h.Compares [] v w answer ↔ answer = h.eq v w :=
  ⟨fun hc => hc.unique (h.compares_eq v w), fun heq => heq ▸ h.compares_eq v w⟩

end Heap

end ScriptValues
