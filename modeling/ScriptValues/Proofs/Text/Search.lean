/-
The search for a text by its clusters finds the first place where they stand. The search stops early where no match
can follow: at the end of the text, and where what is left of it is too short. `indexOf_spec` says that nothing is
missed so.
-/
import Mathlib.Order.Bounds.Basic
import ScriptValues.Text.Indexed

namespace ScriptValues.Text

/-- The parts of `pin` stand at a position. -/
def StandsAt (pin parts : List (List Char)) (i : Nat) : Prop := (parts.take (i + pin.length)).drop i = pin

section

variable {pin parts : List (List Char)} {i : Nat}

theorem standsAt_nil : StandsAt [] parts i := by simp [StandsAt]

theorem StandsAt.le (h : StandsAt pin parts i) (hpin : pin ≠ []) : i + pin.length ≤ parts.length := by
  have hlength := congrArg List.length h
  have hpos := List.length_pos_iff.2 hpin
  rw [List.length_drop, List.length_take] at hlength
  omega

theorem standsAt_iff : StandsAt pin parts i ↔ ∀ q ∈ pin.zipIdx, parts[i + q.2]? = some q.1 := by
  have hread : ∀ k, ((parts.take (i + pin.length)).drop i)[k]? =
      if k < pin.length then parts[i + k]? else none := by
    intro k
    rw [List.getElem?_drop, List.getElem?_take]
    simp only [Nat.add_lt_add_iff_left]
  constructor
  · intro h q hq
    rw [List.mem_zipIdx_iff_getElem?] at hq
    obtain ⟨hlt, -⟩ := List.getElem?_eq_some_iff.1 hq
    rw [← hq, ← congrArg (·[q.2]?) h]
    exact ((hread q.2).trans (if_pos hlt)).symm
  · intro h
    refine List.ext_getElem? fun k => ?_
    rw [hread]
    split
    · next hlt =>
      have hpart := List.getElem?_eq_getElem hlt
      rw [h (pin[k], k) (List.mem_zipIdx_iff_getElem?.2 hpart), hpart]
    · next hge => exact (List.getElem?_eq_none_iff.2 (Nat.le_of_not_lt hge)).symm

end

theorem clusters_eq_nil_iff {cs : List Char} : clusters cs = [] ↔ cs = [] := by
  cases cs with
  | nil => simp [clusters]
  | cons c cs => simp [clusters]

variable (cs : List Char) (start : Nat)

theorem indexOf_nil : indexOf cs [] start = some (min start (clusters cs).length) := indexOf_eq cs [] start

/-- **A search finds the first match from its start on, if there is one.** -/
theorem indexOf_spec {needle : List Char} (hneedle : needle ≠ []) :
    (∃ i, indexOf cs needle start = some i ∧
      IsLeast {i | start ≤ i ∧ StandsAt (clusters needle) (clusters cs) i} i) ∨
    (indexOf cs needle start = none ∧ ∀ i, start ≤ i → ¬ StandsAt (clusters needle) (clusters cs) i) := by
  have hsearch := indexOf_eq cs needle start
  have hpin : clusters needle ≠ [] := mt clusters_eq_nil_iff.1 hneedle
  have hpos : 0 < (clusters needle).length := List.length_pos_iff.2 hpin
  have hroom : ∀ {i}, StandsAt (clusters needle) (clusters cs) i →
      i + (clusters needle).length ≤ (clusters cs).length := fun h => h.le hpin
  have htry : ∀ i, ((clusters needle).zipIdx.all fun q => (clusters cs)[i + q.2]? == some q.1) = true ↔
      StandsAt (clusters needle) (clusters cs) i := by
    intro i
    simp only [List.all_eq_true, beq_iff_eq, standsAt_iff]
  rw [if_neg (by simpa using hneedle)] at hsearch
  split at hsearch
  · next hstop =>
    -- A match needs room for all clusters of `needle`, of which there is at least one.
    refine .inr ⟨hsearch, fun i hi hstands => ?_⟩
    have hle := hroom hstands
    omega
  · cases hfound : indexOf cs needle start with
    | some i =>
      rw [hfound, eq_comm, List.find?_range'_eq_some] at hsearch
      obtain ⟨hstands, hrange, hearlier⟩ := hsearch
      refine .inl ⟨i, rfl, ⟨(List.mem_range'_1.1 hrange).1, (htry i).1 hstands⟩, fun j hj => ?_⟩
      refine Nat.le_of_not_lt fun hlt => ?_
      have hfails := hearlier j hj.1 hlt
      rw [(htry j).2 hj.2] at hfails
      cases hfails
    | none =>
      rw [hfound, eq_comm, List.find?_range'_eq_none] at hsearch
      refine .inr ⟨rfl, fun i hi hstands => ?_⟩
      have hle := hroom hstands
      have hfails := hsearch i hi (by omega)
      rw [(htry i).2 hstands] at hfails
      cases hfails

end ScriptValues.Text
