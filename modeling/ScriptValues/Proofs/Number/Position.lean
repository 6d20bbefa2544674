/-
Numbers as positions in a sequence. A finite number has an exact value (`value`), and counts the positions
below it, NaN counting none and an infinity all or none (`reach`). The readings of a number as a position
agree with that as far as 64 bits go: `clampIndex` is the reach cut off there (`clampIndex_eq`), and
`exactIndex` finds just the numbers that are natural numbers exactly (`exactIndex_eq_some_iff`), but
takes `2^64` for the last position (`exactIndex_eq_some_iff_exists`).
-/
import Mathlib.Algebra.Order.Floor.Semifield
import Mathlib.Data.ENat.Lattice
import Mathlib.Data.Rat.Floor
import ScriptValues.Proofs.Number.Fields

namespace ScriptValues.Num

variable {x : Num}

/-! ## Values -/

/-- The exact value of a finite number. -/
def value (x : Num) : ℚ := x.scaled / one

/-- The integer part of a finite number, towards zero. -/
def whole (x : Num) : ℤ := if x.value < 0 then ⌈x.value⌉ else ⌊x.value⌋

/-- The number is finite and exactly this natural number. -/
def Is (x : Num) (n : Nat) : Prop := x.isFinite = true ∧ x.value = n

/-- How many positions are below the number: its integer part, none if it is negative or NaN, and all below
infinity. -/
def reach (x : Num) : ℕ∞ :=
  if x.isNaN then 0
  else if x.isInfinite then if x.isNegative then 0 else ⊤
  else ⌊x.value⌋₊

theorem is_iff {n : Nat} : x.Is n ↔ x.isFinite = true ∧ x.scaled = n * one := by
  have hone : (one : ℚ) ≠ 0 := Nat.cast_ne_zero.2 one_pos.ne'
  rw [Is, value, div_eq_iff hone]
  exact and_congr_right fun _ => by exact_mod_cast Iff.rfl

theorem Is.magnitude_eq {n : Nat} (h : x.Is n) : x.magnitude = n * one := by
  rw [← natAbs_scaled, (is_iff.1 h).2, Int.natAbs_mul, Int.natAbs_natCast, Int.natAbs_natCast]

theorem ofNat_is {n : Nat} (hn : n ≤ 2 ^ 53) : (ofNat n).Is n :=
  is_iff.2 ⟨ofNat_isFinite hn, ofNat_scaled hn⟩

theorem ofInt_neg_one : (ofInt (-1)).isFinite = true ∧ (ofInt (-1)).scaled = -one := by decide +kernel

theorem value_ofInt_neg_one : (ofInt (-1)).value = -1 := by
  have hone : (one : ℚ) ≠ 0 := Nat.cast_ne_zero.2 one_pos.ne'
  rw [value, ofInt_neg_one.2, Int.cast_neg, Int.cast_natCast, neg_div, div_self hone]

/-! ## Integer parts -/

theorem truncate_of_isFinite (h : x.isFinite = true) : x.truncate = x.whole := by
  have hone : (0 : ℚ) < one := Nat.cast_pos.2 one_pos
  have hsign : x.value < 0 ↔ x.scaled < 0 := by rw [value, div_lt_iff₀ hone, zero_mul, Int.cast_lt_zero]
  simp only [truncate, isNaN_of_isFinite h, Bool.false_eq_true, ↓reduceIte, whole, hsign]
  rw [value]
  split
  · next hneg =>
    have hpos : 0 ≤ -x.scaled := by omega
    rw [Rat.ceil_intCast_div_natCast, ← Int.tdiv_eq_ediv_of_nonneg hpos, Int.neg_tdiv, Int.neg_neg]
  · next hnonneg => rw [Rat.floor_intCast_div_natCast, Int.tdiv_eq_ediv_of_nonneg (Int.le_of_not_gt hnonneg)]

theorem toNat_whole (x : Num) : x.whole.toNat = ⌊x.value⌋₊ := by
  unfold whole
  split
  · next hneg =>
    rw [Int.toNat_of_nonpos (Int.ceil_le.2 (by simpa using hneg.le)), Nat.floor_of_nonpos hneg.le]
  · exact Int.floor_toNat _

/-- A number is a natural number if it has no fraction and is not negative; which one, its integer part says. -/
theorem is_iff_truncate {n : Nat} : x.Is n ↔ (x.isIntegral = true ∧ 0 ≤ x.scaled) ∧ x.truncate = n := by
  rw [isIntegral, Bool.and_eq_true, beq_iff_eq]
  constructor
  · intro hx
    obtain ⟨hfinite, hscaled⟩ := is_iff.1 hx
    have hone : (one : Int) ≠ 0 := Int.natCast_ne_zero.2 one_pos.ne'
    refine ⟨⟨⟨hfinite, ?_⟩, ?_⟩, ?_⟩
    · rw [hx.magnitude_eq, Nat.mul_mod_left]
    · exact hscaled ▸ Int.mul_nonneg (Int.natCast_nonneg n) (Int.natCast_nonneg one)
    · rw [truncate, isNaN_of_isFinite hfinite, if_neg Bool.false_ne_true, hscaled, Int.mul_tdiv_cancel _ hone]
  · rintro ⟨⟨⟨hfinite, hwhole⟩, hnonneg⟩, htruncate⟩
    have hscaled : x.scaled = x.magnitude := by rw [← natAbs_scaled, Int.natAbs_of_nonneg hnonneg]
    rw [truncate, isNaN_of_isFinite hfinite, if_neg Bool.false_ne_true, hscaled, ← Int.ofNat_tdiv] at htruncate
    refine is_iff.2 ⟨hfinite, ?_⟩
    rw [hscaled, ← htruncate]
    exact_mod_cast (Nat.div_mul_cancel (Nat.dvd_of_mod_eq_zero hwhole)).symm

/-- The integer part of an infinity is out of the reach of 64 bits. -/
theorem truncate_of_isInfinite (h : x.isInfinite = true) :
    if x.isNegative then x.truncate ≤ -2 ^ 64 else 2 ^ 64 ≤ x.truncate := by
  obtain ⟨hsignificand, hscale⟩ := significand_scale_of_isInfinite h
  have hmagnitude : 2 ^ 64 * one ≤ x.magnitude := by
    rw [magnitude, hsignificand, hscale]
    decide +kernel
  have hpart : ((2 ^ 64 : Nat) : Int) ≤ (x.magnitude / one : Nat) :=
    Int.ofNat_le.2 ((Nat.le_div_iff_mul_le one_pos).2 hmagnitude)
  rw [truncate, isNaN_of_isInfinite h, if_neg Bool.false_ne_true, scaled]
  split
  · rw [Int.neg_tdiv, ← Int.ofNat_tdiv]
    exact Int.neg_le_neg hpart
  · rw [← Int.ofNat_tdiv]
    exact hpart

/-! ## Positions -/

theorem clampIndex_eq_min (x : Num) : x.clampIndex = min x.truncate.toNat (2 ^ 63 - 1) := by
  simp only [clampIndex, toIndex, indexMax, indexMin, Nat.pow_eq]
  omega

/-- **A position that is clamped is the reach of the number, as far as 64 bits go.** -/
theorem clampIndex_eq (x : Num) : (x.clampIndex : ℕ∞) = min x.reach (2 ^ 63 - 1 : Nat) := by
  rw [clampIndex_eq_min, Nat.mono_cast.map_min, reach]
  split
  · next hnan => rw [truncate, if_pos hnan, Int.toNat_zero, Nat.cast_zero]
  split
  · next hinfinite =>
    have hpart := truncate_of_isInfinite hinfinite
    split at hpart
    · next hnegative => rw [if_pos hnegative, Int.toNat_of_nonpos (by omega), Nat.cast_zero]
    · next hpositive =>
      rw [if_neg hpositive, top_inf_eq, min_eq_right]
      exact_mod_cast (by omega : 2 ^ 63 - 1 ≤ x.truncate.toNat)
  · next hnan hinfinite =>
    have hfinite := x.isFinite_or.resolve_left hnan |>.resolve_left hinfinite
    rw [truncate_of_isFinite hfinite, toNat_whole]

theorem clampIndex_of_is {n : Nat} (h : x.Is n) (hn : n < 2 ^ 63) : x.clampIndex = n := by
  rw [clampIndex_eq_min, truncate_of_isFinite h.1, toNat_whole, h.2, Nat.floor_natCast]
  omega

/-- Positions that 64 bits hold are as far from a number as from its clamped position. -/
theorem reach_le_iff {p : Nat} (hp : p < 2 ^ 63 - 1) : x.reach ≤ p ↔ x.clampIndex ≤ p := by
  have hlast : ¬ ((2 ^ 63 - 1 : Nat) : ℕ∞) ≤ p := not_le.2 (by exact_mod_cast hp)
  rw [← ENat.natCast_le_natCast, clampIndex_eq, min_le_iff, or_iff_left hlast]

/-- The exact position is the natural number that `x` is, which may go up to `2^64` but is then taken down to the last
position. -/
theorem exactIndex_eq_some_iff_exists {n : Nat} :
    x.exactIndex = some n ↔ ∃ i ≤ 2 ^ 64, x.Is i ∧ min i (2 ^ 64 - 1) = n := by
  rw [exactIndex, Option.ite_none_right_eq_some, Bool.and_eq_true, Bool.and_eq_true, decide_eq_true_eq,
    decide_eq_true_eq, Option.some.injEq, Nat.pow_eq]
  constructor
  · rintro ⟨⟨hnatural, hle⟩, rfl⟩
    have hnonneg : 0 ≤ x.truncate := by
      rw [truncate]
      split
      · exact Int.le_refl 0
      · exact Int.tdiv_nonneg hnatural.2 (Int.natCast_nonneg one)
    obtain ⟨i, hi⟩ := Int.eq_ofNat_of_zero_le hnonneg
    exact ⟨i, by omega, is_iff_truncate.2 ⟨hnatural, hi⟩, by rw [hi, Int.toNat_natCast]⟩
  · rintro ⟨i, hle, hi, rfl⟩
    obtain ⟨hnatural, htruncate⟩ := is_iff_truncate.1 hi
    exact ⟨⟨hnatural, by omega⟩, by rw [htruncate, Int.toNat_natCast]⟩

/-- The exact positions below the last one are those of the numbers that are natural numbers. -/
theorem exactIndex_eq_some_iff {n : Nat} (hn : n < 2 ^ 64 - 1) : x.exactIndex = some n ↔ x.Is n := by
  rw [exactIndex_eq_some_iff_exists]
  constructor
  · rintro ⟨i, -, hi, hmin⟩
    obtain rfl : i = n := by omega
    exact hi
  · intro hx
    exact ⟨n, by omega, hx, by omega⟩

end ScriptValues.Num
