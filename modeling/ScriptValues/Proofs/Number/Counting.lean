/-
Counting with script numbers. Every number has an integer part (`part`), that of an infinity being beyond all integers;
a position that is counted from the start, or if it is negative from the end, is that part taken no further than to the
ends of the sequence (`relativeIndex_eq`). Natural numbers are added and compared exactly as far as there is a number for
each, so that a script can count up to the end of whatever it runs over (`ofNat_add_ofNat`).
-/
import Mathlib.Algebra.Order.Monoid.Unbundled.WithTop
import Mathlib.Data.Int.ConditionallyCompleteOrder
import Mathlib.Order.WithBotTop
import ScriptValues.Number.Arithmetic
import ScriptValues.Proofs.Number.Rounding

namespace ScriptValues.Num

variable {x : Num}

/-! ## Integer parts -/

/-- The integer part of any number, towards zero: 0 for NaN, and beyond all integers for an infinity. -/
def part (x : Num) : EInt :=
  if x.isNaN then 0
  else if x.isInfinite then if x.isNegative then ⊥ else ⊤
  else x.whole

/-- Where the integer part is not what is reckoned with, both are out of the reach of 64 bits. -/
theorem part_cases (x : Num) :
    x.part = x.truncate ∨ x.part = ⊥ ∧ x.truncate ≤ -2 ^ 64 ∨ x.part = ⊤ ∧ 2 ^ 64 ≤ x.truncate := by
  rw [part]
  split
  · next hnan =>
    rw [truncate, if_pos hnan]
    exact .inl rfl
  split
  · next hinfinite =>
    have hpart := truncate_of_isInfinite hinfinite
    split at hpart
    · next hnegative => exact .inr (.inl ⟨if_pos hnegative, hpart⟩)
    · next hpositive => exact .inr (.inr ⟨if_neg hpositive, hpart⟩)
  · next hnan hinfinite =>
    have hfinite := x.isFinite_or.resolve_left hnan |>.resolve_left hinfinite
    rw [truncate_of_isFinite hfinite]
    exact .inl rfl

theorem part_ofNat {n : Nat} (hn : n ≤ 2 ^ 53) : (ofNat n).part = n := by
  have htruncate := truncate_ofNat hn
  rcases (ofNat n).part_cases with h | ⟨-, h⟩ | ⟨-, h⟩
  · rw [h, htruncate]
    rfl
  · omega
  · omega

/-! ## Positions -/

theorem relativeIndex_eq_max (x : Num) {len : Nat} (hlen : len ≤ 2 ^ 63 - 1) :
    (x.relativeIndex len : Int) = if 0 ≤ x.truncate then min (len : Int) x.truncate else max 0 (len + x.truncate) := by
  have hindex : x.toIndex = max (-2 ^ 63) (min (2 ^ 63 - 1) x.truncate) := rfl
  unfold relativeIndex
  rcases lt_or_ge x.truncate 0 with hneg | hnonneg
  · rw [if_pos (by omega), if_neg (by omega)]
    omega
  · rw [if_neg (by omega), if_pos hnonneg]
    omega

/-- **A position counted from either end is the integer part taken to the nearer end**, be that what it may. -/
theorem relativeIndex_eq (x : Num) {len : Nat} (hlen : len ≤ 2 ^ 63 - 1) :
    (x.relativeIndex len : EInt) = if 0 ≤ x.part then min (len : EInt) x.part else max 0 (len + x.part) := by
  have hcast : ∀ n : Nat, (n : EInt) = ((n : Int) : EInt) := fun _ => rfl
  have hindex := x.relativeIndex_eq_max hlen
  rcases x.part_cases with h | ⟨h, htruncate⟩ | ⟨h, htruncate⟩ <;> rw [h]
  · have hsign : (0 : EInt) ≤ x.truncate ↔ 0 ≤ x.truncate := WithBotTop.coe_le_coe (a := 0)
    rw [hcast, hindex, hcast]
    simp only [hsign]
    split
    · exact WithBotTop.coe_monotone.map_min
    · exact WithBotTop.coe_monotone.map_max
  · have hzero : x.relativeIndex len = 0 := by
      split at hindex <;> omega
    simp [hzero]
  · have hlast : x.relativeIndex len = len := by
      split at hindex <;> omega
    simp [hlast]

/-- A position from the start is the integer part, as far as 64 bits go. -/
theorem startIndex_eq_some_iff {k : Nat} (hk : k < 2 ^ 63 - 1) : x.startIndex = some k ↔ x.part = k := by
  have hstart : x.startIndex = some k ↔ x.truncate = k := by
    have hindex : x.toIndex = max (-2 ^ 63) (min (2 ^ 63 - 1) x.truncate) := rfl
    rw [startIndex, Option.ite_none_left_eq_some, Option.some.injEq]
    omega
  rw [hstart]
  rcases x.part_cases with h | ⟨h, htruncate⟩ | ⟨h, htruncate⟩ <;> rw [h]
  · exact (WithBotTop.coe_injective.eq_iff (b := (k : Int))).symm
  · exact iff_of_false (by omega) nofun
  · exact iff_of_false (by omega) nofun

/-! ## Counting on -/

theorem ofNat_isNegative {n : Nat} (hn : n ≤ 2 ^ 53) : (ofNat n).isNegative = false := by
  obtain ⟨m, p, hvalid, -, hmake⟩ := ofNat_eq_make hn
  rw [hmake, make_isNegative hvalid]

/-- **Natural numbers up to `2^53` are added exactly.** -/
theorem ofNat_add_ofNat {m n : Nat} (h : m + n ≤ 2 ^ 53) : (ofNat m).add (ofNat n) = ofNat (m + n) := by
  have hm : m ≤ 2 ^ 53 := by omega
  have hn : n ≤ 2 ^ 53 := by omega
  have hsum : (m * one : Int) + n * one = ((m + n) * one : Nat) := by
    push_cast
    ring
  have hfinite : ∀ {k}, k ≤ 2 ^ 53 → (ofNat k).isNaN = false ∧ (ofNat k).isInfinite = false := by
    intro k hk
    have hk := ofNat_isFinite hk
    exact ⟨isNaN_of_isFinite hk, isInfinite_of_isFinite hk⟩
  rw [add]
  simp only [hfinite hm, hfinite hn, ofNat_isNegative hm, ofNat_isNegative hn, ofNat_scaled hm, ofNat_scaled hn, hsum,
    Bool.or_self, Bool.false_eq_true, Bool.and_self, if_false]
  rcases Nat.eq_zero_or_pos (m + n) with hzero | hpos
  · rw [hzero]
    decide +kernel
  · have hne : (((m + n) * one : Nat) : Int) ≠ 0 := Int.natCast_ne_zero.2 (Nat.mul_ne_zero hpos.ne' one_pos.ne')
    have hsign : ∀ k : Nat, decide ((k : Int) < 0) = false := fun k => decide_eq_false (by omega)
    rw [ofScaled, if_neg hne, hsign, ofNat, ofInt, hsign, Int.natAbs_natCast, Int.natAbs_natCast]

theorem ofNat_lt_ofNat {m n : Nat} (hm : m ≤ 2 ^ 53) (hn : n ≤ 2 ^ 53) : (ofNat m).lt (ofNat n) = decide (m < n) := by
  have hone : (0 : Int) < one := Int.natCast_pos.2 one_pos
  have hscaled : (m * one : Int) < n * one ↔ m < n := by rw [Int.mul_lt_mul_right hone, Int.ofNat_lt]
  rw [lt, isNaN_of_isFinite (ofNat_isFinite hm), isNaN_of_isFinite (ofNat_isFinite hn), ofNat_scaled hm, ofNat_scaled hn]
  simp only [hscaled, Bool.not_false, Bool.true_and]

/-- One more than a position of a sequence is the position behind it, which may be the end. -/
theorem relativeIndex_behind {length i : Nat} (hlength : length < 2 ^ 53) (hi : i < length) :
    ((ofNat i).add (ofNat 1)).relativeIndex length = i + 1 := by
  have htruncate : (ofNat (i + 1)).truncate = (i + 1 : ℕ) := truncate_ofNat (by omega)
  have hfar : length ≤ 2 ^ 63 - 1 := by omega
  have hindex := (ofNat (i + 1)).relativeIndex_eq_max hfar
  rw [ofNat_add_ofNat (by omega)]
  rw [htruncate, if_pos (by omega)] at hindex
  omega

/-! ## Natural numbers and -1 -/

theorem not_is_neg_one (i : ℕ) : ¬ (ofInt (-1)).Is i := by
  rintro ⟨-, hvalue⟩
  have hnonneg : (0 : ℚ) ≤ i := Nat.cast_nonneg i
  rw [← hvalue, value_ofInt_neg_one] at hnonneg
  exact absurd hnonneg (by norm_num)

theorem ofNat_is_iff {m n : ℕ} (hm : m ≤ 2 ^ 53) : (ofNat m).Is n ↔ m = n := by
  have his := ofNat_is hm
  constructor
  · intro h
    exact Nat.cast_injective (his.2.symm.trans h.2)
  · rintro rfl
    exact his

theorem ofNat_ne_neg_one {n : ℕ} (hn : n ≤ 2 ^ 53) : (ofNat n).eq (.ofInt (-1)) = false := by
  have hone : (0 : Int) < one := Int.natCast_pos.2 one_pos
  have hnonneg : (0 : Int) ≤ n * one := Int.natCast_nonneg (n * one)
  have hscaled : (n * one : Int) ≠ -one := (Int.lt_of_lt_of_le (Int.neg_neg_of_pos hone) hnonneg).ne'
  rw [eq, ofNat_scaled hn, ofInt_neg_one.2, beq_eq_false_iff_ne.2 hscaled, Bool.and_false]

end ScriptValues.Num
