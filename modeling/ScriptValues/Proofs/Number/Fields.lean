/-
What the fields of a word say. A significand and a scale as words have them are determined by the magnitude
that they make (`significand_scale_unique`), so a word is determined by its sign and its magnitude
(`eq_of_magnitude_eq`): numbers that are equal are the same word, zero apart (`eq_or_zero_of_scaled_eq`).
-/
import ScriptValues.Number.Arithmetic
import ScriptValues.Proofs.Number.Exact

namespace ScriptValues.Num

variable {x y : Num}

/-! ## Bounds -/

theorem word_lt (x : Num) : x.word < 2 ^ 64 := x.bits.toNat_lt

theorem fractionField_lt (x : Num) : x.fractionField < 2 ^ 52 := Nat.mod_lt _ (by decide)

theorem significand_lt (x : Num) : x.significand < 2 ^ 53 := by
  have hfraction := x.fractionField_lt
  simp only [significand, Nat.pow_eq]
  split <;> omega

theorem significand_normal (x : Num) : 2 ^ 52 ≤ x.significand ∨ x.scale = 0 := by
  simp only [significand, scale, Nat.pow_eq]
  split <;> omega

theorem isFinite_or (x : Num) : x.isNaN = true ∨ x.isInfinite = true ∨ x.isFinite = true := by
  by_cases hexponent : x.exponentField = 2047 <;> by_cases hfraction : x.fractionField = 0 <;>
    simp [isNaN, isInfinite, isFinite, hexponent, hfraction]

theorem isNaN_of_isInfinite (h : x.isInfinite = true) : x.isNaN = false := by
  simp only [isInfinite, isNaN, Bool.and_eq_true, beq_iff_eq] at *
  simp [h.2]

theorem significand_scale_of_isInfinite (h : x.isInfinite = true) :
    x.significand = 2 ^ 52 ∧ x.scale = 2046 := by
  simp only [isInfinite, Bool.and_eq_true, beq_iff_eq] at h
  simp [significand, scale, h.1, h.2, Nat.pow_eq]

theorem magnitude_ne_zero_of_isInfinite (h : x.isInfinite = true) : x.magnitude ≠ 0 := by
  rw [magnitude, (significand_scale_of_isInfinite h).1]
  exact Nat.mul_ne_zero (by decide) (Nat.two_pow_pos _).ne'

/-! ## A word from its fields -/

theorem exponentField_eq (x : Num) :
    x.exponentField = if x.significand < 2 ^ 52 then 0 else x.scale + 1 := by
  have hfraction := x.fractionField_lt
  simp only [significand, scale, Nat.pow_eq]
  by_cases hzero : x.exponentField = 0
  · simp only [hzero, hfraction, ↓reduceIte]
  · simp only [hzero, ↓reduceIte]
    split <;> omega

theorem fractionField_eq (x : Num) : x.fractionField = x.significand % 2 ^ 52 := by
  have hfraction := x.fractionField_lt
  simp only [significand, Nat.pow_eq]
  split <;> omega

theorem word_eq (x : Num) :
    x.word = (if x.isNegative then 2 ^ 63 else 0) + x.exponentField * 2 ^ 52 + x.fractionField := by
  have hlt := x.word_lt
  simp only [isNegative, exponentField, fractionField, Nat.pow_eq, decide_eq_true_eq]
  split <;> omega

/-- A magnitude has one significand and scale. -/
theorem significand_scale_unique {m n p q : Nat} (hm : m < 2 ^ 53) (hn : n < 2 ^ 53)
    (hmp : 2 ^ 52 ≤ m ∨ p = 0) (hnq : 2 ^ 52 ≤ n ∨ q = 0) (h : m * 2 ^ p = n * 2 ^ q) : m = n ∧ p = q := by
  -- The greater scale would make the greater number.
  have hle : ∀ {m n p q : Nat}, m < 2 ^ 53 → (2 ^ 52 ≤ n ∨ q = 0) → m * 2 ^ p = n * 2 ^ q → q ≤ p := by
    intro m n p q hm hnq h
    by_contra hlt
    have hn : 2 ^ 52 ≤ n := hnq.resolve_right (by omega)
    have hpow : 2 ^ q = 2 ^ (q - p - 1) * 2 * 2 ^ p := by
      rw [Nat.mul_assoc, Nat.mul_comm 2, ← Nat.pow_succ, ← Nat.pow_add]
      congr 1
      omega
    rw [hpow, ← Nat.mul_assoc] at h
    have hmn : m = n * (2 ^ (q - p - 1) * 2) := Nat.eq_of_mul_eq_mul_right (Nat.two_pow_pos p) h
    have htwo : 2 ≤ 2 ^ (q - p - 1) * 2 := Nat.le_mul_of_pos_left 2 (Nat.two_pow_pos _)
    have hge : 2 ^ 52 * 2 ≤ n * (2 ^ (q - p - 1) * 2) := Nat.mul_le_mul hn htwo
    omega
  have hpq : p = q := Nat.le_antisymm (hle hn hmp h.symm) (hle hm hnq h)
  subst hpq
  exact ⟨Nat.eq_of_mul_eq_mul_right (Nat.two_pow_pos p) h, rfl⟩

/-- **A word is determined by its sign and its magnitude.** -/
theorem eq_of_magnitude_eq (hsign : x.isNegative = y.isNegative) (h : x.magnitude = y.magnitude) : x = y := by
  obtain ⟨hsignificand, hscale⟩ := significand_scale_unique x.significand_lt y.significand_lt
    x.significand_normal y.significand_normal h
  have hword : x.word = y.word := by
    rw [word_eq, word_eq y, exponentField_eq, exponentField_eq y, fractionField_eq, fractionField_eq y,
      hsign, hsignificand, hscale]
  obtain ⟨bits⟩ := x
  obtain ⟨bits'⟩ := y
  exact congrArg Num.mk (UInt64.toNat_inj.1 hword)

theorem natAbs_scaled (x : Num) : x.scaled.natAbs = x.magnitude := by
  rw [scaled]
  split <;> simp

/-- Equal numbers are one word, or both zero. -/
theorem eq_or_zero_of_scaled_eq (h : x.scaled = y.scaled) : x = y ∨ x.magnitude = 0 ∧ y.magnitude = 0 := by
  have hmagnitude : x.magnitude = y.magnitude := by rw [← natAbs_scaled, h, natAbs_scaled]
  by_cases hzero : x.magnitude = 0
  · exact .inr ⟨hzero, hmagnitude ▸ hzero⟩
  refine .inl (eq_of_magnitude_eq ?_ hmagnitude)
  simp only [scaled, hmagnitude] at h
  cases hx : x.isNegative <;> cases hy : y.isNegative <;> simp only [hx, hy, Bool.false_eq_true, ↓reduceIte] at h
  · rfl
  · omega
  · omega
  · rfl

theorem isFinite_of_magnitude_eq_zero (h : x.magnitude = 0) : x.isFinite = true := by
  have hsignificand : x.significand = 0 := by
    rcases Nat.mul_eq_zero.1 h with h | h
    · exact h
    · exact absurd h (Nat.two_pow_pos _).ne'
  have hexponent := x.exponentField_eq
  rw [hsignificand] at hexponent
  simp [isFinite, hexponent]

/-! ## The other sign -/

theorem neg_word (x : Num) : x.neg.word = x.word ^^^ 2 ^ 63 := by
  simp only [neg, word, UInt64.toNat_xor]
  rfl

theorem neg_word_mod (x : Num) : x.neg.word % 2 ^ 63 = x.word % 2 ^ 63 := by
  rw [neg_word, Nat.xor_mod_two_pow, Nat.mod_self, Nat.xor_zero]

theorem isNegative_eq_testBit (x : Num) : x.isNegative = x.word.testBit 63 := by
  have hlt := x.word_lt
  rw [isNegative, Nat.testBit_eq_decide_div_mod_eq, decide_eq_decide, Nat.pow_eq]
  omega

theorem neg_isNegative (x : Num) : x.neg.isNegative = !x.isNegative := by
  rw [isNegative_eq_testBit, isNegative_eq_testBit, neg_word, Nat.testBit_xor, Nat.testBit_two_pow_self, Bool.xor_true]

theorem neg_exponentField (x : Num) : x.neg.exponentField = x.exponentField := by
  have h := x.neg_word_mod
  simp only [exponentField, Nat.pow_eq]
  omega

theorem neg_fractionField (x : Num) : x.neg.fractionField = x.fractionField := by
  have h := x.neg_word_mod
  simp only [fractionField, Nat.pow_eq]
  omega

theorem neg_significand (x : Num) : x.neg.significand = x.significand := by
  rw [significand, significand, neg_exponentField, neg_fractionField]

theorem neg_scale (x : Num) : x.neg.scale = x.scale := by
  rw [scale, scale, neg_exponentField]

theorem neg_isFinite (x : Num) : x.neg.isFinite = x.isFinite := by
  rw [isFinite, isFinite, neg_exponentField]

theorem neg_magnitude (x : Num) : x.neg.magnitude = x.magnitude := by
  rw [magnitude, magnitude, neg_significand, neg_scale]

end ScriptValues.Num
