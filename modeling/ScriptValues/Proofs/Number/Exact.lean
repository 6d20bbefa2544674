/-
Natural numbers as script numbers. A word made from a significand and a scale holds both exactly
(`make_magnitude`), and a significand times a power of two is its own rounding (`ofRatio_exact`).
Natural numbers up to `2^53` are of this form: as script numbers they are themselves (`ofNat_scaled`), and are
read back as such (`integer?_ofNat`, `clampIndex_ofNat`).
-/
import Mathlib.Algebra.Order.Group.Nat
import ScriptValues.Number.Index

namespace ScriptValues.Num

/-! ## Fields -/

/-- A significand and a scale that a word holds. -/
structure Valid (m p : Nat) : Prop where
  lt : m < 2 ^ 53
  normal : 2 ^ 52 ≤ m ∨ p = 0
  le : p ≤ 2045

section

variable {negative : Bool} {m p : Nat}

theorem make_word (h : Valid m p) : (make negative m p).word =
    (if negative then 2 ^ 63 else 0) + if m < 2 ^ 52 then m else (p + 1) * 2 ^ 52 + (m - 2 ^ 52) := by
  have hm := h.lt
  have hp := h.le
  simp only [make, word, Nat.pow_eq]
  rw [UInt64.toNat_ofNat']
  apply Nat.mod_eq_of_lt
  split <;> split <;> omega

theorem make_isNegative (h : Valid m p) : (make negative m p).isNegative = negative := by
  have hm := h.lt
  have hp := h.le
  simp only [isNegative, make_word h, Nat.pow_eq]
  cases negative
  · simp only [Bool.false_eq_true, ↓reduceIte, decide_eq_false_iff_not]
    split <;> omega
  · simp

theorem make_exponentField (h : Valid m p) :
    (make negative m p).exponentField = if m < 2 ^ 52 then 0 else p + 1 := by
  have hm := h.lt
  have hp := h.le
  simp only [exponentField, make_word h, Nat.pow_eq]
  cases negative <;> simp <;> split <;> omega

theorem make_fractionField (h : Valid m p) :
    (make negative m p).fractionField = if m < 2 ^ 52 then m else m - 2 ^ 52 := by
  have hm := h.lt
  have hp := h.le
  simp only [fractionField, make_word h, Nat.pow_eq]
  cases negative <;> simp <;> split <;> omega

theorem make_isFinite (h : Valid m p) : (make negative m p).isFinite = true := by
  have hp := h.le
  simp only [isFinite, make_exponentField h]
  split
  · rfl
  · exact bne_iff_ne.2 (by omega)

theorem isNaN_of_isFinite {x : Num} (h : x.isFinite = true) : x.isNaN = false := by
  simp only [isNaN, isFinite, bne_iff_ne, ne_eq] at *
  simp [h]

theorem make_magnitude (h : Valid m p) : (make negative m p).magnitude = m * 2 ^ p := by
  have hm := h.lt
  simp only [magnitude, significand, scale, make_exponentField h, make_fractionField h, Nat.pow_eq]
  by_cases hsmall : m < 2 ^ 52
  · have hp : p = 0 := h.normal.resolve_left (by omega)
    simp only [hsmall, hp, ↓reduceIte, Nat.zero_sub, Nat.pow_zero]
  · have hsum : 2 ^ 52 + (m - 2 ^ 52) = m := by omega
    simp only [hsmall, ↓reduceIte, Nat.add_one_ne_zero, Nat.add_sub_cancel, hsum]

end

/-! ## Exact rounding -/

theorem roundDiv_mul {m d : Nat} (hd : 0 < d) : roundDiv (m * d) d = m := by
  have hmod : m * d % d = 0 := Nat.mul_mod_left m d
  rw [roundDiv, hmod, Nat.mul_div_cancel m hd]
  simp [hd]

theorem log2_mul_pow {m : Nat} (hm : 2 ^ 52 ≤ m) (hlt : m < 2 ^ 53) (p : Nat) :
    (m * 2 ^ p).log2 = 52 + p := by
  have hpos : 0 < 2 ^ p := Nat.two_pow_pos p
  refine (Nat.log2_eq_iff (Nat.mul_ne_zero (by omega) hpos.ne')).2 ⟨?_, ?_⟩
  · rw [Nat.pow_add]
    exact Nat.mul_le_mul_right _ hm
  · rw [show 52 + p + 1 = 53 + p by omega, Nat.pow_add]
    exact Nat.mul_lt_mul_of_pos_right hlt hpos

/-- A significand times a power of two is its own rounding. -/
theorem ofRatio_exact {m p : Nat} (negative : Bool) (hm : 2 ^ 52 ≤ m) (hlt : m < 2 ^ 53) (hp : p ≤ 2045) :
    ofRatio negative (m * 2 ^ p) 1 = make negative m p := by
  have hscale : (m * 2 ^ p).log2 - 52 = p := by
    rw [log2_mul_pow hm hlt]
    omega
  simp only [ofRatio, Nat.div_one, Nat.one_mul, Nat.pow_eq, hscale, roundDiv_mul (Nat.two_pow_pos p)]
  simp only [hlt, hp, ↓reduceIte]

/-! ## Natural numbers -/

theorem one_pos : 0 < one := by
  unfold one
  generalize 1074 = e
  exact Nat.two_pow_pos e

/-- A positive natural number up to `2^53`, in units, has a significand and a scale. -/
theorem exists_significand {n : Nat} (hpos : 0 < n) (hn : n ≤ 2 ^ 53) :
    ∃ m p, n * one = m * 2 ^ p ∧ 2 ^ 52 ≤ m ∧ m < 2 ^ 53 ∧ p ≤ 2045 := by
  unfold one
  generalize he : 1074 = e
  rw [Nat.pow_eq]
  rcases Nat.lt_or_eq_of_le hn with hlt | rfl
  · -- The leading bit of `n` is moved up to bit 52.
    obtain ⟨hle, hlt'⟩ := (Nat.log2_eq_iff hpos.ne').1 rfl
    have hlog : n.log2 < 53 := (Nat.log2_lt hpos.ne').2 hlt
    generalize n.log2 = k at *
    refine ⟨n * 2 ^ (52 - k), e - (52 - k), ?_, ?_, ?_, by omega⟩
    · rw [Nat.mul_assoc, ← Nat.pow_add, Nat.add_sub_cancel' (by omega)]
    · have habove := Nat.mul_le_mul_right (2 ^ (52 - k)) hle
      rwa [← Nat.pow_add, Nat.add_sub_cancel' (by omega)] at habove
    · have hbelow := Nat.mul_lt_mul_of_pos_right hlt' (Nat.two_pow_pos (52 - k))
      rwa [← Nat.pow_add, show k + 1 + (52 - k) = 53 by omega] at hbelow
  · refine ⟨2 ^ 52, e + 1, ?_, Nat.le_refl _, by decide, by omega⟩
    rw [← Nat.pow_add, ← Nat.pow_add]
    congr 1
    omega

/-- The word of a natural number up to `2^53` holds it. -/
theorem ofNat_eq_make {n : Nat} (hn : n ≤ 2 ^ 53) :
    ∃ m p, Valid m p ∧ m * 2 ^ p = n * one ∧ ofNat n = make false m p := by
  have hround : ofNat n = ofRatio false (n * one) 1 := by
    have hsign : decide ((n : Int) < 0) = false := decide_eq_false (by omega)
    rw [ofNat, ofInt, Int.natAbs_natCast, hsign]
  rcases Nat.eq_zero_or_pos n with rfl | hpos
  · refine ⟨0, 0, ⟨by decide, .inr rfl, by decide⟩, by simp, ?_⟩
    rw [hround]
    simp [ofRatio, roundDiv, Nat.pow_eq]
  · obtain ⟨m, p, hmp, hm, hlt, hp⟩ := exists_significand hpos hn
    refine ⟨m, p, ⟨hlt, .inl hm, hp⟩, hmp.symm, ?_⟩
    rw [hround, hmp, ofRatio_exact false hm hlt hp]

section

variable {n : Nat}

theorem ofNat_isFinite (hn : n ≤ 2 ^ 53) : (ofNat n).isFinite = true := by
  obtain ⟨m, p, hvalid, -, hmake⟩ := ofNat_eq_make hn
  rw [hmake, make_isFinite hvalid]

theorem ofNat_magnitude (hn : n ≤ 2 ^ 53) : (ofNat n).magnitude = n * one := by
  obtain ⟨m, p, hvalid, hmp, hmake⟩ := ofNat_eq_make hn
  rw [hmake, make_magnitude hvalid, hmp]

/-- **Natural numbers up to `2^53` are script numbers exactly.** -/
theorem ofNat_scaled (hn : n ≤ 2 ^ 53) : (ofNat n).scaled = n * one := by
  obtain ⟨m, p, hvalid, hmp, hmake⟩ := ofNat_eq_make hn
  rw [scaled, hmake, make_isNegative hvalid, make_magnitude hvalid, hmp, if_neg Bool.false_ne_true]
  exact Int.natCast_mul n one

theorem truncate_ofNat (hn : n ≤ 2 ^ 53) : (ofNat n).truncate = n := by
  have hone : (one : Int) ≠ 0 := Int.natCast_ne_zero.2 one_pos.ne'
  have hnumber : ¬ (ofNat n).isNaN = true := by
    rw [isNaN_of_isFinite (ofNat_isFinite hn)]
    exact Bool.false_ne_true
  rw [truncate, if_neg hnumber, ofNat_scaled hn, Int.mul_tdiv_cancel _ hone]

theorem integer?_ofNat (hn : n ≤ 2 ^ 53) : (ofNat n).integer? = some (n : Int) := by
  have hintegral : (ofNat n).isIntegral = true := by
    rw [isIntegral, ofNat_isFinite hn, ofNat_magnitude hn, Nat.mul_mod_left]
    rfl
  rw [integer?, if_pos hintegral, truncate_ofNat hn]

theorem toIndex_ofNat (hn : n ≤ 2 ^ 53) : (ofNat n).toIndex = n := by
  rw [toIndex, truncate_ofNat hn, indexMax, indexMin]
  simp only [Nat.pow_eq]
  omega

theorem clampIndex_ofNat (hn : n ≤ 2 ^ 53) : (ofNat n).clampIndex = n := by
  rw [clampIndex, toIndex_ofNat hn, Int.toNat_natCast]

end

end ScriptValues.Num
