/-
Numbers that are taken for a position only if they are it exactly. A position of 64 bits is below `2^64`, and a number
is found to be the position that it is (`exactIndex_eq_some_iff_or`). For one number this fails: the last position is
no number itself and is rounded to `2^64` (`is_end_iff`), so a comparison with it lets `2^64` pass, which is then taken
down to the last position.

Numbers are wide apart there, the greatest one below `2^64` being `2^64 - 2^11` (`Is.dvd_of_le`). Of the positions after
that only the last is ever found, and only where it is wrong.
-/
import ScriptValues.Proofs.Number.Position

namespace ScriptValues.Num

variable {x y : Num} {n : Nat}

/-! ## Which natural numbers are numbers -/

/-- Of a natural number from `2^53` on, a number has only the leading 53 bits. -/
theorem Is.dvd_of_le {k : Nat} (h : x.Is n) (hn : 2 ^ (53 + k) ≤ n) : 2 ^ (k + 1) ∣ n := by
  have hmagnitude := h.magnitude_eq
  unfold magnitude one at hmagnitude
  generalize 1074 = e at hmagnitude
  rw [Nat.pow_eq, Nat.pow_eq] at hmagnitude
  have hscale : k + 1 + e ≤ x.scale := by
    -- With a smaller scale the significand would need more than 53 bits.
    by_contra hlt
    have hbelow : x.significand * 2 ^ x.scale < 2 ^ 53 * 2 ^ (k + e) :=
      Nat.mul_lt_mul_of_lt_of_le x.significand_lt (Nat.pow_le_pow_right (by decide) (by omega)) (Nat.two_pow_pos _)
    have habove : 2 ^ 53 * 2 ^ (k + e) ≤ n * 2 ^ e := by
      rw [← Nat.pow_add, ← Nat.add_assoc, Nat.pow_add]
      exact Nat.mul_le_mul_right _ hn
    omega
  have hdvd : 2 ^ (k + 1) * 2 ^ e ∣ n * 2 ^ e := by
    rw [← hmagnitude, ← Nat.pow_add]
    exact Nat.dvd_mul_left_of_dvd (Nat.pow_dvd_pow 2 hscale) _
  exact Nat.dvd_of_mul_dvd_mul_right (Nat.two_pow_pos e) hdvd

/-- A positive natural number is at most one number. -/
theorem Is.unique (hx : x.Is n) (hy : y.Is n) (hn : 0 < n) : x = y := by
  have hscaled : x.scaled = y.scaled := (is_iff.1 hx).2.trans (is_iff.1 hy).2.symm
  refine (eq_or_zero_of_scaled_eq hscaled).resolve_right fun hzero => ?_
  have hpos : 0 < n * one := Nat.mul_pos hn one_pos
  rw [← hx.magnitude_eq, hzero.1] at hpos
  exact Nat.lt_irrefl 0 hpos

/-! ## The end of the positions -/

/-- The last position of 64 bits is rounded to the one after it. -/
theorem ofNat_last : (ofNat (2 ^ 64 - 1)).Is (2 ^ 64) := by
  refine is_iff.2 ?_
  decide +kernel

theorem is_end_iff : x.Is (2 ^ 64) ↔ x = ofNat (2 ^ 64 - 1) := by
  constructor
  · intro hx
    exact hx.unique ofNat_last (by decide)
  · intro hlast
    rw [hlast]
    exact ofNat_last

/-- A position is found for the number that it is, and the last one for `2^64` too. -/
theorem exactIndex_eq_some_iff_or :
    x.exactIndex = some n ↔ n ≤ 2 ^ 64 - 1 ∧ x.Is n ∨ x.Is (2 ^ 64) ∧ n = 2 ^ 64 - 1 := by
  rw [exactIndex_eq_some_iff_exists]
  constructor
  · rintro ⟨i, hle, hi, rfl⟩
    rcases Nat.lt_or_eq_of_le hle with hlt | rfl
    · rw [Nat.min_eq_left (by omega)]
      exact .inl ⟨by omega, hi⟩
    · exact .inr ⟨hi, rfl⟩
  · rintro (⟨hle, hx⟩ | ⟨hx, rfl⟩)
    · exact ⟨n, by omega, hx, by omega⟩
    · exact ⟨2 ^ 64, Nat.le_refl _, hx, rfl⟩

theorem exactIndex_eq_none_iff : x.exactIndex = none ↔ ∀ n ≤ 2 ^ 64, ¬ x.Is n := by
  rw [Option.eq_none_iff_forall_ne_some]
  constructor
  · intro hnone n hle hx
    exact hnone _ (exactIndex_eq_some_iff_exists.2 ⟨n, hle, hx, rfl⟩)
  · intro hnone n hsome
    obtain ⟨i, hle, hi, -⟩ := exactIndex_eq_some_iff_exists.1 hsome
    exact hnone i hle hi

/-- No number is a position after `2^64 - 2^11`, so that what is found there is not exact. -/
theorem exists_exactIndex_near_end_iff :
    (∃ n, 2 ^ 64 - 2 ^ 11 < n ∧ x.exactIndex = some n) ↔ x.Is (2 ^ 64) := by
  constructor
  · rintro ⟨n, hn, hsome⟩
    rcases exactIndex_eq_some_iff_or.1 hsome with ⟨hle, hx⟩ | ⟨hx, -⟩
    · have hdvd : 2 ^ (10 + 1) ∣ n := hx.dvd_of_le (by omega)
      omega
    · exact hx
  · intro hx
    exact ⟨2 ^ 64 - 1, by decide, exactIndex_eq_some_iff_or.2 (.inr ⟨hx, rfl⟩)⟩

/-- **A number is taken for the position that it is exactly, and for none if it is no position**, with one exception:
`2^64`, to which the last position is rounded, is taken for that. Only so is a position after `2^64 - 2^11` ever
found. -/
theorem exactIndex_exact_but_at_end (x : Num) :
    (∀ n, x.exactIndex = some n ↔ n ≤ 2 ^ 64 - 1 ∧ x.Is n ∨ x.Is (2 ^ 64) ∧ n = 2 ^ 64 - 1) ∧
      (x.exactIndex = none ↔ ∀ n ≤ 2 ^ 64, ¬ x.Is n) ∧
      ((∃ n, 2 ^ 64 - 2 ^ 11 < n ∧ x.exactIndex = some n) ↔ x.Is (2 ^ 64)) ∧
      (x.Is (2 ^ 64) ↔ x = ofNat (2 ^ 64 - 1)) :=
  ⟨fun _ => exactIndex_eq_some_iff_or, exactIndex_eq_none_iff, exists_exactIndex_near_end_iff, is_end_iff⟩

/-- The number before `2^64` is found exactly. -/
example : (⟨0x43EFFFFFFFFFFFFF⟩ : Num).exactIndex = some (2 ^ 64 - 2 ^ 11) := by decide +kernel

/-- `2^64` is no position of 64 bits, and yet it is taken for the last one. -/
theorem end_taken_for_last :
    let x : Num := ⟨0x43F0000000000000⟩
    x.Is (2 ^ 64) ∧ x.exactIndex = some (2 ^ 64 - 1) ∧
      ¬ ∀ n, x.exactIndex = some n ↔ n ≤ 2 ^ 64 - 1 ∧ x.Is n := by
  intro x
  have hend : x.Is (2 ^ 64) := is_end_iff.2 (by decide +kernel)
  have hlast : x.exactIndex = some (2 ^ 64 - 1) := exactIndex_eq_some_iff_or.2 (.inr ⟨hend, rfl⟩)
  refine ⟨hend, hlast, fun hexact => ?_⟩
  have hvalue : ((2 ^ 64 : Nat) : ℚ) = (2 ^ 64 - 1 : Nat) := hend.2.symm.trans ((hexact _).1 hlast).2.2
  exact absurd (Nat.cast_injective hvalue) (by decide)

end ScriptValues.Num
