/-
The shortest decimal has the fewest digits of those that round to the number (`shortest_fewest`).

The search tries the grids one after another, from the coarsest on, and on each only the two neighbours of the number.
That is enough, as an interval holds what is between two of its points (`Encloses.between`): if any decimal on a grid
is in the interval, so is the neighbour on its side (`exists_onGrid_of_encloses`). A decimal with few digits is on a
coarse grid, or else it is below the power of ten that the number begins with, and then this power is in the interval
(`exists_onGrid_of_lt`).
-/
import ScriptValues.Proofs.Number.Shortest

namespace ScriptValues

/-! ## Counting digits -/

theorem toDigits_pow (k : Nat) : Nat.toDigits 10 (10 ^ k) = '1' :: List.replicate k '0' := by
  induction k with
  | zero => rfl
  | succ k ih =>
    have hnext : 10 ^ (k + 1) = 10 * 10 ^ k + 0 := Nat.pow_succ'
    rw [hnext, ← Nat.toDigits_append_toDigits (by decide) (Nat.pow_pos (by decide)) (by decide), ih,
      List.replicate_succ']
    rfl

theorem lt_pow_length_toDigits (n : Nat) : n < 10 ^ (Nat.toDigits 10 n).length :=
  (Nat.length_toDigits_le_iff (by decide) Nat.length_toDigits_pos).1 (Nat.le_refl _)

namespace Decimal

theorem strip_pow (k : Nat) (e : Int) : (⟨10 ^ k, e⟩ : Decimal).strip = ⟨1, e + k⟩ := by
  have hzeros : (digits ⟨10 ^ k, e⟩).reverse.takeWhile (· == '0') = List.replicate k '0' := by
    rw [digits, toDigits_pow, List.reverse_cons, List.reverse_replicate,
      List.takeWhile_append_of_pos (fun c hc => beq_iff_eq.2 (List.eq_of_mem_replicate hc))]
    simp
  rw [strip, hzeros, List.length_replicate, Nat.pow_eq, Nat.div_self (Nat.pow_pos (by decide))]

theorem length_digits_strip_le {d : Decimal} {k : Nat} (hk : 0 < k) (h : d.coefficient ≤ 10 ^ k) :
    d.strip.digits.length ≤ k := by
  obtain ⟨c, e⟩ := d
  rcases Nat.lt_or_eq_of_le h with hlt | rfl
  · rw [digits, Nat.length_toDigits_le_iff (by decide) hk]
    exact (Nat.div_le_self _ _).trans_lt hlt
  · rw [strip_pow, digits, Nat.length_toDigits_le_iff (by decide) hk]
    exact Nat.one_lt_pow hk.ne' (by decide)

/-- Zeros at the end of the coefficient count as much as the exponent does. -/
theorem value_shift (c n : Nat) (e : Int) : (⟨c * 10 ^ n, e⟩ : Decimal).value = (⟨c, e + n⟩ : Decimal).value := by
  rw [value, value, zpow_add₀ (by norm_num), zpow_natCast]
  push_cast
  ring

end Decimal

namespace Num

variable {x : Num} {a b q : ℚ} {e top : Int} {k : Nat}

/-! ## Grids -/

theorem Encloses.between (ha : x.Encloses a) (hb : x.Encloses b) (haq : a ≤ q) (hqb : q ≤ b) : x.Encloses q := by
  unfold Encloses at *
  split
  · next heven =>
    rw [if_pos heven] at ha hb
    exact ⟨ha.1.trans haq, hqb.trans hb.2⟩
  · next hodd =>
    rw [if_neg hodd] at ha hb
    exact ⟨ha.1.trans_le haq, hqb.trans_lt hb.2⟩

theorem gridFloor_le (x : Num) (e : Int) : (⟨x.gridFloor e, e⟩ : Decimal).value * (4 * one) ≤ x.quarters := by
  rw [grid_quarters, div_le_iff₀ (Nat.cast_pos.2 (quartersOf_pos 1 e))]
  exact_mod_cast Nat.div_mul_le_self _ _

theorem lt_gridFloor (x : Num) (e : Int) : x.quarters < (⟨x.gridFloor e + 1, e⟩ : Decimal).value * (4 * one) := by
  rw [grid_quarters, lt_div_iff₀ (Nat.cast_pos.2 (quartersOf_pos 1 e)), Nat.mul_comm]
  exact_mod_cast Nat.lt_mul_div_succ _ (quartersOf_one_pos e)

theorem value_mul_le {m n : Nat} (h : m ≤ n) :
    (⟨m, e⟩ : Decimal).value * (4 * one) ≤ (⟨n, e⟩ : Decimal).value * (4 * one) := by
  rw [grid_quarters, grid_quarters]
  exact div_le_div_of_nonneg_right (Nat.cast_le.2 (Nat.mul_le_mul_right _ h)) (Nat.cast_nonneg _)

/-- **If any decimal of a grid is in the interval, so is a neighbour of the number.** -/
theorem exists_onGrid_of_encloses (hx : 0 < x.magnitude) (h : x.Encloses ((⟨k, e⟩ : Decimal).value * (4 * one))) :
    ∃ d, x.onGrid e = some d := by
  apply exists_onGrid_of_or
  rw [roundsTo_grid_iff hx, roundsTo_grid_iff hx]
  rcases Nat.lt_or_ge (x.gridFloor e) k with hlt | hge
  · exact .inr (x.encloses_quarters.between h (x.lt_gridFloor e).le (value_mul_le hlt))
  · exact .inl (h.between x.encloses_quarters (value_mul_le hge) (x.gridFloor_le e))

/-- What a grid has to offer is one of the two neighbours of the number. -/
theorem coefficient_le_of_onGrid {d : Decimal} (h : x.onGrid e = some d) : d.coefficient ≤ x.gridFloor e + 1 := by
  rw [gridFloor]
  simp only [onGrid] at h
  split at h
  · split at h <;> cases h
    · exact Nat.le_succ _
    · exact Nat.le_refl _
  · split at h
    · cases h
      exact Nat.le_succ _
    · split at h <;> cases h
      exact Nat.le_refl _

/-! ## The first digit -/

/-- The number is below the power of ten above its leading exponent. -/
theorem quarters_lt_pow (x : Num) : x.quarters < (10 : ℚ) ^ (x.leadingExponent + 1) * (4 * one) := by
  have hone := one_pos
  have hlt := lt_pow_length_toDigits (x.quarters * 10 ^ leastLeading / (4 * one))
  rw [Nat.div_lt_iff_lt_mul (by omega)] at hlt
  rw [leadingExponent, Nat.pow_eq]
  generalize (Nat.toDigits 10 (x.quarters * 10 ^ leastLeading / (4 * one))).length = n at hlt ⊢
  have hexponent : (n : ℤ) - 1 - (leastLeading : Nat) + 1 = n - (leastLeading : Nat) := by omega
  rw [hexponent, zpow_sub₀ (by norm_num), zpow_natCast, zpow_natCast, div_mul_eq_mul_div, lt_div_iff₀ (by positivity)]
  exact_mod_cast hlt

/-- On the grid of `k` digits the number has `k` digits before the point. -/
theorem gridFloor_lt (he : e + k = x.leadingExponent + 1) : x.gridFloor e < 10 ^ k := by
  have hlt := (x.gridFloor_le e).trans_lt x.quarters_lt_pow
  have hunit : (0 : ℚ) < 4 * one := mul_pos (by norm_num) (Nat.cast_pos.2 one_pos)
  rw [mul_lt_mul_iff_left₀ hunit, Decimal.value, ← he, zpow_add₀ (by norm_num), mul_comm (10 ^ e),
    mul_lt_mul_iff_left₀ (zpow_pos (by norm_num) e), zpow_natCast] at hlt
  exact_mod_cast hlt

theorem length_digits_onGrid_le {d : Decimal} (hk : 0 < k) (he : e + k = x.leadingExponent + 1)
    (h : x.onGrid e = some d) : d.strip.digits.length ≤ k :=
  Decimal.length_digits_strip_le hk ((coefficient_le_of_onGrid h).trans (gridFloor_lt he))

/-- A decimal that is below the grid of `k` digits is below the power of ten that the number begins with. -/
theorem exists_onGrid_of_lt {c : Nat} (hx : 0 < x.magnitude) (hk : 0 < k) (hc : c < 10 ^ k)
    (he : e + k ≤ x.leadingExponent) (h : x.Encloses ((⟨c, e⟩ : Decimal).value * (4 * one))) :
    ∃ d, x.onGrid (x.leadingExponent - k + 1) = some d := by
  have hunit : (0 : ℚ) < 4 * one := mul_pos (by norm_num) (Nat.cast_pos.2 one_pos)
  have hpow : (⟨1 * 10 ^ (k - 1), x.leadingExponent - k + 1⟩ : Decimal).value = 10 ^ x.leadingExponent := by
    have hexponent : x.leadingExponent - k + 1 + (k - 1 : Nat) = x.leadingExponent := by omega
    rw [Decimal.value_shift, hexponent, Decimal.value, Nat.cast_one, one_mul]
  have hbelow : (⟨c, e⟩ : Decimal).value ≤ 10 ^ x.leadingExponent :=
    calc (⟨c, e⟩ : Decimal).value ≤ 10 ^ k * 10 ^ e :=
          mul_le_mul_of_nonneg_right (by exact_mod_cast hc.le) (zpow_nonneg (by norm_num) e)
      _ = 10 ^ (e + k) := by rw [zpow_add₀ (by norm_num), zpow_natCast, mul_comm]
      _ ≤ 10 ^ x.leadingExponent := zpow_le_zpow_right₀ (by norm_num) he
  refine exists_onGrid_of_encloses hx (k := 1 * 10 ^ (k - 1)) ?_
  rw [hpow]
  exact h.between x.encloses_quarters (mul_le_mul_of_nonneg_right hbelow hunit.le) (pow_leadingExponent_le hx)

/-- If a decimal with `k` digits is in the interval, the grid of `k` digits has one to offer. -/
theorem exists_onGrid_of_digits {c : Nat} (hx : 0 < x.magnitude) (hk : 0 < k) (hc : c < 10 ^ k)
    (h : x.Encloses ((⟨c, e⟩ : Decimal).value * (4 * one))) :
    ∃ d, x.onGrid (x.leadingExponent - k + 1) = some d := by
  rcases Int.lt_or_le e (x.leadingExponent - k + 1) with hlt | hge
  · exact exists_onGrid_of_lt hx hk hc (by omega) h
  · obtain ⟨n, hn⟩ : ∃ n : Nat, e = x.leadingExponent - k + 1 + n := ⟨(e - (x.leadingExponent - k + 1)).toNat, by omega⟩
    rw [hn, ← Decimal.value_shift] at h
    exact exists_onGrid_of_encloses hx h

/-! ## The search -/

/-- The search goes no further than to the first grid with a decimal. -/
theorem length_digits_shortestFrom_le {tries digits : Nat} (hdigits : 0 < digits) (hlow : digits ≤ k)
    (hhigh : k < digits + tries) (h : ∃ d, x.onGrid (x.leadingExponent - k + 1) = some d) :
    (x.shortestFrom x.leadingExponent tries digits).digits.length ≤ k := by
  induction tries generalizing digits with
  | zero => omega
  | succ tries ih =>
    rw [shortestFrom]
    split
    · next d hd => exact (length_digits_onGrid_le hdigits (by omega) hd).trans hlow
    · next hnone =>
      have hne : digits ≠ k := by
        rintro rfl
        obtain ⟨d, hd⟩ := h
        cases hnone.symm.trans hd
      exact ih (by omega) (by omega) (by omega)

/-- **No decimal that rounds to the number has fewer digits than the shortest.** -/
theorem shortest_fewest {c : Nat} (hx : 0 < x.magnitude) (h : x.Encloses ((⟨c, e⟩ : Decimal).value * (4 * one))) :
    x.shortest.digits.length ≤ (Nat.toDigits 10 c).length := by
  rcases Nat.lt_or_ge 17 (Nat.toDigits 10 c).length with hgt | hle
  · exact (length_digits_shortestFrom_le (k := 17) Nat.one_pos (by decide) (by decide)
      (exists_onGrid_of_seventeen hx (by omega))).trans hgt.le
  · have hpos := Nat.length_toDigits_pos (b := 10) (n := c)
    exact length_digits_shortestFrom_le Nat.one_pos hpos (by omega)
      (exists_onGrid_of_digits hx hpos (lt_pow_length_toDigits c) h)

end Num

end ScriptValues
