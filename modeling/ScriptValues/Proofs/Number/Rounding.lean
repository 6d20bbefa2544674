/-
Rounding is to the nearest number. `IsNearest` says of a number, without computing, that it is the one nearest to a
rational, on a tie the one with the even significand, and infinity from half a step above the greatest finite number
on. Intervals say the same: a finite number is nearest to the rationals in its interval (`isNearest_of_encloses`) and to
no others (`encloses_of_isNearest`), as of the two numbers that are equally near to a rational only one has an even
significand (`abs_sub_le_of_encloses`).

A quotient is rounded to the nearest number (`ofRatio_isNearest`), and so is a decimal of any length
(`ofDecimal_isNearest`): no digit is lost before the one rounding.
-/
import Mathlib.Algebra.Order.Ring.Abs
import ScriptValues.Proofs.Number.Position
import ScriptValues.Proofs.Number.Shortest

namespace ScriptValues.Num

variable {x y : Num} {q r : ℚ}

/-- Half a step above the greatest finite number. -/
def overflow : ℚ := 2 ^ 1024 - 2 ^ 970

/-- A rational is rounded to `x`: to infinity if it is too great, and else to the nearest finite number, of two that
are equally near to the one whose significand is even. -/
structure IsNearest (x : Num) (q : ℚ) : Prop where
  number : x.isNaN = false
  sign : q ≠ 0 → (x.isNegative = true ↔ q < 0)
  infinite : x.isInfinite = true ↔ overflow ≤ |q|
  nearest : x.isFinite = true → ∀ y : Num, y.isFinite = true → |x.value - q| ≤ |y.value - q|
  even : x.isFinite = true → ∀ y : Num, y.isFinite = true → y.value ≠ x.value →
    |x.value - q| = |y.value - q| → x.significand % 2 = 0

/-! ## Values in quarters of a unit -/

theorem isInfinite_of_isFinite (h : x.isFinite = true) : x.isInfinite = false := by
  simp only [isFinite, isInfinite, bne_iff_ne, ne_eq] at *
  simp [h]

theorem four_mul_one_pos : (0 : ℚ) < 4 * one := by
  have hone : (0 : ℚ) < one := Nat.cast_pos.2 one_pos
  linarith

theorem abs_value_mul (x : Num) : |x.value| * (4 * one) = x.quarters := by
  have hone : (one : ℚ) ≠ 0 := Nat.cast_ne_zero.2 one_pos.ne'
  have habs : |(x.scaled : ℚ)| = x.magnitude := by
    rw [← Int.cast_abs, Int.abs_eq_natAbs, natAbs_scaled, Int.cast_natCast]
  rw [value, abs_div, habs, Nat.abs_cast, quarters]
  push_cast
  field_simp

theorem abs_value_eq_iff : |x.value| = |y.value| ↔ x.magnitude = y.magnitude := by
  rw [← mul_left_inj' four_mul_one_pos.ne', abs_value_mul, abs_value_mul, Nat.cast_inj, quarters, quarters]
  omega

theorem value_eq_zero_iff : x.value = 0 ↔ x.magnitude = 0 := by
  rw [← abs_eq_zero, ← mul_left_inj' four_mul_one_pos.ne', abs_value_mul, zero_mul, Nat.cast_eq_zero, quarters]
  omega

theorem value_nonpos (h : x.isNegative = true) : x.value ≤ 0 := by
  have hone : (0 : ℚ) < one := Nat.cast_pos.2 one_pos
  have hscaled : x.scaled ≤ 0 := by
    rw [scaled, if_pos h]
    omega
  exact div_nonpos_of_nonpos_of_nonneg (Int.cast_nonpos.2 hscaled) hone.le

theorem value_nonneg (h : x.isNegative = false) : 0 ≤ x.value := by
  have hone : (0 : ℚ) < one := Nat.cast_pos.2 one_pos
  have hscaled : 0 ≤ x.scaled := by
    rw [scaled, if_neg (Bool.eq_false_iff.1 h)]
    omega
  exact div_nonneg (Int.cast_nonneg hscaled) hone.le

/-- A number is as far from a rational of its sign as their absolute values are. -/
theorem abs_value_sub (hsign : q ≠ 0 → (x.isNegative = true ↔ q < 0)) : |x.value - q| = |(|x.value| - |q|)| := by
  rcases eq_or_ne q 0 with rfl | hq
  · simp
  cases hx : x.isNegative with
  | true =>
    have hneg : q < 0 := (hsign hq).1 hx
    rw [abs_of_nonpos (value_nonpos hx), abs_of_neg hneg, ← abs_neg]
    congr 1
    ring
  | false =>
    have hpos : ¬ q < 0 := fun hneg => Bool.false_ne_true (hx.symm.trans ((hsign hq).2 hneg))
    rw [abs_of_nonneg (value_nonneg hx), abs_of_nonneg (not_lt.1 hpos)]

theorem abs_quarters_sub (x : Num) (q : ℚ) :
    |(x.quarters : ℚ) - |q| * (4 * one)| = |(|x.value| - |q|)| * (4 * one) := by
  rw [← abs_value_mul, ← sub_mul, abs_mul, abs_of_pos four_mul_one_pos]

/-! ## Nearest is within the interval -/

theorem encloses_bounds (h : x.Encloses r) :
    ((x.quarters : ℚ) - x.below ≤ r ∧ r ≤ x.quarters + x.above) ∧
      (x.significand % 2 = 1 → (x.quarters : ℚ) - x.below < r ∧ r < x.quarters + x.above) := by
  rw [Encloses] at h
  split at h
  · next heven => exact ⟨h, fun hodd => by omega⟩
  · exact ⟨⟨h.1.le, h.2.le⟩, fun _ => h⟩

theorem encloses_zero_iff : x.Encloses 0 ↔ x.magnitude = 0 := by
  constructor
  · intro h
    by_contra hne
    have hlow := (encloses_bounds h).1.1
    rw [sub_nonpos, Nat.cast_le, quarters_eq] at hlow
    have hsignificand : 0 < x.significand := Nat.pos_of_mul_pos_right (Nat.pos_of_ne_zero hne)
    have hstep := Nat.mul_le_mul_right (2 ^ x.scale) hsignificand
    have hle := hlow.trans x.below_le_above
    have hpos := Nat.two_pow_pos x.scale
    rw [above_eq, Nat.mul_assoc] at hle
    omega
  · intro h
    have hself := x.encloses_quarters
    rwa [quarters, h, Nat.mul_zero, Nat.cast_zero] at hself

/-- What is within half the gap of `b`, or beyond `b`, is no nearer to `a`, and as near only in the middle of the
gap. -/
theorem abs_sub_le_of_gap {a b h : ℚ} (hpos : 0 < h) (hgap : a + 2 * h ≤ b) (hr : b - h ≤ r) :
    |b - r| ≤ |a - r| ∧ (|b - r| = |a - r| → r = b - h ∧ b = a + 2 * h) := by
  have hfar : |a - r| = r - a := by
    rw [abs_sub_comm, abs_of_nonneg]
    linarith
  rw [hfar]
  rcases abs_cases (b - r) with ⟨hnear, -⟩ | ⟨hnear, -⟩ <;> rw [hnear]
  · exact ⟨by linarith, fun htie => ⟨by linarith, by linarith⟩⟩
  · exact ⟨by linarith, fun htie => by linarith⟩

/-- **No other number is nearer to what rounds to `x`**, and one that is as near has an odd significand. -/
theorem abs_sub_le_of_encloses (hx : x.Encloses r) (hne : y.magnitude ≠ x.magnitude) :
    |(x.quarters : ℚ) - r| ≤ |(y.quarters : ℚ) - r| ∧
      (|(x.quarters : ℚ) - r| = |(y.quarters : ℚ) - r| → x.significand % 2 = 0 ∧ y.significand % 2 = 1) := by
  obtain ⟨⟨hlow, hhigh⟩, hodd⟩ := encloses_bounds hx
  have hbelow : (0 : ℚ) < x.below := Nat.cast_pos.2 x.below_pos
  have habove : (0 : ℚ) < x.above := Nat.cast_pos.2 (x.below_pos.trans_le x.below_le_above)
  -- A tie is at an end of the interval and in the middle of the gap: `x` has the end, and `y` does not.
  rcases Nat.lt_or_gt_of_ne hne with hlt | hgt
  · obtain ⟨⟨-, hstep⟩, hstrict⟩ := step_le hlt
    obtain ⟨hle, htie⟩ := abs_sub_le_of_gap hbelow (by exact_mod_cast hstep : (y.quarters : ℚ) + 2 * x.below ≤ _) hlow
    refine ⟨hle, fun heq => ?_⟩
    obtain ⟨hend, hgap⟩ := htie heq
    have hxe : x.significand % 2 = 0 := by
      by_contra hxo
      exact (hodd (by omega)).1.ne hend.symm
    have hgap : x.quarters = y.quarters + 2 * x.below := by exact_mod_cast hgap
    refine ⟨hxe, ?_⟩
    by_contra hye
    exact (hstrict (by omega) hxe).2.ne hgap.symm
  · obtain ⟨⟨hstep, -⟩, hstrict⟩ := step_le hgt
    have hstep : -(y.quarters : ℚ) + 2 * x.above ≤ -x.quarters := by
      have hstep : (x.quarters : ℚ) + 2 * x.above ≤ y.quarters := by exact_mod_cast hstep
      linarith
    -- The same seen from the other side.
    obtain ⟨hle, htie⟩ := abs_sub_le_of_gap (r := -r) habove hstep (by linarith)
    rw [← neg_sub', ← neg_sub', abs_neg, abs_neg] at hle htie
    refine ⟨hle, fun heq => ?_⟩
    obtain ⟨hend, hgap⟩ := htie heq
    have hxe : x.significand % 2 = 0 := by
      by_contra hxo
      exact (hodd (by omega)).2.ne (by linarith)
    have hgap : x.quarters + 2 * x.above = y.quarters := by
      have hgap : (x.quarters : ℚ) + 2 * x.above = y.quarters := by linarith
      exact_mod_cast hgap
    refine ⟨hxe, ?_⟩
    by_contra hye
    exact (hstrict hxe (by omega)).1.ne hgap

theorem scale_le (h : x.isFinite = true) : x.scale ≤ 2045 := by
  have hlt : x.exponentField < 2048 := Nat.mod_lt _ (by decide)
  rw [isFinite, bne_iff_ne] at h
  rw [scale]
  omega

theorem cast_one : (one : ℚ) = 2 ^ 1074 := by
  unfold one
  generalize 1074 = e
  exact Nat.cast_pow 2 e

theorem overflow_mul : overflow * (4 * one) = (2 ^ 55 - 2) * 2 ^ 2045 := by
  have hshift : ∀ a b : Nat, ((2 : ℚ) ^ (54 + a) - 2 ^ a) * (4 * 2 ^ b) = (2 ^ 55 - 2) * 2 ^ (a + b + 1) := by
    intro a b
    ring
  rw [overflow, cast_one]
  exact hshift 970 1074

/-- What rounds to a finite number does not overflow. -/
theorem lt_overflow_of_encloses (hfinite : x.isFinite = true) (hx : x.Encloses r) : r < overflow * (4 * one) := by
  obtain ⟨⟨-, hhigh⟩, hodd⟩ := encloses_bounds hx
  have hsignificand := x.significand_lt
  have hends : (x.quarters : ℚ) + x.above = (4 * x.significand + 2) * 2 ^ x.scale := by
    rw [quarters_eq, above_eq]
    push_cast
    ring
  have hpow : (2 : ℚ) ^ x.scale ≤ 2 ^ 2045 := pow_le_pow_right₀ one_le_two (scale_le hfinite)
  have hpos : (0 : ℚ) < 2 ^ 2045 := pow_pos two_pos _
  rw [overflow_mul]
  rw [hends] at hhigh hodd
  generalize (2 : ℚ) ^ 2045 = top at *
  have hscale : (4 * x.significand + 2 : ℚ) * 2 ^ x.scale ≤ (4 * x.significand + 2) * top :=
    mul_le_mul_of_nonneg_left hpow (by positivity)
  -- The greatest significand is odd, and its interval is open above.
  rcases Nat.mod_two_eq_zero_or_one x.significand with heven | hone
  · have hlt : (4 * x.significand + 2 : ℚ) + 2 < 2 ^ 55 := by exact_mod_cast (by omega)
    have hbelow : (4 * x.significand + 2 : ℚ) < 2 ^ 55 - 2 := by linarith
    exact (hhigh.trans hscale).trans_lt (mul_lt_mul_of_pos_right hbelow hpos)
  · have hle : (4 * x.significand + 2 : ℚ) + 2 ≤ 2 ^ 55 := by exact_mod_cast (by omega)
    have hbelow : (4 * x.significand + 2 : ℚ) ≤ 2 ^ 55 - 2 := by linarith
    exact ((hodd hone).2.trans_le hscale).trans_le (mul_le_mul_of_nonneg_right hbelow hpos.le)

/-- What rounds to a finite number of its sign is nearest to that. -/
theorem isNearest_of_encloses (hfinite : x.isFinite = true) (hsign : q ≠ 0 → (x.isNegative = true ↔ q < 0))
    (hx : x.Encloses (|q| * (4 * one))) : x.IsNearest q := by
  have hunit := four_mul_one_pos
  have hself := abs_value_sub hsign
  have htriangle : ∀ y : Num, |(|y.value| - |q|)| ≤ |y.value - q| := fun y => abs_abs_sub_abs_le _ _
  refine ⟨isNaN_of_isFinite hfinite, hsign, ?_, fun _ y _ => ?_, fun _ y _ hne htie => ?_⟩
  · have hlt := lt_of_mul_lt_mul_right (lt_overflow_of_encloses hfinite hx) hunit.le
    simp [isInfinite_of_isFinite hfinite, hlt]
  · rw [hself]
    refine le_trans ?_ (htriangle y)
    by_cases hsame : y.magnitude = x.magnitude
    · rw [abs_value_eq_iff.2 hsame]
    · have hle := (abs_sub_le_of_encloses hx hsame).1
      rwa [abs_quarters_sub, abs_quarters_sub, mul_le_mul_iff_left₀ hunit] at hle
  · by_cases hsame : y.magnitude = x.magnitude
    · -- The other number of this magnitude is as near to zero only.
      exfalso
      have hopposite : y.value = -x.value := (abs_eq_abs.1 (abs_value_eq_iff.2 hsame)).resolve_left hne
      rw [hopposite, ← abs_neg (-x.value - q), abs_eq_abs] at htie
      have hzero : q = 0 := by
        rcases htie with htie | htie
        · linarith
        · have hvalue : x.value = 0 := by linarith
          exact absurd (by rw [hopposite, hvalue, neg_zero]) hne
      rw [hzero, abs_zero, zero_mul, encloses_zero_iff, ← value_eq_zero_iff] at hx
      exact hne (by rw [hopposite, hx, neg_zero])
    · have htie' : |(|x.value| - |q|)| = |(|y.value| - |q|)| := by
        have hle := (abs_sub_le_of_encloses hx hsame).1
        rw [abs_quarters_sub, abs_quarters_sub, mul_le_mul_iff_left₀ hunit] at hle
        exact le_antisymm hle ((htriangle y).trans (by rw [← htie, hself]))
      refine ((abs_sub_le_of_encloses hx hsame).2 ?_).1
      rw [abs_quarters_sub, abs_quarters_sub, htie']

/-! ## Quotients -/

theorem make_significand_scale {negative : Bool} {m p : Nat} (h : Valid m p) :
    (make negative m p).significand = m ∧ (make negative m p).scale = p :=
  significand_scale_unique (significand_lt _) h.lt (significand_normal _) h.normal (make_magnitude h)

theorem roundDiv_spec {n d : Nat} (hd : 0 < d) :
    (n / d ≤ roundDiv n d ∧ roundDiv n d ≤ n / d + 1) ∧
      (2 * (roundDiv n d * d) ≤ 2 * n + d ∧ 2 * n ≤ 2 * (roundDiv n d * d) + d) ∧
      (roundDiv n d % 2 = 1 → 2 * (roundDiv n d * d) < 2 * n + d ∧ 2 * n < 2 * (roundDiv n d * d) + d) := by
  have hdiv := Nat.div_add_mod n d
  have hmod := Nat.mod_lt n hd
  rw [Nat.mul_comm] at hdiv
  simp only [roundDiv]
  generalize n / d = k at *
  generalize n % d = rest at *
  have hnext : (k + 1) * d = k * d + d := Nat.succ_mul k d
  split
  · omega
  · split
    · rcases Nat.mod_two_eq_zero_or_one k with heven | hodd
      · rw [heven, Nat.add_zero]
        omega
      · rw [hodd]
        omega
    · omega

theorem encloses_div_iff {k d : Nat} (hd : 0 < d) : x.Encloses ((k : ℚ) / d) ↔
    if x.significand % 2 = 0 then x.quarters * d ≤ k + x.below * d ∧ k ≤ (x.quarters + x.above) * d
    else x.quarters * d < k + x.below * d ∧ k < (x.quarters + x.above) * d := by
  have hd' : (0 : ℚ) < d := Nat.cast_pos.2 hd
  rw [Encloses, le_div_iff₀ hd', div_le_iff₀ hd', lt_div_iff₀ hd', div_lt_iff₀ hd', sub_mul, sub_le_iff_le_add,
    sub_lt_iff_lt_add]
  split <;> exact_mod_cast Iff.rfl

/-- The significand and the scale that a quotient is rounded to, be they as great as they may. -/
def roundedFields (n d : Nat) : Nat × Nat :=
  let p := (n / d).log2 - 52
  let m := roundDiv n (d * Nat.pow 2 p)
  if m < Nat.pow 2 53 then (m, p) else (Nat.pow 2 52, p + 1)

theorem ofRatio_eq (negative : Bool) (n d : Nat) : ofRatio negative n d =
    if (roundedFields n d).2 ≤ 2045 then make negative (roundedFields n d).1 (roundedFields n d).2
    else infinity negative := by
  simp only [ofRatio, roundedFields]
  split <;> rfl

/-- At this scale the whole part of a quotient is a significand. -/
theorem div_scale (n d : Nat) : n / (d * 2 ^ ((n / d).log2 - 52)) < 2 ^ 53 ∧
    ((n / d).log2 - 52 = 0 ∨ 2 ^ 52 ≤ n / (d * 2 ^ ((n / d).log2 - 52))) := by
  rw [← Nat.div_div_eq_div_mul]
  generalize n / d = k
  rcases Nat.eq_zero_or_pos k with rfl | hpos
  · simp
  obtain ⟨hlow, hhigh⟩ := (Nat.log2_eq_iff hpos.ne').1 (rfl : k.log2 = k.log2)
  rw [Nat.div_lt_iff_lt_mul (Nat.two_pow_pos _), Nat.le_div_iff_mul_le (Nat.two_pow_pos _), ← Nat.pow_add,
    ← Nat.pow_add]
  rcases Nat.le_total k.log2 52 with hle | hge
  · refine ⟨hhigh.trans_le (Nat.pow_le_pow_right (by decide) (by omega)), .inl (by omega)⟩
  · have htop : 53 + (k.log2 - 52) = k.log2 + 1 := by omega
    have hbottom : 52 + (k.log2 - 52) = k.log2 := by omega
    rw [htop, hbottom]
    exact ⟨hhigh, .inr hlow⟩

/-- The fields are those of a number, too great ones apart, and the quotient is in the interval that they stand for. -/
theorem roundedFields_spec {n d m p : Nat} (hd : 0 < d) (h : roundedFields n d = (m, p)) :
    m < 2 ^ 53 ∧ (2 ^ 52 ≤ m ∨ p = 0) ∧
      (4 * (m * (d * 2 ^ p)) ≤ 4 * n + (if m = 2 ^ 52 ∧ 0 < p then 1 else 2) * (d * 2 ^ p) ∧
        4 * n ≤ 4 * (m * (d * 2 ^ p)) + 2 * (d * 2 ^ p)) ∧
      (m % 2 = 1 → 4 * (m * (d * 2 ^ p)) < 4 * n + 2 * (d * 2 ^ p) ∧
        4 * n < 4 * (m * (d * 2 ^ p)) + 2 * (d * 2 ^ p)) := by
  obtain ⟨hlt, hnormal⟩ := div_scale n d
  simp only [roundedFields, Nat.pow_eq] at h
  generalize (n / d).log2 - 52 = e at *
  have hpos : 0 < d * 2 ^ e := Nat.mul_pos hd (Nat.two_pow_pos e)
  have hwhole := Nat.div_mul_le_self n (d * 2 ^ e)
  obtain ⟨⟨hmlow, hmhigh⟩, hnear, hodd⟩ := roundDiv_spec (n := n) hpos
  split at h <;> simp only [Prod.mk.injEq] at h <;> obtain ⟨rfl, rfl⟩ := h
  · next hm =>
    refine ⟨hm, hnormal.symm.imp_left (fun hle => hle.trans hmlow), ⟨?_, by omega⟩, fun hone => ?_⟩
    · split
      · next hleast =>
        -- The quotient is not below a significand that is at its least.
        have hle := Nat.mul_le_mul_right (d * 2 ^ e) (hnormal.resolve_left (by omega))
        rw [hleast.1]
        omega
      · omega
    · have hlt' := hodd hone
      omega
  · next hm =>
    have hm' : roundDiv n (d * 2 ^ e) = 2 ^ 53 := by omega
    have hdouble : d * 2 ^ (e + 1) = 2 * (d * 2 ^ e) := by
      rw [Nat.pow_succ]
      ring
    rw [hm'] at hnear
    rw [hdouble]
    refine ⟨by decide, .inl (Nat.le_refl _), ?_, fun hone => absurd hone (by decide)⟩
    rw [if_pos ⟨rfl, Nat.succ_pos e⟩]
    omega

/-- Fields that are not too great make a number, and the quotient is in its interval. -/
theorem encloses_of_roundedFields {n d m p : Nat} (negative : Bool) (hd : 0 < d) (h : roundedFields n d = (m, p))
    (hp : p ≤ 2045) : Valid m p ∧ (make negative m p).Encloses ((4 * n : Nat) / d) := by
  obtain ⟨hlt, hnormal, hnear, hodd⟩ := roundedFields_spec hd h
  have hvalid : Valid m p := ⟨hlt, hnormal, hp⟩
  obtain ⟨hsignificand, hscale⟩ : (make negative m p).significand = m ∧ (make negative m p).scale = p :=
    make_significand_scale hvalid
  refine ⟨hvalid, (encloses_div_iff hd).2 ?_⟩
  have hquarters : (4 * m * 2 ^ p) * d = 4 * (m * (d * 2 ^ p)) := by ring
  have habove : (4 * m * 2 ^ p + 2 * 2 ^ p) * d = 4 * (m * (d * 2 ^ p)) + 2 * (d * 2 ^ p) := by ring
  have hbelow : (if m = 2 ^ 52 ∧ 0 < p then 2 ^ p else 2 * 2 ^ p) * d =
      (if m = 2 ^ 52 ∧ 0 < p then 1 else 2) * (d * 2 ^ p) := by
    split <;> ring
  simp only [quarters_eq, above_eq, below, hsignificand, hscale, Nat.pow_eq, hquarters, habove, hbelow]
  split
  · exact hnear
  · next hne =>
    have hstrict := hodd (by omega)
    have hmid : ¬ (m = 2 ^ 52 ∧ 0 < p) := fun hleast => by omega
    rwa [if_neg hmid]

/-- Fields that are too great come from a quotient that overflows. -/
theorem overflow_le_of_roundedFields {n d m p : Nat} (hd : 0 < d) (h : roundedFields n d = (m, p)) (hp : 2045 < p) :
    overflow * (4 * one) ≤ (4 * n : Nat) / d := by
  obtain ⟨-, hnormal, ⟨hnear, -⟩, -⟩ := roundedFields_spec hd h
  have hd' : (0 : ℚ) < d := Nat.cast_pos.2 hd
  have hm : 2 ^ 52 ≤ m := hnormal.resolve_right (by omega)
  have hscale : ∀ e < p, 2 * (d * 2 ^ e) ≤ d * 2 ^ p := by
    intro e he
    calc 2 * (d * 2 ^ e) = d * 2 ^ (e + 1) := by rw [Nat.pow_succ]; ring
      _ ≤ d * 2 ^ p := Nat.mul_le_mul_left d (Nat.pow_le_pow_right (by decide) he)
  have hle : (2 ^ 54 - 1) * (d * 2 ^ p) ≤ 4 * n := by
    rcases Nat.eq_or_lt_of_le hm with rfl | hlt
    · rw [if_pos ⟨rfl, by omega⟩] at hnear
      omega
    · have hnext := Nat.mul_le_mul_right (d * 2 ^ p) hlt
      rw [if_neg (by omega)] at hnear
      omega
  have hall : (2 ^ 55 - 2) * (d * 2 ^ 2045) ≤ 4 * n := by
    have hbelow := hscale 2045 hp
    generalize d * 2 ^ 2045 = a at *
    omega
  rw [overflow_mul, le_div_iff₀ hd']
  have hcast : (((2 ^ 55 - 2) * (d * 2 ^ 2045) : Nat) : ℚ) ≤ (4 * n : Nat) := Nat.cast_le.2 hall
  refine le_of_eq_of_le ?_ hcast
  generalize 2045 = e
  push_cast
  ring

theorem infinity_isInfinite (negative : Bool) : (infinity negative).isInfinite = true := by
  cases negative <;> decide

theorem infinity_isNegative (negative : Bool) : (infinity negative).isNegative = negative := by
  cases negative <;> decide

/-- A quotient is rounded to a number in whose interval it is, unless it overflows. -/
theorem ofRatio_spec (negative : Bool) (n : Nat) {d : Nat} (hd : 0 < d) :
    (∃ m p, Valid m p ∧ ofRatio negative n d = make negative m p ∧
      (make negative m p).Encloses ((4 * n : Nat) / d)) ∨
    ofRatio negative n d = infinity negative ∧ overflow * (4 * one) ≤ (4 * n : Nat) / d := by
  generalize hfields : roundedFields n d = fields
  obtain ⟨m, p⟩ := fields
  rw [ofRatio_eq, hfields]
  split
  · next hp =>
    obtain ⟨hvalid, hencloses⟩ := encloses_of_roundedFields negative hd hfields hp
    exact .inl ⟨m, p, hvalid, rfl, hencloses⟩
  · next hp => exact .inr ⟨rfl, overflow_le_of_roundedFields hd hfields (Nat.lt_of_not_le hp)⟩

/-- The rational with this sign and absolute value. -/
def signed (negative : Bool) (q : ℚ) : ℚ := if negative then -q else q

theorem abs_signed {negative : Bool} (hq : 0 ≤ q) : |signed negative q| = q := by
  cases negative <;> simp [signed, abs_of_nonneg hq]

theorem signed_neg_iff {negative : Bool} (hq : 0 ≤ q) (hne : signed negative q ≠ 0) :
    negative = true ↔ signed negative q < 0 := by
  cases negative with
  | true =>
    have hpos : 0 < q := hq.lt_of_ne' fun hzero => hne (by rw [hzero]; exact neg_zero)
    simpa [signed] using hpos
  | false => simpa [signed] using hq

theorem quotient_mul (n d : Nat) : (n / (d * one) : ℚ) * (4 * one) = (4 * n : Nat) / d := by
  have hone : (one : ℚ) ≠ 0 := Nat.cast_ne_zero.2 one_pos.ne'
  rw [div_mul_eq_mul_div, ← mul_assoc, mul_div_mul_right _ _ hone, mul_comm (n : ℚ)]
  push_cast
  rfl

/-- **A quotient is rounded to the number nearest to it.** -/
theorem ofRatio_isNearest (negative : Bool) (n : Nat) {d : Nat} (hd : 0 < d) :
    (ofRatio negative n d).IsNearest (signed negative (n / (d * one))) := by
  have hnonneg : (0 : ℚ) ≤ n / (d * one) :=
    div_nonneg (Nat.cast_nonneg n) (mul_nonneg (Nat.cast_nonneg d) (Nat.cast_nonneg one))
  have habs : |signed negative (n / (d * one))| = n / (d * one) := abs_signed hnonneg
  have hsign : signed negative (n / (d * one)) ≠ 0 → (negative = true ↔ signed negative (n / (d * one)) < 0) :=
    signed_neg_iff hnonneg
  rcases ofRatio_spec negative n hd with ⟨m, p, hvalid, hmake, hencloses⟩ | ⟨hinfinity, hoverflow⟩
  · rw [hmake]
    refine isNearest_of_encloses (make_isFinite hvalid) (by rwa [make_isNegative hvalid]) ?_
    rwa [habs, quotient_mul]
  · have hinfinite := infinity_isInfinite negative
    have hfinite : (infinity negative).isFinite ≠ true := by cases negative <;> decide
    rw [← quotient_mul, mul_le_mul_iff_left₀ four_mul_one_pos, ← habs] at hoverflow
    rw [hinfinity]
    exact ⟨isNaN_of_isInfinite hinfinite, by rwa [infinity_isNegative], iff_of_true hinfinite hoverflow,
      fun h => absurd h hfinite, fun h => absurd h hfinite⟩

/-- Rounding does not depend on the sign. -/
theorem ofRatio_true (n : Nat) {d : Nat} (hd : 0 < d) : ofRatio true n d = (ofRatio false n d).neg := by
  generalize hfields : roundedFields n d = fields
  obtain ⟨m, p⟩ := fields
  rw [ofRatio_eq, ofRatio_eq, hfields]
  split
  · next hp =>
    have hvalid := (encloses_of_roundedFields true hd hfields hp).1
    refine eq_of_magnitude_eq ?_ ?_
    · rw [neg_isNegative, make_isNegative hvalid, make_isNegative hvalid]
      rfl
    · rw [neg_magnitude, make_magnitude hvalid, make_magnitude hvalid]
  · rfl

/-- A decimal with any number of digits is rounded to the number nearest to it. -/
theorem ofDecimal_isNearest (negative : Bool) (c : Nat) (e : Int) :
    (ofDecimal negative c e).IsNearest (signed negative (c * 10 ^ e)) := by
  have hone : (one : ℚ) ≠ 0 := Nat.cast_ne_zero.2 one_pos.ne'
  rw [ofDecimal]
  split
  · next he =>
    obtain ⟨k, rfl⟩ := Int.eq_ofNat_of_zero_le he
    have hnearest := ofRatio_isNearest negative (c * Nat.pow 10 k * one) Nat.one_pos
    rwa [Nat.cast_mul, Nat.cast_one, one_mul, mul_div_cancel_right₀ _ hone, Nat.cast_mul, Nat.pow_eq,
      Nat.cast_pow] at hnearest
  · next he =>
    obtain ⟨k, rfl⟩ : ∃ k : Nat, e = -k := ⟨(-e).toNat, by omega⟩
    have hnearest := ofRatio_isNearest negative (c * one) (Nat.pow_pos (n := k) (by decide : 0 < 10))
    rw [Nat.cast_mul, mul_div_mul_right _ _ hone, Nat.cast_pow, div_eq_mul_inv] at hnearest
    rwa [neg_neg, Int.toNat_natCast, zpow_neg, zpow_natCast]

/-! ## The nearest number is the one whose interval it is -/

theorem IsNearest.isFinite_iff (h : x.IsNearest q) : x.isFinite = true ↔ |q| < overflow := by
  rw [← not_le, ← h.infinite]
  rcases x.isFinite_or with hnan | hinfinite | hfinite
  · exact absurd hnan (Bool.eq_false_iff.1 h.number)
  · simp [hinfinite, show x.isFinite = false by simp_all [isFinite, isInfinite]]
  · simp [hfinite, isInfinite_of_isFinite hfinite]

/-- Every rational is rounded to a number. -/
theorem exists_isNearest (q : ℚ) :
    ∃ y : Num, y.IsNearest q ∧ (y.isFinite = true → y.Encloses (|q| * (4 * one))) := by
  have hone : (one : ℚ) ≠ 0 := Nat.cast_ne_zero.2 one_pos.ne'
  have habs : ((q.num.natAbs * one : Nat) / (q.den * one) : ℚ) = |q| := by
    rw [Nat.cast_mul, mul_div_mul_right _ _ hone, Nat.cast_natAbs, Int.cast_abs]
    conv_rhs => rw [← Rat.num_div_den q, abs_div, Nat.abs_cast]
  have hsigned : signed (decide (q < 0)) |q| = q := by
    rw [signed]
    split
    · next hneg => rw [abs_of_neg (of_decide_eq_true hneg), neg_neg]
    · next hpos => rw [abs_of_nonneg (not_lt.1 fun hneg => hpos (decide_eq_true hneg))]
  have hnearest := ofRatio_isNearest (decide (q < 0)) (q.num.natAbs * one) q.den_pos
  rw [habs, hsigned] at hnearest
  refine ⟨_, hnearest, fun hfinite => ?_⟩
  rcases ofRatio_spec (decide (q < 0)) (q.num.natAbs * one) q.den_pos with
    ⟨m, p, -, hmake, hencloses⟩ | ⟨-, hoverflow⟩
  · rwa [hmake, ← habs, quotient_mul]
  · rw [← quotient_mul, habs, mul_le_mul_iff_left₀ four_mul_one_pos] at hoverflow
    exact absurd (hnearest.isFinite_iff.1 hfinite) (not_lt.2 hoverflow)

theorem encloses_of_isNearest (hfinite : x.isFinite = true) (hx : x.IsNearest q) :
    x.Encloses (|q| * (4 * one)) := by
  obtain ⟨y, hy, hencloses⟩ := exists_isNearest q
  have hfinite' : y.isFinite = true := hy.isFinite_iff.2 (hx.isFinite_iff.1 hfinite)
  have hencloses := hencloses hfinite'
  suffices hmagnitude : x.magnitude = y.magnitude by rwa [encloses_congr hmagnitude]
  by_contra hne
  -- Both are nearest, so they are equally near, and the significands of both would be even.
  have htie : |x.value - q| = |y.value - q| :=
    le_antisymm (hx.nearest hfinite y hfinite') (hy.nearest hfinite' x hfinite)
  have heven := hx.even hfinite y hfinite' (fun heq => hne (abs_value_eq_iff.1 (by rw [heq]))) htie
  have hodd := ((abs_sub_le_of_encloses hencloses hne).2 ?_).2
  · omega
  · rw [abs_quarters_sub, abs_quarters_sub, ← abs_value_sub hy.sign, ← abs_value_sub hx.sign, htie]

end ScriptValues.Num
