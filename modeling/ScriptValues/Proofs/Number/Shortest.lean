/-
Shortest decimals read back. A number stands for the interval of reals that round to it (`Encloses`), and the
intervals of different magnitudes share no point: where two meet in an end, just one of the significands is
even, and the end belongs to that number (`magnitude_eq_of_encloses`).

`shortest` picks a decimal from the interval (`shortest_encloses`). The search succeeds: at the latest with 17
digits the grid is finer than the interval is wide (`grid_lt_width`), so one of the two neighbours of the
number on it lies inside (`exists_onGrid`).
-/
import Mathlib.Algebra.Order.Field.Power
import Mathlib.Data.List.TakeWhile
import Mathlib.Data.Rat.Cast.Order
import Mathlib.Tactic.FieldSimp
import Mathlib.Tactic.Linarith
import Mathlib.Tactic.Positivity
import Mathlib.Tactic.Ring
import ScriptValues.Number.Decimal
import ScriptValues.Proofs.Number.Fields

namespace ScriptValues

/-- The number that a decimal is. -/
def Decimal.value (d : Decimal) : ℚ := d.coefficient * 10 ^ d.exponent

namespace Num

variable {x y : Num} {q : ℚ}

/-! ## Intervals -/

/-- A real, counted in quarters of a unit, rounds to the magnitude of `x`: it is less than half a step away,
or just that if the significand is even. -/
def Encloses (x : Num) (q : ℚ) : Prop :=
  if x.significand % 2 = 0 then (x.quarters : ℚ) - x.below ≤ q ∧ q ≤ x.quarters + x.above
  else (x.quarters : ℚ) - x.below < q ∧ q < x.quarters + x.above

theorem quarters_eq (x : Num) : x.quarters = 4 * x.significand * 2 ^ x.scale := by
  rw [quarters, magnitude, Nat.pow_eq, Nat.mul_assoc]

theorem above_eq (x : Num) : x.above = 2 * 2 ^ x.scale := rfl

theorem below_le_above (x : Num) : x.below ≤ x.above := by
  simp only [below, above, Nat.pow_eq]
  split <;> omega

theorem below_pos (x : Num) : 0 < x.below := by
  have hpos := Nat.two_pow_pos x.scale
  simp only [below, Nat.pow_eq]
  split <;> omega

theorem below_le_quarters (h : 0 < x.magnitude) : x.below ≤ x.quarters := by
  have hsignificand : 0 < x.significand := Nat.pos_of_mul_pos_right h
  refine x.below_le_above.trans ?_
  rw [above_eq, quarters_eq]
  exact Nat.mul_le_mul_right _ (by omega)

theorem encloses_quarters (x : Num) : x.Encloses x.quarters := by
  have hbelow : (0 : ℚ) < x.below := Nat.cast_pos.2 x.below_pos
  have habove : (0 : ℚ) < x.above := Nat.cast_pos.2 (x.below_pos.trans_le x.below_le_above)
  rw [Encloses]
  split <;> constructor <;> linarith

theorem encloses_congr (h : x.magnitude = y.magnitude) (q : ℚ) : x.Encloses q ↔ y.Encloses q := by
  obtain ⟨hsignificand, hscale⟩ := significand_scale_unique x.significand_lt y.significand_lt x.significand_normal
    y.significand_normal h
  rw [Encloses, Encloses, quarters, quarters, h, below, below, above, above, hsignificand, hscale]

/-- Of two magnitudes the greater is a whole step away at least, by the step above the one and by the step below the
other, and more than a step if both significands are even. -/
theorem step_le (h : x.magnitude < y.magnitude) :
    (x.quarters + 2 * x.above ≤ y.quarters ∧ x.quarters + 2 * y.below ≤ y.quarters) ∧
      (x.significand % 2 = 0 → y.significand % 2 = 0 →
        x.quarters + 2 * x.above < y.quarters ∧ x.quarters + 2 * y.below < y.quarters) := by
  have hx := x.significand_lt
  have hy := y.significand_lt
  have hxn := x.significand_normal
  have hyn := y.significand_normal
  simp only [quarters_eq, above_eq, below, magnitude, Nat.pow_eq] at h ⊢
  generalize x.significand = m at *
  generalize y.significand = n at *
  generalize x.scale = p at *
  generalize y.scale = r at *
  simp only [Nat.mul_assoc 4]
  rcases Nat.lt_trichotomy p r with hlt | rfl | hgt
  · -- The significand of `y` is at its least when the step below it is half as long.
    have hn : 2 ^ 52 * 2 ^ r ≤ n * 2 ^ r := Nat.mul_le_mul_right _ (hyn.resolve_right (by omega))
    have hn' : n = 2 ^ 52 ∨ (2 ^ 52 + 1) * 2 ^ r ≤ n * 2 ^ r := by
      rcases Nat.lt_or_ge (2 ^ 52) n with hlt' | hge
      · exact .inr (Nat.mul_le_mul_right _ hlt')
      · exact .inl (Nat.le_antisymm hge (hyn.resolve_right (by omega)))
    have hm : m * 2 ^ p ≤ (2 ^ 53 - 1) * 2 ^ p := Nat.mul_le_mul_right _ (by omega)
    have hm' : m % 2 = 0 → m * 2 ^ p ≤ (2 ^ 53 - 2) * 2 ^ p := fun _ => Nat.mul_le_mul_right _ (by omega)
    have hstep : 2 * 2 ^ p ≤ 2 ^ r := by
      rw [← Nat.pow_succ']
      exact Nat.pow_le_pow_right (by decide) hlt
    have hpos : 0 < 2 ^ p := Nat.two_pow_pos p
    split <;> omega
  · have hmn : m < n := Nat.lt_of_mul_lt_mul_right h
    have hle : (m + 1) * 2 ^ p ≤ n * 2 ^ p := Nat.mul_le_mul_right _ hmn
    have hle' : m % 2 = 0 → n % 2 = 0 → (m + 2) * 2 ^ p ≤ n * 2 ^ p :=
      fun _ _ => Nat.mul_le_mul_right _ (by omega)
    have hpos : 0 < 2 ^ p := Nat.two_pow_pos p
    simp only [Nat.add_mul] at hle hle'
    split <;> omega
  · have hm : 2 ^ 52 * 2 ^ p ≤ m * 2 ^ p := Nat.mul_le_mul_right _ (hxn.resolve_right (by omega))
    have hn : n * 2 ^ r ≤ 2 ^ 53 * 2 ^ r := Nat.mul_le_mul_right _ (by omega)
    have hstep : 2 * 2 ^ r ≤ 2 ^ p := by
      rw [← Nat.pow_succ']
      exact Nat.pow_le_pow_right (by decide) hgt
    omega

/-- Of two magnitudes the interval of the greater begins where that of the other has ended, and it begins
later if both intervals have their ends. -/
theorem above_le_below (h : x.magnitude < y.magnitude) :
    x.quarters + x.above + y.below ≤ y.quarters ∧
      (x.significand % 2 = 0 → y.significand % 2 = 0 → x.quarters + x.above + y.below < y.quarters) := by
  obtain ⟨⟨habove, hbelow⟩, hstrict⟩ := step_le h
  refine ⟨by omega, fun hx hy => ?_⟩
  have hlt := hstrict hx hy
  omega

/-- **A real rounds to one magnitude at most.** -/
theorem magnitude_eq_of_encloses (hx : x.Encloses q) (hy : y.Encloses q) : x.magnitude = y.magnitude := by
  -- Between two intervals there is an end that one of them lacks.
  have hnot : ∀ {x y : Num}, x.Encloses q → y.Encloses q → ¬ x.magnitude < y.magnitude := by
    intro x y hx hy hlt
    obtain ⟨hle, heven⟩ := above_le_below hlt
    have hle : (x.quarters : ℚ) + x.above + y.below ≤ y.quarters := by exact_mod_cast hle
    rw [Encloses] at hx hy
    split at hx <;> split at hy
    · next hxe hye =>
      have hlt : (x.quarters : ℚ) + x.above + y.below < y.quarters := by exact_mod_cast heven hxe hye
      linarith [hx.2, hy.1]
    all_goals linarith [hx.2, hy.1]
  exact Nat.le_antisymm (Nat.not_lt.1 (hnot hy hx)) (Nat.not_lt.1 (hnot hx hy))

/-! ## The decimal grid -/

theorem quartersOf_pos (c : Nat) (e : Int) : 0 < (quartersOf c e).2 := by
  rw [quartersOf]
  split
  · exact Nat.one_pos
  · exact Nat.pow_pos (by decide)

theorem quartersOf_div (c : Nat) (e : Int) :
    ((quartersOf c e).1 : ℚ) / (quartersOf c e).2 = (⟨c, e⟩ : Decimal).value * (4 * one) := by
  rw [quartersOf, Decimal.value]
  generalize one = unit
  split
  · next he =>
    obtain ⟨n, rfl⟩ := Int.eq_ofNat_of_zero_le he
    simp
  · next he =>
    obtain ⟨n, rfl⟩ : ∃ n : Nat, e = -n := ⟨(-e).toNat, by omega⟩
    simp only [neg_neg, Int.toNat_natCast, Nat.pow_eq, Nat.cast_mul, Nat.cast_pow, Nat.cast_ofNat, zpow_neg,
      zpow_natCast]
    field_simp

theorem roundsTo_iff {n d : Nat} (hd : 0 < d) (hx : 0 < x.magnitude) :
    x.roundsTo n d = true ↔ x.Encloses ((n : ℚ) / d) := by
  have hlow := below_le_quarters hx
  have hd' : (0 : ℚ) < d := Nat.cast_pos.2 hd
  rw [roundsTo, Encloses, le_div_iff₀ hd', div_le_iff₀ hd', lt_div_iff₀ hd', div_lt_iff₀ hd',
    ← Nat.cast_sub hlow]
  split
  · rw [decide_eq_true_iff]
    exact_mod_cast Iff.rfl
  · rw [decide_eq_true_iff]
    exact_mod_cast Iff.rfl

/-- A decimal on the grid, in quarters. -/
theorem grid_quarters (k : Nat) (e : Int) : (⟨k, e⟩ : Decimal).value * (4 * one) =
    ((k * (quartersOf 1 e).1 : Nat) : ℚ) / (quartersOf 1 e).2 := by
  rw [Nat.cast_mul, mul_div_assoc, quartersOf_div, Decimal.value, Decimal.value]
  push_cast
  ring

/-- A decimal on the grid is taken if it is in the interval. -/
theorem roundsTo_grid_iff {k : Nat} {e : Int} (hx : 0 < x.magnitude) :
    x.roundsTo (k * (quartersOf 1 e).1) (quartersOf 1 e).2 = true ↔
      x.Encloses ((⟨k, e⟩ : Decimal).value * (4 * one)) := by
  rw [roundsTo_iff (quartersOf_pos 1 e) hx, grid_quarters]

theorem onGrid_encloses {e : Int} {d : Decimal} (hx : 0 < x.magnitude) (h : x.onGrid e = some d) :
    x.Encloses (d.value * (4 * one)) := by
  simp only [onGrid] at h
  split at h
  · next hboth =>
    rw [Bool.and_eq_true] at hboth
    split at h <;> cases h
    · exact (roundsTo_grid_iff hx).1 hboth.1
    · exact (roundsTo_grid_iff hx).1 hboth.2
  · split at h
    · next hlower =>
      cases h
      exact (roundsTo_grid_iff hx).1 hlower
    · split at h
      · next hupper =>
        cases h
        exact (roundsTo_grid_iff hx).1 hupper
      · cases h

/-- Of two neighbours on a grid that is finer than the interval is wide, `x` being between them, one rounds
to `x`. -/
theorem roundsTo_or {c unit d : Nat} (hd : 0 < d) (hx : 0 < x.magnitude) (hlow : c * unit ≤ x.quarters * d)
    (hhigh : x.quarters * d < (c + 1) * unit) (hfine : unit < (x.below + x.above) * d) :
    x.roundsTo (c * unit) d = true ∨ x.roundsTo ((c + 1) * unit) d = true := by
  have hbelow := below_le_quarters hx
  have hwidth : (x.quarters - x.below) * d + (x.below + x.above) * d = (x.quarters + x.above) * d := by
    rw [← Nat.add_mul]
    congr 1
    omega
  have habove : x.quarters * d < (x.quarters + x.above) * d :=
    Nat.mul_lt_mul_of_pos_right (Nat.lt_add_of_pos_right (x.below_pos.trans_le x.below_le_above)) hd
  have hsub : (x.quarters - x.below) * d ≤ x.quarters * d := Nat.mul_le_mul_right _ (Nat.sub_le _ _)
  have hstep : (c + 1) * unit = c * unit + unit := Nat.succ_mul c unit
  simp only [roundsTo]
  split <;> simp only [decide_eq_true_eq] <;> omega

theorem quartersOf_one_pos (e : Int) : 0 < (quartersOf 1 e).1 := by
  have hone := one_pos
  rw [quartersOf]
  split
  · exact Nat.mul_pos (Nat.mul_pos Nat.one_pos (Nat.pow_pos (by decide))) (by omega)
  · exact Nat.mul_pos Nat.one_pos (by omega)

/-- The neighbour of `x` on a grid that is not above it. -/
def gridFloor (x : Num) (e : Int) : Nat := x.quarters * (quartersOf 1 e).2 / (quartersOf 1 e).1

/-- A grid has a decimal to offer if one of the two neighbours of `x` is taken. -/
theorem exists_onGrid_of_or {e : Int}
    (h : x.roundsTo (x.gridFloor e * (quartersOf 1 e).1) (quartersOf 1 e).2 = true ∨
      x.roundsTo ((x.gridFloor e + 1) * (quartersOf 1 e).1) (quartersOf 1 e).2 = true) :
    ∃ d, x.onGrid e = some d := by
  rw [gridFloor] at h
  simp only [onGrid]
  split
  · split <;> exact ⟨_, rfl⟩
  · split
    · exact ⟨_, rfl⟩
    · next hlower =>
      rw [if_pos (h.resolve_left hlower)]
      exact ⟨_, rfl⟩

/-- **A grid that is finer than the interval is wide has a decimal in it.** -/
theorem exists_onGrid {e : Int} (hx : 0 < x.magnitude)
    (hfine : (10 : ℚ) ^ e * (4 * one) < x.below + x.above) : ∃ d, x.onGrid e = some d := by
  have hd := quartersOf_pos 1 e
  have hdiv := quartersOf_div 1 e
  have hfine' : (quartersOf 1 e).1 < (x.below + x.above) * (quartersOf 1 e).2 := by
    have hd' : (0 : ℚ) < (quartersOf 1 e).2 := Nat.cast_pos.2 hd
    rw [Decimal.value, Nat.cast_one, one_mul, div_eq_iff hd'.ne'] at hdiv
    have hlt := mul_lt_mul_of_pos_right hfine hd'
    rw [← hdiv] at hlt
    exact_mod_cast hlt
  have hnext := Nat.lt_mul_div_succ (x.quarters * (quartersOf 1 e).2) (quartersOf_one_pos e)
  rw [Nat.mul_comm (quartersOf 1 e).1] at hnext
  exact exists_onGrid_of_or (roundsTo_or hd hx (Nat.div_mul_le_self _ _) hnext hfine')

/-! ## Seventeen digits -/

theorem one_le_pow : one ≤ 10 ^ leastLeading := by decide +kernel

theorem pow_length_toDigits_le {n : Nat} (hn : 0 < n) : 10 ^ ((Nat.toDigits 10 n).length - 1) ≤ n := by
  rcases Nat.eq_zero_or_pos ((Nat.toDigits 10 n).length - 1) with hzero | hpos
  · rw [hzero]
    exact hn
  · have hlong : ¬ (Nat.toDigits 10 n).length ≤ (Nat.toDigits 10 n).length - 1 := by omega
    rwa [Nat.length_toDigits_le_iff (by decide) hpos, Nat.not_lt] at hlong

/-- The first digit of `x` is no further on than its leading exponent. -/
theorem pow_leadingExponent_le (hx : 0 < x.magnitude) :
    (10 : ℚ) ^ x.leadingExponent * (4 * one) ≤ x.quarters := by
  have hone := one_pos
  have hfour : 4 * one ≤ x.quarters * 10 ^ leastLeading := by
    refine Nat.mul_le_mul ?_ one_le_pow
    rw [quarters]
    omega
  have hpos : 0 < x.quarters * 10 ^ leastLeading / (4 * one) := Nat.div_pos hfour (by omega)
  have hlength := Nat.length_toDigits_pos (b := 10) (n := x.quarters * 10 ^ leastLeading / (4 * one))
  have hpow := Nat.mul_le_mul_right (4 * one) (pow_length_toDigits_le hpos)
  have hle := hpow.trans (Nat.div_mul_le_self _ _)
  rw [leadingExponent, Nat.pow_eq]
  generalize (Nat.toDigits 10 (x.quarters * 10 ^ leastLeading / (4 * one))).length = k at hlength hle ⊢
  have hexponent : ((k : ℤ) - 1 - leastLeading) = ((k - 1 : Nat) : ℤ) - (leastLeading : Nat) := by omega
  rw [hexponent, zpow_sub₀ (by norm_num), zpow_natCast, zpow_natCast, div_mul_eq_mul_div,
    div_le_iff₀ (by positivity)]
  exact_mod_cast hle

/-- The interval is more than one part in `10^16` wide. -/
theorem quarters_lt_width (x : Num) : x.quarters < 10 ^ 16 * (x.below + x.above) := by
  have hlt := x.significand_lt
  have hpos : 0 < 2 ^ x.scale := Nat.two_pow_pos _
  rw [quarters_eq, above_eq, below, Nat.pow_eq, Nat.pow_eq]
  generalize 2 ^ x.scale = step at *
  split
  · next h =>
    rw [h.1]
    omega
  · have hle : 4 * x.significand * step ≤ 4 * 2 ^ 53 * step := Nat.mul_le_mul_right _ (by omega)
    omega

/-- The grid of 17 digits is finer than the interval is wide. -/
theorem grid_lt_width (hx : 0 < x.magnitude) :
    (10 : ℚ) ^ (x.leadingExponent - 16) * (4 * one) < x.below + x.above := by
  have hlead := pow_leadingExponent_le hx
  have hwidth : (x.quarters : ℚ) < 10 ^ 16 * (x.below + x.above) := by exact_mod_cast x.quarters_lt_width
  rw [zpow_sub₀ (by norm_num)]
  have hlt := hlead.trans_lt hwidth
  rw [div_mul_eq_mul_div, div_lt_iff₀ (by positivity)]
  rw [mul_comm (_ + _)]
  exact_mod_cast hlt

theorem exists_onGrid_of_seventeen {e : Int} (hx : 0 < x.magnitude) (he : e = x.leadingExponent - 16) :
    ∃ d, x.onGrid e = some d :=
  exists_onGrid hx (he ▸ grid_lt_width hx)

/-! ## The shortest decimal -/

theorem strip_value (d : Decimal) : d.strip.value = d.value := by
  have hsplit := List.takeWhile_append_dropWhile (p := (· == '0')) (l := d.digits.reverse)
  have hzeros : d.digits.reverse.takeWhile (· == '0') =
      List.replicate (d.digits.reverse.takeWhile (· == '0')).length '0' :=
    List.eq_replicate_iff.2 ⟨rfl, fun c hc => beq_iff_eq.1 (List.mem_takeWhile_imp (p := (· == '0')) hc)⟩
  rw [Decimal.value, Decimal.value, Decimal.strip, Nat.pow_eq]
  generalize (d.digits.reverse.takeWhile (· == '0')).length = k at hzeros ⊢
  generalize d.digits.reverse.dropWhile (· == '0') = front at hsplit
  have hdigits : d.digits = front.reverse ++ List.replicate k '0' := by
    rw [hzeros] at hsplit
    rw [← List.reverse_reverse d.digits, ← hsplit, List.reverse_append, List.reverse_replicate]
  have hcoefficient : d.coefficient = 10 ^ k * Nat.ofDigitChars 10 front.reverse 0 := by
    have hread : Nat.ofDigitChars 10 d.digits 0 = d.coefficient := Nat.ofDigitChars_ten_toDigits
    rw [← hread, hdigits, Nat.ofDigitChars_append, Nat.ofDigitChars_replicate_zero]
  simp only [hcoefficient, Nat.mul_div_cancel_left _ (Nat.pow_pos (n := k) (by decide : 0 < 10))]
  rw [zpow_add₀ (by norm_num), zpow_natCast]
  push_cast
  ring

theorem shortestFrom_encloses (hx : 0 < x.magnitude) (top : Int) {tries digits : Nat}
    (hlast : ∃ d, x.onGrid (top - (digits + tries) + 1) = some d) :
    x.Encloses ((x.shortestFrom top (tries + 1) digits).value * (4 * one)) := by
  induction tries generalizing digits with
  | zero =>
    obtain ⟨d, hd⟩ := hlast
    rw [Nat.cast_zero, add_zero] at hd
    rw [shortestFrom, hd, strip_value]
    exact onGrid_encloses hx hd
  | succ tries ih =>
    rw [shortestFrom]
    split
    · next d hd =>
      rw [strip_value]
      exact onGrid_encloses hx hd
    · refine ih ?_
      push_cast at hlast ⊢
      rwa [add_assoc, add_comm 1]

/-- **The shortest decimal reads back.** -/
theorem shortest_encloses (hx : 0 < x.magnitude) : x.Encloses (x.shortest.value * (4 * one)) := by
  exact shortestFrom_encloses hx _ (exists_onGrid_of_seventeen hx (by omega))

end Num

end ScriptValues
