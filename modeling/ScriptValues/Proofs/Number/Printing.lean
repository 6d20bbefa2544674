/-
What numbers print as. The text of a finite number is a numeral that rounds to the number (`isNearest_value`). It has an
exponent just if the number is as great as `10^21`, or smaller than the number nearest to `10^-6`, which is itself
slightly smaller than that (`takesExponent_iff`). A whole number without an exponent is written exactly, and any other
with as few digits as will do (`Num.shortest_fewest`).
-/
import ScriptValues.Method.Num
import ScriptValues.Proofs.Number.Fewest
import ScriptValues.Proofs.Number.Numeral
import ScriptValues.Proofs.Number.Text

namespace ScriptValues

namespace Num

variable {x y : Num}

/-! ## Values -/

theorem value_eq_signed (x : Num) : x.value = signed x.isNegative |x.value| := by
  cases hx : x.isNegative with
  | true => rw [signed, if_pos rfl, abs_of_nonpos (value_nonpos hx), neg_neg]
  | false => rw [signed, if_neg Bool.false_ne_true, abs_of_nonneg (value_nonneg hx)]

theorem lt_iff (hx : x.isFinite = true) (hy : y.isFinite = true) : x.lt y = true ↔ x.value < y.value := by
  have hone : (0 : ℚ) < one := Nat.cast_pos.2 one_pos
  rw [lt, isNaN_of_isFinite hx, isNaN_of_isFinite hy, value, value, div_lt_div_iff_of_pos_right hone]
  simp

theorem exists_value_eq_iff : (∃ i : ℤ, x.value = i) ↔ one ∣ x.magnitude := by
  have hone : (one : ℚ) ≠ 0 := Nat.cast_ne_zero.2 one_pos.ne'
  rw [← natAbs_scaled, ← Int.natCast_dvd, Dvd.dvd]
  refine exists_congr fun i => ?_
  rw [value, div_eq_iff hone, mul_comm]
  exact_mod_cast Iff.rfl

theorem one_le_abs_value (hx : 0 < x.magnitude) (hwhole : ∃ i : ℤ, x.value = i) : 1 ≤ |x.value| := by
  obtain ⟨i, hi⟩ := hwhole
  have hne : i ≠ 0 := by
    rintro rfl
    exact hx.ne' (value_eq_zero_iff.1 (hi.trans Int.cast_zero))
  rw [hi]
  exact_mod_cast Int.one_le_abs hne

theorem abs_value_of_magnitude {n : Nat} (h : x.magnitude = n * one) : |x.value| = n := by
  have hmul := abs_value_mul x
  rw [quarters, h, Nat.mul_left_comm] at hmul
  push_cast at hmul
  exact mul_right_cancel₀ four_mul_one_pos.ne' hmul

end Num

namespace NumberFormat

variable {x : Num}

/-! ## The thresholds -/

theorem value_absolute (x : Num) : (absolute x).value = |x.value| := by
  have hnonneg : (absolute x).isNegative = false := by
    rw [absolute]
    split
    · next hneg => rw [Num.neg_isNegative, hneg, Bool.not_true]
    · next hpos => exact Bool.eq_false_iff.2 hpos
  rw [← abs_of_nonneg (Num.value_nonneg hnonneg), Num.abs_value_eq_iff, absolute_magnitude]

theorem positionalFrom_isFinite : plain.positionalFrom.isFinite = true := by decide +kernel

theorem positionalFrom_isNearest : plain.positionalFrom.IsNearest (1 / 10 ^ 6) := by
  have hvalue : Num.signed false ((1 : Nat) * 10 ^ (-6 : ℤ)) = 1 / 10 ^ 6 := by norm_num [Num.signed]
  have hnearest := Num.ofDecimal_isNearest false 1 (-6)
  rw [hvalue] at hnearest
  simp only [plain]
  exact hnearest

/-- The number nearest to `10^-6` is below it. -/
theorem value_positionalFrom_lt : plain.positionalFrom.value < 1 / 10 ^ 6 := by
  have hone : (0 : ℚ) < Num.one := Nat.cast_pos.2 Num.one_pos
  have hscaled : plain.positionalFrom.scaled * 10 ^ 6 < Num.one := by decide +kernel
  rw [Num.value, div_lt_div_iff₀ hone (by norm_num), one_mul]
  generalize Num.one = unit at *
  generalize plain.positionalFrom.scaled = scaled at *
  exact_mod_cast hscaled

theorem exponentFrom_isFinite : plain.exponentFrom.isFinite = true := by decide +kernel

theorem value_exponentFrom : plain.exponentFrom.value = 10 ^ 21 := by
  have hone : (Num.one : ℚ) ≠ 0 := Nat.cast_ne_zero.2 Num.one_pos.ne'
  have hscaled : plain.exponentFrom.scaled = 10 ^ 21 * Num.one := by decide +kernel
  rw [Num.value, hscaled, div_eq_iff hone]
  push_cast
  rfl

theorem takesExponent_iff (hfinite : x.isFinite = true) :
    takesExponent x = true ↔ |x.value| < plain.positionalFrom.value ∨ 10 ^ 21 ≤ |x.value| := by
  have hfinite' : (absolute x).isFinite = true := (absolute_isFinite x).trans hfinite
  rw [takesExponent, Bool.or_eq_true, Bool.not_eq_true', Bool.eq_false_iff, Ne,
    Num.lt_iff hfinite' positionalFrom_isFinite, Num.lt_iff hfinite' exponentFrom_isFinite, value_absolute,
    value_exponentFrom, not_lt]

/-- The exponent of a number other than zero. -/
theorem takesExponent_iff_of_pos (hfinite : x.isFinite = true) (hx : 0 < x.magnitude) : takesExponent x = true ↔
    10 ^ 21 ≤ |x.value| ∨ 0 < |x.value| ∧ |x.value| < plain.positionalFrom.value := by
  have hpos : 0 < |x.value| := abs_pos.2 fun hzero => hx.ne' (Num.value_eq_zero_iff.1 hzero)
  rw [takesExponent_iff hfinite, or_comm]
  simp [hpos]

/-- No whole number is so small that it takes an exponent. -/
theorem takesExponent_eq_false (hfinite : x.isFinite = true) (hx : 0 < x.magnitude)
    (hwhole : ∃ i : ℤ, x.value = i) (hsmall : |x.value| < 10 ^ 21) : takesExponent x = false := by
  have hone := Num.one_le_abs_value hx hwhole
  have hleast := value_positionalFrom_lt
  rw [Bool.eq_false_iff, Ne, takesExponent_iff hfinite, not_or, not_lt, not_le]
  exact ⟨by linarith, hsmall⟩

/-! ## Rounding to the number -/

theorem encloses_unsigned (hfinite : x.isFinite = true) :
    x.Encloses (Text.decimalValue (unsigned x) * (4 * Num.one)) := by
  have hstands := unsigned_stands x
  generalize unsigned x = cs at *
  cases hstands with
  | nan hnan => exact absurd hnan (Bool.eq_false_iff.1 (Num.isNaN_of_isFinite hfinite))
  | infinity hinfinite => exact absurd hinfinite (Bool.eq_false_iff.1 (Num.isInfinite_of_isFinite hfinite))
  | numeral _ _ hencloses => exact hencloses

theorem unsigned_of_magnitude_eq_zero (h : x.magnitude = 0) : unsigned x = Nat.toDigits 10 0 := by
  have hfinite := Num.isFinite_of_magnitude_eq_zero h
  simp [unsigned, Num.isNaN_of_isFinite hfinite, Num.isInfinite_of_isFinite hfinite, h, plain]

theorem unsigned_of_isFinite (hfinite : x.isFinite = true) (h : x.magnitude ≠ 0) :
    unsigned x = plain.magnitude x := by
  simp [unsigned, Num.isNaN_of_isFinite hfinite, Num.isInfinite_of_isFinite hfinite, h]

theorem hasMinus_of_isFinite (hfinite : x.isFinite = true) (h : x.magnitude ≠ 0) : hasMinus x = x.isNegative := by
  simp [hasMinus, Num.isNaN_of_isFinite hfinite, h]

variable {d : Numeral}

theorem text_eq (hminus : d.minus = hasMinus x) (hunsigned : d.unsigned = unsigned x) : x.text = d.text := by
  rw [Num.text, render_eq, Numeral.text, hminus, hunsigned]

/-- **The text of a finite number rounds to the number.** -/
theorem isNearest_value (hfinite : x.isFinite = true) (hminus : d.minus = hasMinus x)
    (hunsigned : d.unsigned = unsigned x) : x.IsNearest d.value := by
  have hsize : Text.decimalValue (unsigned x) = d.size := hunsigned ▸ d.decimalValue_unsigned
  have hencloses := encloses_unsigned hfinite
  rw [hsize] at hencloses
  refine Num.isNearest_of_encloses hfinite (fun hne => ?_) ?_
  · have hnonzero : x.magnitude ≠ 0 := by
      intro hzero
      rw [unsigned_of_magnitude_eq_zero hzero, decimalValue_toDigits] at hsize
      rw [Numeral.value, ← hsize] at hne
      cases d.minus <;> simp [Num.signed] at hne
    rw [← hasMinus_of_isFinite hfinite hnonzero, ← hminus]
    exact Num.signed_neg_iff d.size_nonneg hne
  · rwa [Numeral.value, Num.abs_signed d.size_nonneg]

theorem significant_le_of_isNearest {c e : ℤ} (hfinite : x.isFinite = true) (hx : 0 < x.magnitude)
    (hle : d.significant ≤ (absolute x).shortest.digits.length) (h : x.IsNearest (c * 10 ^ e)) :
    d.significant ≤ (Nat.toDigits 10 c.natAbs).length := by
  have hencloses := Num.encloses_of_isNearest hfinite h
  have hvalue : |(c * 10 ^ e : ℚ)| = (⟨c.natAbs, e⟩ : Decimal).value := by
    rw [Decimal.value, abs_mul, abs_of_pos (zpow_pos (by norm_num : (0 : ℚ) < 10) e), Nat.cast_natAbs, Int.cast_abs]
  rw [hvalue, ← Num.encloses_congr (absolute_magnitude x)] at hencloses
  rw [← absolute_magnitude] at hx
  exact hle.trans (Num.shortest_fewest hx hencloses)

end NumberFormat

/-! ## The text of a finite number -/

/-- The text of a finite number, and what it has to be. -/
structure Numeral.Prints (d : Numeral) (x : Num) : Prop where
  text : x.text = d.text
  nearest : x.IsNearest d.value
  exponent : d.exponent.isSome = true ↔
    10 ^ 21 ≤ |x.value| ∨ 0 < |x.value| ∧ |x.value| < NumberFormat.plain.positionalFrom.value
  exact : (∃ i : ℤ, x.value = i) → |x.value| < 10 ^ 21 → d.fraction = none ∧ d.value = x.value
  fewest : ¬ ((∃ i : ℤ, x.value = i) ∧ |x.value| < 10 ^ 21) → ∀ c e : ℤ, x.IsNearest (c * 10 ^ e) →
    d.significant ≤ (Nat.toDigits 10 c.natAbs).length

namespace NumberFormat

variable {x : Num}

theorem prints_zero (h : x.magnitude = 0) : (Numeral.ofNat false 0).Prints x := by
  have hfinite := Num.isFinite_of_magnitude_eq_zero h
  have hvalue : x.value = 0 := Num.value_eq_zero_iff.2 h
  have hminus : (Numeral.ofNat false 0).minus = hasMinus x := by simp [Numeral.ofNat, hasMinus, h]
  have hunsigned : (Numeral.ofNat false 0).unsigned = unsigned x := by
    rw [Numeral.ofNat_unsigned, unsigned_of_magnitude_eq_zero h]
  refine ⟨text_eq hminus hunsigned, isNearest_value hfinite hminus hunsigned, ?_, fun _ _ => ⟨rfl, ?_⟩, fun hnot => ?_⟩
  · rw [hvalue]
    simp [Numeral.ofNat]
  · rw [hvalue, Numeral.value, Numeral.ofNat_size]
    simp [Num.signed]
  · rw [hvalue] at hnot
    exact absurd ⟨⟨0, by simp⟩, by norm_num⟩ hnot

/-- A numeral with the text of a magnitude is what the number prints as, if its exponent, its value and its count of
digits are right. -/
theorem prints_of_notation {d : Numeral} (hfinite : x.isFinite = true) (hx : 0 < x.magnitude)
    (hminus : d.minus = x.isNegative) (hunsigned : d.unsigned = plain.magnitude x)
    (hexponent : d.exponent.isSome = takesExponent x)
    (hexact : takesExponent x = false → Num.one ∣ x.magnitude → d.fraction = none ∧ d.value = x.value)
    (hfewest : takesExponent x = true ∨ ¬ Num.one ∣ x.magnitude →
      d.significant ≤ (absolute x).shortest.digits.length) : d.Prints x := by
  have hminus' : d.minus = hasMinus x := hminus.trans (hasMinus_of_isFinite hfinite hx.ne').symm
  have hunsigned' : d.unsigned = unsigned x := hunsigned.trans (unsigned_of_isFinite hfinite hx.ne').symm
  refine ⟨text_eq hminus' hunsigned', isNearest_value hfinite hminus' hunsigned', ?_, fun hwhole hsmall => ?_,
    fun hnot c e => significant_le_of_isNearest hfinite hx (hfewest ?_)⟩
  · rw [hexponent, takesExponent_iff_of_pos hfinite hx]
  · exact hexact (takesExponent_eq_false hfinite hx hwhole hsmall) (Num.exists_value_eq_iff.1 hwhole)
  · rw [← Num.exists_value_eq_iff, takesExponent_iff hfinite]
    by_cases hwhole : ∃ i : ℤ, x.value = i
    · exact .inl (.inr (not_lt.1 fun hsmall => hnot ⟨hwhole, hsmall⟩))
    · exact .inr hwhole

theorem prints_whole {i : Int} (hfinite : x.isFinite = true) (hx : 0 < x.magnitude)
    (hexponent : takesExponent x = false) (hi : (absolute x).integer? = some i)
    (htext : plain.magnitude x = Nat.toDigits 10 i.natAbs) : (Numeral.ofNat x.isNegative i.natAbs).Prints x := by
  have hmagnitude : x.magnitude = i.natAbs * Num.one := by
    rw [← absolute_magnitude, Num.magnitude_of_integer? ((absolute_isFinite x).trans hfinite) hi]
  refine prints_of_notation hfinite hx rfl ?_ hexponent.symm (fun _ _ => ⟨rfl, ?_⟩) (fun hor => ?_)
  · rw [Numeral.ofNat_unsigned, htext]
  · rw [x.value_eq_signed, Num.abs_value_of_magnitude hmagnitude, Numeral.value, Numeral.ofNat_size]
    rfl
  · rcases hor with htrue | hfraction
    · cases hexponent.symm.trans htrue
    · exact absurd ⟨i.natAbs, hmagnitude.trans (Nat.mul_comm _ _)⟩ hfraction

/-- Every finite number prints as a numeral. -/
theorem exists_prints (hfinite : x.isFinite = true) : ∃ d : Numeral, d.Prints x := by
  rcases Nat.eq_zero_or_pos x.magnitude with hzero | hx
  · exact ⟨_, prints_zero hzero⟩
  rcases magnitude_notation x with ⟨hexponent, htext⟩ | ⟨hexponent, i, hi, htext⟩ | ⟨hexponent, hnone, htext⟩
  · refine ⟨.ofScientific x.isNegative (absolute x).shortest, prints_of_notation hfinite hx rfl ?_ hexponent.symm
      (fun hfalse => ?_) (fun _ => Numeral.ofScientific_significant_le _ _)⟩
    · rw [Numeral.ofScientific_unsigned, htext]
    · cases hexponent.symm.trans hfalse
  · exact ⟨_, prints_whole hfinite hx hexponent hi htext⟩
  · have hfraction : ¬ Num.one ∣ x.magnitude := by
      rwa [← absolute_magnitude, ← Num.integer?_eq_none_iff ((absolute_isFinite x).trans hfinite)]
    have hneg : (absolute x).shortest.exponent < 0 := by
      rw [← absolute_magnitude] at hx hfraction
      exact Num.shortest_exponent_neg hx hfraction
    refine ⟨.ofPositional x.isNegative _ hneg, prints_of_notation hfinite hx rfl ?_ hexponent.symm
      (fun _ hwhole => absurd hwhole hfraction) (fun _ => Numeral.ofPositional_significant_le _ hneg)⟩
    rw [Numeral.ofPositional_unsigned, htext]

/-! ## Texts tell numbers apart -/

theorem text_eq_iff {y : Num} : x.text = y.text ↔ x.eq y = true ∨ x.isNaN = true ∧ y.isNaN = true := by
  rw [Num.text, Num.text, String.ofList_inj, render_eq_iff]

theorem value_eq_of_text_eq {y : Num} (hfinite : x.isFinite = true) (h : x.text = y.text) : x.value = y.value := by
  rcases text_eq_iff.1 h with heq | ⟨hnan, -⟩
  · simp only [Num.eq, Bool.and_eq_true, beq_iff_eq] at heq
    rw [Num.value, Num.value, heq.2]
  · exact absurd hnan (Bool.eq_false_iff.1 (Num.isNaN_of_isFinite hfinite))

/-- The text of a number that is not finite. -/
theorem text_of_not_isFinite (h : x.isFinite = false) :
    x.text = if x.isNaN then "NaN" else if x.isNegative then "-Infinity" else "Infinity" := by
  rw [Num.text, render]
  rcases x.isFinite_or with hnan | hinfinite | hfinite
  · simp only [hnan, ↓reduceIte]
    rfl
  · simp only [hinfinite, Num.isNaN_of_isInfinite hinfinite, ↓reduceIte, Bool.false_eq_true]
    split <;> rfl
  · cases h.symm.trans hfinite

/-- A number that is not finite does not print as a finite number does. -/
theorem text_ne_of_isFinite {y : Num} (hx : x.isFinite = true) (hy : y.isFinite = false) : y.text ≠ x.text := by
  intro h
  rcases text_eq_iff.1 h with heq | ⟨-, hnan⟩
  · simp only [Num.eq, Bool.and_eq_true, beq_iff_eq] at heq
    rcases Num.eq_or_zero_of_scaled_eq heq.2 with rfl | ⟨hzero, -⟩
    · cases hx.symm.trans hy
    · cases hy.symm.trans (Num.isFinite_of_magnitude_eq_zero hzero)
  · exact Bool.false_ne_true ((Num.isNaN_of_isFinite hx).symm.trans hnan)

end NumberFormat

/-- **A number prints exactly or as briefly as will do, and reads back.** -/
theorem toStr_exact_or_shortest (x : Num) (hfinite : x.isFinite = true) :
    (∀ args, NumMethod.answer x .toStr args = .ok (.value (.str x.text))) ∧
    (∃ d : Numeral, d.Prints x) ∧
    NumberFormat.plain.positionalFrom.IsNearest (1 / 10 ^ 6) ∧
    (∀ y : Num, y.isFinite = true → x.text = y.text → x.value = y.value) ∧
    ∀ y : Num, y.isFinite = false → y.text ≠ x.text ∧
      y.text = if y.isNaN then "NaN" else if y.isNegative then "-Infinity" else "Infinity" :=
  ⟨fun _ => rfl, NumberFormat.exists_prints hfinite, NumberFormat.positionalFrom_isNearest,
    fun _ _ h => NumberFormat.value_eq_of_text_eq hfinite h,
    fun _ h => ⟨NumberFormat.text_ne_of_isFinite hfinite h, NumberFormat.text_of_not_isFinite h⟩⟩

theorem toStr_exact_or_shortest_subnormal :
    (⟨1⟩ : Num).text = "5e-324" ∧ (⟨1⟩ : Num).isFinite = true ∧ ∃ d : Numeral, d.Prints ⟨1⟩ :=
  ⟨by decide +kernel, by decide, (toStr_exact_or_shortest ⟨1⟩ (by decide)).2.1⟩

/-- The number nearest to `10^-6`. -/
def Num.millionth : Num := ⟨0x3EB0C6F7A0B5ED8D⟩

/-- The number nearest to `10^-6` is below that, and yet it is written without an exponent. -/
theorem millionth_without_exponent : Num.millionth.isFinite = true ∧ Num.millionth.text = "0.000001" ∧
    ¬ ∃ d : Numeral, Num.millionth.text = d.text ∧ (d.exponent.isSome = true ↔
      10 ^ 21 ≤ |Num.millionth.value| ∨ 0 < |Num.millionth.value| ∧ |Num.millionth.value| < 1 / 10 ^ 6) := by
  have htext : Num.millionth.text = "0.000001" := by decide +kernel
  have hlt : Num.millionth.value < 1 / 10 ^ 6 := by
    have hthreshold : NumberFormat.plain.positionalFrom = Num.millionth := by decide +kernel
    exact hthreshold ▸ NumberFormat.value_positionalFrom_lt
  have hpositive : 0 < Num.millionth.value := by
    have hscaled : 0 < Num.millionth.scaled := by decide +kernel
    exact div_pos (Int.cast_pos.2 hscaled) (Nat.cast_pos.2 Num.one_pos)
  refine ⟨by decide, htext, ?_⟩
  rintro ⟨d, hd, hiff⟩
  rw [abs_of_pos hpositive] at hiff
  have hsome := hiff.2 (.inr ⟨hpositive, hlt⟩)
  have hmem := d.e_mem_text (Option.isSome_iff_ne_none.1 hsome)
  rw [← hd, htext] at hmem
  exact absurd hmem (by decide)

end ScriptValues
