/-
Numbers printed and read again. A text without an exponent begins with the digits before the point, so what is read
from it is the integer part of what it denotes (`Numeral.toNum_text`). The shortest decimal of a number with a fraction
lies between the same two integers as the number does: an integer in between would round to the number, and then that
were whole itself (`Num.floor_eq_of_isNearest`). So a number is read back as its own integer part
(`toNum_toStr_truncates`).
-/
import ScriptValues.Proofs.Number.Printing
import ScriptValues.Proofs.Text.LeadingInteger

namespace ScriptValues

/-! ## Integer parts -/

namespace Num

variable {x y : Num} {q : ℚ}

theorem isNearest_value (hfinite : x.isFinite = true) : x.IsNearest x.value := by
  refine isNearest_of_encloses hfinite (fun hne => ?_) ?_
  · rw [x.value_eq_signed] at hne ⊢
    exact signed_neg_iff (abs_nonneg _) hne
  · rw [abs_value_mul]
    exact x.encloses_quarters

/-- What is nearest to a number that there is, is that number. -/
theorem IsNearest.value_eq (hx : x.IsNearest y.value) (hy : y.isFinite = true) :
    x.isFinite = true ∧ x.value = y.value := by
  have hfinite : x.isFinite = true := hx.isFinite_iff.2 ((isNearest_value hy).isFinite_iff.1 hy)
  have hle := hx.nearest hfinite y hy
  rw [sub_self, abs_zero, abs_nonpos_iff, sub_eq_zero] at hle
  exact ⟨hfinite, hle⟩

theorem whole_eq_signed (x : Num) : (x.whole : ℚ) = signed x.isNegative ⌊|x.value|⌋₊ := by
  have hfloor : (⌊|x.value|⌋₊ : ℚ) = ⌊|x.value|⌋ := natCast_floor_eq_intCast_floor (abs_nonneg _)
  rw [hfloor, whole]
  cases hsign : x.isNegative with
  | true =>
    have hle := value_nonpos hsign
    rw [signed, if_pos rfl, abs_of_nonpos hle, Int.floor_neg]
    split
    · push_cast
      ring
    · next hnot =>
      have hzero : x.value = 0 := le_antisymm hle (not_lt.1 hnot)
      simp [hzero]
  | false =>
    have hge := value_nonneg hsign
    rw [signed, if_neg Bool.false_ne_true, abs_of_nonneg hge, if_neg (not_lt.2 hge)]

theorem whole_eq_value (h : ∃ i : ℤ, x.value = i) : (x.whole : ℚ) = x.value := by
  obtain ⟨i, hi⟩ := h
  rw [whole, hi]
  split <;> simp

/-- A number with a fraction has less than `2^53` before the point. -/
theorem abs_value_lt_of_fraction (h : ¬ one ∣ x.magnitude) : |x.value| < 2 ^ 53 := by
  have hlt : x.magnitude < 2 ^ 53 * one := by
    obtain ⟨e, hone⟩ := exists_one_eq
    rw [magnitude, Nat.pow_eq, hone] at h ⊢
    have hscale : x.scale ≤ e := by
      by_contra hgt
      exact h ((Nat.pow_dvd_pow 2 (Nat.le_of_not_le hgt)).mul_left _)
    exact Nat.mul_lt_mul_of_lt_of_le x.significand_lt (Nat.pow_le_pow_right (by decide) hscale) (Nat.two_pow_pos _)
  have hquarters : (x.quarters : ℚ) < 2 ^ 53 * (4 * one) := by
    rw [quarters]
    exact_mod_cast (by omega : 4 * x.magnitude < 2 ^ 53 * (4 * one))
  rwa [← abs_value_mul, mul_lt_mul_iff_left₀ four_mul_one_pos] at hquarters

/-- A natural number up to `2^53` with a sign is a number. -/
theorem exists_value_eq_signed {n : Nat} (hn : n ≤ 2 ^ 53) (negative : Bool) :
    ∃ y : Num, y.isFinite = true ∧ y.value = signed negative n := by
  obtain ⟨m, p, hvalid, hmp, -⟩ := ofNat_eq_make hn
  refine ⟨make negative m p, make_isFinite hvalid, ?_⟩
  have hmagnitude : (make negative m p).magnitude = n * one := (make_magnitude hvalid).trans hmp
  rw [value_eq_signed, make_isNegative hvalid, abs_value_of_magnitude hmagnitude]

/-- The integer part of a number is a number. -/
theorem exists_value_eq_whole (hfinite : x.isFinite = true) : ∃ y : Num, y.isFinite = true ∧ y.value = x.whole := by
  by_cases hwhole : ∃ i : ℤ, x.value = i
  · exact ⟨x, hfinite, (whole_eq_value hwhole).symm⟩
  · rw [whole_eq_signed]
    have hlt := abs_value_lt_of_fraction (mt exists_value_eq_iff.2 hwhole)
    have hfloor : ⌊|x.value|⌋₊ < 2 ^ 53 := (Nat.floor_lt (abs_nonneg _)).2 (by exact_mod_cast hlt)
    exact exists_value_eq_signed hfloor.le _

/-- **No integer is between a number with a fraction and what rounds to it.** -/
theorem floor_eq_of_isNearest (hfinite : x.isFinite = true) (hfraction : ¬ ∃ i : ℤ, x.value = i)
    (h : x.IsNearest q) : ⌊|q|⌋₊ = ⌊|x.value|⌋₊ := by
  have hq := encloses_of_isNearest hfinite h
  have hx := x.encloses_quarters
  rw [← abs_value_mul] at hx
  -- An integer in between would round to the number, and with it the number were whole.
  have hno : ∀ k : Nat, ¬ x.Encloses (k * (4 * one)) := fun k hk =>
    hfraction (exists_value_eq_iff.2 (one_dvd_of_encloses hk))
  have hunit := four_mul_one_pos.le
  refine le_antisymm (Nat.le_floor ?_) (Nat.le_floor ?_)
  · by_contra hlt
    have hfloor := Nat.floor_le (abs_nonneg q)
    exact hno _ (hx.between hq (mul_le_mul_of_nonneg_right (not_le.1 hlt).le hunit)
      (mul_le_mul_of_nonneg_right hfloor hunit))
  · by_contra hlt
    have hfloor := Nat.floor_le (abs_nonneg x.value)
    exact hno _ (hq.between hx (mul_le_mul_of_nonneg_right (not_le.1 hlt).le hunit)
      (mul_le_mul_of_nonneg_right hfloor hunit))

end Num

/-! ## Reading numerals -/

theorem ofDigitChars_div_pow {ds : List Char} (h : ∀ c ∈ ds, c.isDigit = true) (n : Nat) :
    Nat.ofDigitChars 10 ds n / 10 ^ ds.length = n := by
  induction ds generalizing n with
  | nil => simp
  | cons c ds ih =>
    have hdigit : c.toNat - '0'.toNat < 10 := by
      have hc := h c List.mem_cons_self
      simp only [Char.isDigit, Bool.and_eq_true, decide_eq_true_eq, UInt32.le_iff_toNat_le] at hc
      exact Nat.lt_succ_of_le (Nat.sub_le_sub_right hc.2 _)
    rw [Nat.ofDigitChars_cons, List.length_cons, Nat.pow_succ, ← Nat.div_div_eq_div_mul,
      ih fun c hc => h c (List.mem_cons_of_mem _ hc)]
    omega

namespace Numeral

variable {d : Numeral} {x : Num}

/-- What is before the point is the integer part. -/
theorem floor_size (h : d.exponent = none) : ⌊d.size⌋₊ = Nat.ofDigitChars 10 d.whole 0 := by
  have hfraction : ∀ c ∈ d.fraction.getD [], c.isDigit = true := by
    have hrun := d.fraction_isRun
    cases hd : d.fraction with
    | none => simp
    | some cs => exact (hrun cs hd).2
  have hpow : ((10 : ℚ) ^ (d.fraction.getD []).length) = (10 ^ (d.fraction.getD []).length : Nat) := by simp
  rw [size, power, h, Option.elim_none, zpow_zero, mul_one, hpow, Nat.floor_div_eq_div, digits,
    Nat.ofDigitChars_append, ofDigitChars_div_pow hfraction]

theorem signedDigits_text (h : d.exponent = none) : Text.SignedDigits d.minus d.whole d.text.toList := by
  refine ⟨d.whole_isRun, if d.minus then ['-'] else [], d.fraction.elim [] ('.' :: ·), ?_, ?_, ?_⟩
  · rw [text, String.toList_ofList, unsigned, h]
    cases d.minus <;> simp
  · cases d.minus <;> simp
  · cases d.fraction with
    | none => simp
    | some cs =>
      intro c hc
      obtain rfl : '.' = c := Option.some.inj hc
      rfl

/-- There is no white space in front of a numeral. -/
theorem trimStart_text (d : Numeral) : Text.trimStart d.text.toList = d.text.toList := by
  obtain ⟨c, cs, hwhole⟩ := List.exists_cons_of_ne_nil d.whole_isRun.1
  have hdigit : c.isDigit = true := d.whole_isRun.2 c (hwhole ▸ List.mem_cons_self)
  have hspace : Text.isSpace c ≠ true := fun hspace =>
    Bool.false_ne_true ((Text.isDigit_of_isSpace hspace).symm.trans hdigit)
  rw [text, String.toList_ofList, unsigned, hwhole]
  cases d.minus with
  | true => rfl
  | false => exact List.dropWhile_cons_of_neg hspace

/-- **A numeral without an exponent is read as far as the point.** -/
theorem toNum_text (h : d.exponent = none) (args : List Value) : StrMethod.answer d.text .toNum args =
    .ok (.value (.num (.ofDecimal d.minus ⌊d.size⌋₊ 0))) := by
  rw [StrMethod.answer, Text.leadingInteger_eq, trimStart_text, floor_size h,
    Text.signedInteger_of_signedDigits (signedDigits_text h)]
  rfl

/-- As long as there is something before the point the numeral has the sign of the number. -/
theorem signed_floor_size (h : x.IsNearest d.value) :
    Num.signed d.minus ⌊d.size⌋₊ = Num.signed x.isNegative ⌊d.size⌋₊ := by
  rcases Nat.eq_zero_or_pos ⌊d.size⌋₊ with hzero | hpos
  · rw [hzero]
    cases d.minus <;> cases x.isNegative <;> simp [Num.signed]
  · have hsize : d.size ≠ 0 := by
      intro hzero
      simp [hzero] at hpos
    have hne : d.value ≠ 0 := by
      rw [value]
      cases d.minus <;> simpa [Num.signed] using hsize
    have hsign : d.minus = true ↔ x.isNegative = true :=
      (Num.signed_neg_iff d.size_nonneg hne).trans (h.sign hne).symm
    rw [Bool.eq_iff_iff.2 hsign]

/-- The integer part of what a number prints as is that of the number. -/
theorem Prints.signed_floor_size (h : d.Prints x) (hfinite : x.isFinite = true) (hsmall : |x.value| < 10 ^ 21) :
    Num.signed d.minus ⌊d.size⌋₊ = x.whole := by
  have hsize : |d.value| = d.size := Num.abs_signed d.size_nonneg
  have hfloor : ⌊d.size⌋₊ = ⌊|x.value|⌋₊ := by
    rw [← hsize]
    by_cases hwhole : ∃ i : ℤ, x.value = i
    · rw [(h.exact hwhole hsmall).2]
    · exact Num.floor_eq_of_isNearest hfinite hwhole h.nearest
  rw [Numeral.signed_floor_size h.nearest, hfloor, Num.whole_eq_signed]

end Numeral

/-- A number that prints without an exponent is read back as its integer part. -/
theorem exists_toNum_text {x : Num} (hfinite : x.isFinite = true) (args : List Value)
    (hrange : x.value = 0 ∨ 1 / 10 ^ 6 ≤ |x.value| ∧ |x.value| < 10 ^ 21) :
    ∃ y : Num, StrMethod.answer x.text .toNum args = .ok (.value (.num y)) ∧ y.isFinite = true ∧ y.value = x.whole := by
  obtain ⟨d, hd⟩ := NumberFormat.exists_prints hfinite
  have hsmall : |x.value| < 10 ^ 21 := by
    rcases hrange with hzero | hrange
    · rw [hzero]
      norm_num
    · exact hrange.2
  have hexponent : d.exponent = none := by
    rw [← Option.not_isSome_iff_eq_none, hd.exponent, not_or, not_le, not_and, not_lt]
    refine ⟨hsmall, fun hpos => ?_⟩
    have hlarge := hrange.resolve_left (abs_pos.1 hpos)
    exact NumberFormat.value_positionalFrom_lt.le.trans hlarge.1
  obtain ⟨z, hz, hwhole⟩ := Num.exists_value_eq_whole hfinite
  have hnearest := Num.ofDecimal_isNearest d.minus ⌊d.size⌋₊ 0
  rw [zpow_zero, mul_one, hd.signed_floor_size hfinite hsmall, ← hwhole] at hnearest
  obtain ⟨hfinite', hvalue⟩ := hnearest.value_eq hz
  exact ⟨_, hd.text ▸ Numeral.toNum_text hexponent args, hfinite', hvalue.trans hwhole⟩

/-- **A number is printed and read back as its integer part**, and a whole number as itself, also where the whole
numbers that there are lie far apart. -/
theorem toNum_toStr_truncates (x : Num) (hfinite : x.isFinite = true) (args args' : List Value) :
    ∃ text, NumMethod.answer x .toStr args = .ok (.value (.str text)) ∧
      (x.value = 0 ∨ 1 / 10 ^ 6 ≤ |x.value| ∧ |x.value| < 10 ^ 21 →
        ∃ y : Num, StrMethod.answer text .toNum args' = .ok (.value (.num y)) ∧
          y.isFinite = true ∧ y.value = x.whole) ∧
      ((∃ i : ℤ, x.value = i) → |x.value| < 10 ^ 21 →
        ∃ y : Num, StrMethod.answer text .toNum args' = .ok (.value (.num y)) ∧
          y.isFinite = true ∧ y.value = x.value) := by
  refine ⟨x.text, rfl, exists_toNum_text hfinite args', fun hwhole hsmall => ?_⟩
  have hrange : x.value = 0 ∨ 1 / 10 ^ 6 ≤ |x.value| ∧ |x.value| < 10 ^ 21 := by
    by_cases hzero : x.value = 0
    · exact .inl hzero
    · have hone := Num.one_le_abs_value (Nat.pos_of_ne_zero (mt Num.value_eq_zero_iff.2 hzero)) hwhole
      exact .inr ⟨by norm_num; linarith, hsmall⟩
  obtain ⟨y, hread, hfinite', hvalue⟩ := exists_toNum_text hfinite args' hrange
  exact ⟨y, hread, hfinite', hvalue.trans (Num.whole_eq_value hwhole)⟩

/-- The greatest number below one. -/
def Num.belowOne : Num := ⟨0x3FEFFFFFFFFFFFFF⟩

/-- The greatest number below one does not round up to one on its way. -/
theorem toNum_toStr_belowOne : Num.belowOne.isFinite = true ∧ Num.belowOne.text = "0.9999999999999999" ∧
    ∃ text y, NumMethod.answer Num.belowOne .toStr [] = .ok (.value (.str text)) ∧
      StrMethod.answer text .toNum [] = .ok (.value (.num y)) ∧ y.value = 0 := by
  have hfinite : Num.belowOne.isFinite = true := by decide
  have hone : (0 : ℚ) < Num.one := Nat.cast_pos.2 Num.one_pos
  have hscaled : (Num.one : ℤ) ≤ Num.belowOne.scaled * 10 ^ 6 ∧ Num.belowOne.scaled < Num.one := by decide +kernel
  have hwhole : Num.belowOne.whole = 0 := by
    rw [← Num.truncate_of_isFinite hfinite]
    decide +kernel
  have hlow : 1 / 10 ^ 6 ≤ Num.belowOne.value := by
    rw [Num.value, div_le_div_iff₀ (by norm_num) hone, one_mul]
    exact_mod_cast hscaled.1
  have hhigh : Num.belowOne.value < 1 := by
    rw [Num.value, div_lt_one hone]
    exact_mod_cast hscaled.2
  have hrange : 1 / 10 ^ 6 ≤ |Num.belowOne.value| ∧ |Num.belowOne.value| < 10 ^ 21 := by
    rw [abs_of_nonneg (hlow.trans' (by norm_num))]
    exact ⟨hlow, hhigh.trans (by norm_num)⟩
  refine ⟨hfinite, by decide +kernel, ?_⟩
  obtain ⟨text, htext, hread, -⟩ := toNum_toStr_truncates Num.belowOne hfinite [] []
  obtain ⟨y, hy, -, hvalue⟩ := hread (.inr hrange)
  exact ⟨text, y, htext, hy, by rw [hvalue, hwhole, Int.cast_zero]⟩

end ScriptValues
