/-
The text of a magnitude reads back. `decimalValue` reads a decimal with a point and an exponent as the exact
number that it denotes. Each notation denotes the decimal that it was made of (`decimalValue_scientific`,
`decimalValue_positional`), so what the text of a magnitude denotes rounds to that magnitude again
(`encloses_magnitude`).
-/
import ScriptValues.Number.Format
import ScriptValues.Proofs.Number.Shortest
import ScriptValues.Proofs.Text.Delimiter

namespace ScriptValues

namespace Text

/-! ## Runs of digits -/

/-- Digits, and one at least. -/
def IsRun (cs : List Char) : Prop := cs ≠ [] ∧ ∀ c ∈ cs, c.isDigit = true

theorem IsRun.not_mem {cs : List Char} {c : Char} (h : IsRun cs) (hc : c.isDigit = false) : c ∉ cs := fun hmem =>
  Bool.false_ne_true (hc.symm.trans (h.2 c hmem))

theorem isRun_toDigits (n : Nat) : IsRun (Nat.toDigits 10 n) :=
  ⟨Nat.toDigits_ne_nil, fun _ hc => Nat.isDigit_of_mem_toDigits (by decide) (by decide) hc⟩

/-! ## Reading decimals -/

/-- The exponent that a text ends in, from its `e` on. -/
def exponentValue : List Char → Int
  | 'e' :: '-' :: digits => -Nat.ofDigitChars 10 digits 0
  | 'e' :: '+' :: digits => Nat.ofDigitChars 10 digits 0
  | _ => 0

/-- The number that digits with a point denote: each place after the point is worth a tenth of the one
before. -/
def pointValue (cs : List Char) : ℚ :=
  let whole := cs.takeWhile (· != '.')
  let fraction := (cs.dropWhile (· != '.')).tail
  Nat.ofDigitChars 10 (whole ++ fraction) 0 / 10 ^ fraction.length

/-- The number that an unsigned decimal denotes, with or without a point and an exponent. -/
def decimalValue (cs : List Char) : ℚ :=
  pointValue (cs.takeWhile (· != 'e')) * 10 ^ exponentValue (cs.dropWhile (· != 'e'))

theorem pointValue_split {whole fraction : List Char} (h : '.' ∉ whole) :
    pointValue (whole ++ '.' :: fraction) =
      Nat.ofDigitChars 10 (whole ++ fraction) 0 / 10 ^ fraction.length := by
  simp only [pointValue, takeWhile_bne_append h, dropWhile_bne_append h, List.tail_cons]

theorem pointValue_whole {cs : List Char} (h : '.' ∉ cs) : pointValue cs = Nat.ofDigitChars 10 cs 0 := by
  simp [pointValue, takeWhile_bne_eq h, dropWhile_bne_eq h]

theorem decimalValue_split {front back : List Char} (h : 'e' ∉ front) :
    decimalValue (front ++ 'e' :: back) = pointValue front * 10 ^ exponentValue ('e' :: back) := by
  rw [decimalValue, takeWhile_bne_append h, dropWhile_bne_append h]

theorem decimalValue_plain {cs : List Char} (h : 'e' ∉ cs) : decimalValue cs = pointValue cs := by
  simp [decimalValue, takeWhile_bne_eq h, dropWhile_bne_eq h, exponentValue]

end Text

/-! ## The notations -/

theorem not_mem_toDigits {n : Nat} {c : Char} (hc : c.isDigit = false) : c ∉ Nat.toDigits 10 n :=
  (Text.isRun_toDigits n).not_mem hc

namespace NumberFormat

theorem decimalValue_toDigits (n : Nat) : Text.decimalValue (Nat.toDigits 10 n) = n := by
  rw [Text.decimalValue_plain (not_mem_toDigits rfl), Text.pointValue_whole (not_mem_toDigits rfl),
    Nat.ofDigitChars_ten_toDigits]

theorem pointValue_mantissa {ds : List Char} (hne : ds ≠ []) (hdigits : '.' ∉ ds) :
    Text.pointValue (mantissa ds) = Nat.ofDigitChars 10 ds 0 / 10 ^ (ds.length - 1) := by
  match ds with
  | [c] => simp [mantissa, Text.pointValue_whole hdigits]
  | c :: c' :: cs =>
    have hc : '.' ∉ [c] := fun h => hdigits (List.mem_cons.2 (.inl (List.mem_singleton.1 h)))
    exact Text.pointValue_split hc

theorem e_not_mem_mantissa {ds : List Char} (hdigits : 'e' ∉ ds) : 'e' ∉ mantissa ds := by
  match ds with
  | [] => exact hdigits
  | [c] => exact hdigits
  | c :: c' :: cs => simpa [mantissa] using hdigits

theorem exponentValue_plain (i : Int) :
    Text.exponentValue ('e' :: if i < 0 then '-' :: Nat.toDigits 10 i.natAbs
      else plain.exponentSign ++ Nat.toDigits 10 i.natAbs) = i := by
  split
  · rw [Text.exponentValue, Nat.ofDigitChars_ten_toDigits]
    omega
  · rw [plain, List.singleton_append, Text.exponentValue, Nat.ofDigitChars_ten_toDigits]
    omega

theorem decimalValue_scientific (d : Decimal) : Text.decimalValue (plain.scientific d) = d.value := by
  have he : 'e' ∉ d.digits := not_mem_toDigits rfl
  have hpoint : '.' ∉ d.digits := not_mem_toDigits rfl
  have hne : d.digits ≠ [] := Nat.toDigits_ne_nil
  have hread : Nat.ofDigitChars 10 d.digits 0 = d.coefficient := Nat.ofDigitChars_ten_toDigits
  rw [scientific, Text.decimalValue_split (e_not_mem_mantissa he), exponentValue_plain,
    pointValue_mantissa hne hpoint, hread, Decimal.value]
  have hlength : 1 ≤ d.digits.length := List.length_pos_iff.2 hne
  have hleading : d.leading = d.exponent + (d.digits.length - 1 : Nat) := by
    rw [Decimal.leading]
    omega
  rw [hleading, zpow_add₀ (by norm_num), zpow_natCast]
  field_simp

theorem decimalValue_positional {d : Decimal} (hd : d.exponent ≤ 0) :
    Text.decimalValue (positional d) = d.value := by
  have he : 'e' ∉ d.digits := not_mem_toDigits rfl
  have hpoint : '.' ∉ d.digits := not_mem_toDigits rfl
  have hread : Nat.ofDigitChars 10 d.digits 0 = d.coefficient := Nat.ofDigitChars_ten_toDigits
  obtain ⟨places, hplaces⟩ : ∃ places : Nat, d.exponent = -places := ⟨(-d.exponent).toNat, by omega⟩
  have hvalue : d.value = d.coefficient / 10 ^ places := by
    rw [Decimal.value, hplaces, zpow_neg, zpow_natCast, div_eq_mul_inv]
  -- Whatever digits stand before the point, these many stand behind it.
  have hsplit : ∀ whole fraction : List Char, '.' ∉ whole → 'e' ∉ whole → 'e' ∉ fraction →
      Nat.ofDigitChars 10 (whole ++ fraction) 0 = d.coefficient → fraction.length = places →
      Text.decimalValue (whole ++ '.' :: fraction) = d.value := by
    intro whole fraction hwhole hwhole' hfraction hdigits hlength
    have hplain : 'e' ∉ whole ++ '.' :: fraction := by simp [hwhole', hfraction]
    rw [Text.decimalValue_plain hplain, Text.pointValue_split hwhole, hdigits, hlength, hvalue]
  have hneg : (-d.exponent).toNat = places := by omega
  simp only [positional, hneg]
  split
  · next hshort =>
    have hzeros : Nat.ofDigitChars 10 (['0'] ++ (List.replicate (places - d.digits.length) '0' ++ d.digits)) 0 =
        d.coefficient := by
      rw [Nat.ofDigitChars_append, Nat.ofDigitChars_append, Nat.ofDigitChars_replicate_zero]
      simpa [Nat.ofDigitChars_cons] using hread
    exact hsplit ['0'] _ (by simp) (by simp) (by simp [he]) hzeros (by simp; omega)
  · next hlong =>
    have htake : ∀ {c n}, c ∉ d.digits → c ∉ d.digits.take n := fun hc h => hc (List.mem_of_mem_take h)
    have hdrop : 'e' ∉ d.digits.drop (d.digits.length - places) := fun h => he (List.mem_of_mem_drop h)
    refine hsplit _ _ (htake hpoint) (htake he) hdrop ?_ (by simp; omega)
    rw [List.take_append_drop, hread]

end NumberFormat

/-! ## The text of a magnitude -/

namespace Num

variable {x y : Num}

theorem exists_one_eq : ∃ e, one = 2 ^ e := by
  unfold one
  generalize 1074 = e
  exact ⟨e, rfl⟩

/-- No whole number rounds to a magnitude with a fraction. -/
theorem one_dvd_of_encloses {k : Nat} (h : x.Encloses (k * (4 * one))) : one ∣ x.magnitude := by
  obtain ⟨e, hone⟩ := exists_one_eq
  rw [magnitude, Nat.pow_eq, hone]
  rw [hone] at h
  rcases Nat.le_total e x.scale with hle | hle
  · exact (Nat.pow_dvd_pow 2 hle).mul_left _
  -- Counted in steps of `x`, the whole number is one as well, and less than a step away.
  obtain ⟨j, rfl⟩ : ∃ j, e = j + x.scale := ⟨e - x.scale, by omega⟩
  have hpos : (0 : ℚ) < 2 ^ x.scale := by positivity
  have hbelow : (x.below : ℚ) ≤ 2 * 2 ^ x.scale := by exact_mod_cast x.below_le_above
  have hends : (4 * x.significand - 2 : ℚ) * 2 ^ x.scale ≤ 4 * (k * 2 ^ j) * 2 ^ x.scale ∧
      (4 * (k * 2 ^ j) : ℚ) * 2 ^ x.scale ≤ (4 * x.significand + 2) * 2 ^ x.scale := by
    rw [Encloses, quarters_eq, above_eq] at h
    push_cast [pow_add] at h
    split at h <;> constructor <;> linarith [h.1, h.2]
  rw [mul_le_mul_iff_left₀ hpos, mul_le_mul_iff_left₀ hpos] at hends
  have hlow : 4 * x.significand ≤ 4 * (k * 2 ^ j) + 2 := by
    have := hends.1
    rw [sub_le_iff_le_add] at this
    exact_mod_cast this
  have hhigh : 4 * (k * 2 ^ j) ≤ 4 * x.significand + 2 := by exact_mod_cast hends.2
  have hsignificand : x.significand = k * 2 ^ j := by omega
  exact ⟨k, by rw [hsignificand, Nat.pow_add]; ring⟩

/-- The shortest decimal of a number with a fraction has places after the point. -/
theorem shortest_exponent_neg (hx : 0 < x.magnitude) (hfraction : ¬ one ∣ x.magnitude) : x.shortest.exponent < 0 := by
  by_contra hnonneg
  -- With no place after the point the decimal would be whole, and the number with it.
  obtain ⟨n, hn⟩ := Int.eq_ofNat_of_zero_le (Int.not_lt.1 hnonneg)
  have hshortest := shortest_encloses hx
  rw [Decimal.value, hn, zpow_natCast] at hshortest
  exact hfraction (one_dvd_of_encloses (k := x.shortest.coefficient * 10 ^ n) (by exact_mod_cast hshortest))

theorem isIntegral_iff (hfinite : x.isFinite = true) : x.isIntegral = true ↔ one ∣ x.magnitude := by
  rw [isIntegral, hfinite, Bool.true_and, beq_iff_eq, Nat.dvd_iff_mod_eq_zero]

theorem integer?_eq_none_iff (hfinite : x.isFinite = true) : x.integer? = none ↔ ¬ one ∣ x.magnitude := by
  rw [integer?, ite_eq_right_iff, isIntegral_iff hfinite]
  simp

/-- The integer of a number is its magnitude, up to the sign. -/
theorem magnitude_of_integer? {i : Int} (hfinite : x.isFinite = true) (h : x.integer? = some i) :
    x.magnitude = i.natAbs * one := by
  rw [integer?, Option.ite_none_right_eq_some, isIntegral_iff hfinite, truncate,
    if_neg (Bool.eq_false_iff.1 (isNaN_of_isFinite hfinite)), Option.some.injEq] at h
  rw [← h.2, Int.natAbs_tdiv, natAbs_scaled, Int.natAbs_natCast]
  exact (Nat.div_mul_cancel h.1).symm

end Num

namespace NumberFormat

variable {x y : Num}

/-- The number without its sign. -/
def absolute (x : Num) : Num := if x.isNegative then x.neg else x

theorem absolute_isFinite (x : Num) : (absolute x).isFinite = x.isFinite := by
  rw [absolute]
  split
  · exact x.neg_isFinite
  · rfl

theorem absolute_magnitude (x : Num) : (absolute x).magnitude = x.magnitude := by
  rw [absolute]
  split
  · exact x.neg_magnitude
  · rfl

/-- The magnitude is so small or so great that it is written with an exponent. -/
def takesExponent (x : Num) : Bool :=
  (absolute x).lt plain.positionalFrom || !(absolute x).lt plain.exponentFrom

/-- The text of a magnitude is in one of three notations. -/
theorem magnitude_notation (x : Num) :
    takesExponent x = true ∧ plain.magnitude x = plain.scientific (absolute x).shortest ∨
      (takesExponent x = false ∧
        ∃ i, (absolute x).integer? = some i ∧ plain.magnitude x = Nat.toDigits 10 i.natAbs) ∨
      takesExponent x = false ∧
        (absolute x).integer? = none ∧ plain.magnitude x = positional (absolute x).shortest := by
  rw [magnitude, ← absolute, ← takesExponent]
  split
  · next hexponent => exact .inl ⟨hexponent, rfl⟩
  · next hexponent =>
    rw [Bool.not_eq_true] at hexponent
    split
    · next i hi => exact .inr (.inl ⟨hexponent, i, hi, List.append_nil _⟩)
    · next hnone => exact .inr (.inr ⟨hexponent, hnone, rfl⟩)

/-- **The text of a magnitude reads back**, in each notation. -/
theorem encloses_magnitude (hx : 0 < x.magnitude) (hfinite : x.isFinite = true) :
    x.Encloses (Text.decimalValue (plain.magnitude x) * (4 * Num.one)) := by
  have hnotation := magnitude_notation x
  rw [← Num.encloses_congr (absolute_magnitude x)]
  rw [← absolute_magnitude] at hx
  rw [← absolute_isFinite] at hfinite
  have hshortest := Num.shortest_encloses hx
  generalize absolute x = a at *
  rcases hnotation with ⟨-, htext⟩ | ⟨-, i, hi, htext⟩ | ⟨-, hnone, htext⟩ <;> rw [htext]
  · rwa [decimalValue_scientific]
  · have hquarters : a.quarters = i.natAbs * (4 * Num.one) := by
      rw [Num.quarters, Num.magnitude_of_integer? hfinite hi, Nat.mul_left_comm]
    rw [decimalValue_toDigits]
    exact_mod_cast hquarters ▸ a.encloses_quarters
  · have hneg := Num.shortest_exponent_neg hx ((Num.integer?_eq_none_iff hfinite).1 hnone)
    rwa [decimalValue_positional hneg.le]

end NumberFormat

end ScriptValues
