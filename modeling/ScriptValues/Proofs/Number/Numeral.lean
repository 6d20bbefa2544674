/-
Decimals as they are written. A `Numeral` is a decimal spelled out: a minus or none, digits, a point with further
digits, and an exponent with its sign. What it denotes is what is read from its text (`decimalValue_unsigned`).

The three notations of numbers are numerals: `ofScientific`, `ofNat` and `ofPositional`. In each the digits of the
decimal are the significant ones, and what else there is are zeros in front of them.
-/
import ScriptValues.Proofs.Number.Reading
import ScriptValues.Proofs.Number.Rounding

namespace ScriptValues

namespace Text

theorem IsRun.take {cs : List Char} {n : Nat} (h : IsRun cs) (hn : 0 < n) : IsRun (cs.take n) := by
  refine ⟨?_, fun c hc => h.2 c (List.mem_of_mem_take hc)⟩
  rw [Ne, List.take_eq_nil_iff, not_or]
  exact ⟨hn.ne', h.1⟩

theorem IsRun.drop {cs : List Char} {n : Nat} (h : IsRun cs) (hn : n < cs.length) : IsRun (cs.drop n) := by
  refine ⟨?_, fun c hc => h.2 c (List.mem_of_mem_drop hc)⟩
  rw [Ne, List.drop_eq_nil_iff]
  exact Nat.not_le.2 hn

theorem IsRun.pad {cs : List Char} (h : IsRun cs) (n : Nat) : IsRun (List.replicate n '0' ++ cs) := by
  refine ⟨by simp [h.1], fun c hc => ?_⟩
  rcases List.mem_append.1 hc with hc | hc
  · rw [List.eq_of_mem_replicate hc]
    rfl
  · exact h.2 c hc

end Text

/-- A decimal as it is written. -/
structure Numeral where
  minus : Bool
  whole : List Char
  fraction : Option (List Char)
  /-- Whether the exponent has a minus, and its digits. -/
  exponent : Option (Bool × List Char)
  whole_isRun : Text.IsRun whole
  fraction_isRun : ∀ cs ∈ fraction, Text.IsRun cs
  exponent_isRun : ∀ p ∈ exponent, Text.IsRun p.2

namespace Numeral

/-! ## Text and value -/

/-- The digits before and after the point. -/
def digits (d : Numeral) : List Char := d.whole ++ d.fraction.getD []

/-- The exponent, zero if there is none. -/
def power (d : Numeral) : Int :=
  d.exponent.elim 0 fun p => if p.1 then -Nat.ofDigitChars 10 p.2 0 else Nat.ofDigitChars 10 p.2 0

/-- The text without the minus. -/
def unsigned (d : Numeral) : List Char :=
  d.whole ++ d.fraction.elim [] ('.' :: ·) ++ d.exponent.elim [] fun p => 'e' :: (if p.1 then '-' else '+') :: p.2

def text (d : Numeral) : String := .ofList (if d.minus then '-' :: d.unsigned else d.unsigned)

/-- The number that the text without the minus denotes. -/
def size (d : Numeral) : ℚ :=
  Nat.ofDigitChars 10 d.digits 0 / 10 ^ (d.fraction.getD []).length * 10 ^ d.power

/-- The number that the text denotes. -/
def value (d : Numeral) : ℚ := Num.signed d.minus d.size

/-- The count of digits from the first on that is not zero. -/
def significant (d : Numeral) : Nat := (d.digits.dropWhile (· == '0')).length

variable (d : Numeral)

theorem size_nonneg : 0 ≤ d.size := by
  rw [size]
  positivity

theorem pointValue_eq : Text.pointValue (d.whole ++ d.fraction.elim [] ('.' :: ·)) =
    Nat.ofDigitChars 10 d.digits 0 / 10 ^ (d.fraction.getD []).length := by
  have hpoint : '.' ∉ d.whole := d.whole_isRun.not_mem rfl
  rw [digits]
  cases d.fraction with
  | none => simp [Text.pointValue_whole hpoint]
  | some cs => exact Text.pointValue_split hpoint

/-- **A numeral denotes what is read from its text.** -/
theorem decimalValue_unsigned : Text.decimalValue d.unsigned = d.size := by
  have hfront : 'e' ∉ d.whole ++ d.fraction.elim [] ('.' :: ·) := by
    have hrun := d.fraction_isRun
    cases hfraction : d.fraction with
    | none => simpa using d.whole_isRun.not_mem rfl
    | some cs => simpa using ⟨d.whole_isRun.not_mem rfl, (hrun cs hfraction).not_mem rfl⟩
  rw [unsigned, size, power]
  cases d.exponent with
  | none => simp [Text.decimalValue_plain hfront, pointValue_eq]
  | some p =>
    obtain ⟨minus, cs⟩ := p
    rw [Option.elim_some, Text.decimalValue_split hfront, pointValue_eq]
    cases minus <;> rfl

theorem e_mem_text (h : d.exponent ≠ none) : 'e' ∈ d.text.toList := by
  obtain ⟨p, hp⟩ := Option.ne_none_iff_exists'.1 h
  have hmem : 'e' ∈ d.unsigned := by simp [unsigned, hp]
  rw [text, String.toList_ofList]
  split
  · exact List.mem_cons_of_mem _ hmem
  · exact hmem

/-! ## The notations -/

/-- A whole number. -/
def ofNat (minus : Bool) (n : Nat) : Numeral where
  minus := minus
  whole := Nat.toDigits 10 n
  fraction := none
  exponent := none
  whole_isRun := Text.isRun_toDigits n
  fraction_isRun := by simp
  exponent_isRun := by simp

@[simp] theorem ofNat_unsigned (minus : Bool) (n : Nat) : (ofNat minus n).unsigned = Nat.toDigits 10 n := by
  simp [unsigned, ofNat]

@[simp] theorem ofNat_size (minus : Bool) (n : Nat) : (ofNat minus n).size = n := by
  simp [size, digits, power, ofNat]

/-- A decimal with one digit before the point, the others behind it, and an exponent. -/
def ofScientific (minus : Bool) (d : Decimal) : Numeral where
  minus := minus
  whole := d.digits.take 1
  fraction := if 1 < d.digits.length then some (d.digits.drop 1) else none
  exponent := some (decide (d.leading < 0), Nat.toDigits 10 d.leading.natAbs)
  whole_isRun := (Text.isRun_toDigits d.coefficient).take Nat.one_pos
  fraction_isRun := by
    simp only [Option.mem_def, Option.ite_none_right_eq_some, Option.some.injEq]
    rintro cs ⟨hlong, rfl⟩
    exact (Text.isRun_toDigits d.coefficient).drop hlong
  exponent_isRun := by
    simp only [Option.mem_def, Option.some.injEq]
    rintro p rfl
    exact Text.isRun_toDigits _

theorem ofScientific_unsigned (minus : Bool) (d : Decimal) :
    (ofScientific minus d).unsigned = NumberFormat.plain.scientific d := by
  simp only [unsigned, ofScientific, NumberFormat.scientific, NumberFormat.plain, Option.elim_some,
    decide_eq_true_eq]
  congr 1
  · rcases d.digits with _ | ⟨c, _ | ⟨c', cs⟩⟩ <;> rfl
  · split <;> rfl

theorem ofScientific_digits (minus : Bool) (d : Decimal) : (ofScientific minus d).digits = d.digits := by
  simp only [digits, ofScientific]
  rcases d.digits with _ | ⟨c, _ | ⟨c', cs⟩⟩ <;> rfl

theorem ofScientific_significant_le (minus : Bool) (d : Decimal) :
    (ofScientific minus d).significant ≤ d.digits.length := by
  rw [significant, ofScientific_digits]
  exact (List.dropWhile_suffix _).length_le

/-- The digits of a decimal, with so many zeros in front that one digit at least is before the point. -/
def padded (d : Decimal) : List Char :=
  List.replicate ((-d.exponent).toNat + 1 - d.digits.length) '0' ++ d.digits

theorem lt_length_padded (d : Decimal) : (-d.exponent).toNat < (padded d).length := by
  rw [padded, List.length_append, List.length_replicate]
  omega

/-- A decimal with as many digits behind the point as its exponent asks for. -/
def ofPositional (minus : Bool) (d : Decimal) (h : d.exponent < 0) : Numeral where
  minus := minus
  whole := (padded d).take ((padded d).length - (-d.exponent).toNat)
  fraction := some ((padded d).drop ((padded d).length - (-d.exponent).toNat))
  exponent := none
  whole_isRun := ((Text.isRun_toDigits d.coefficient).pad _).take (Nat.sub_pos_of_lt (lt_length_padded d))
  fraction_isRun := by
    simp only [Option.mem_def, Option.some.injEq]
    rintro cs rfl
    have hlong := lt_length_padded d
    exact ((Text.isRun_toDigits d.coefficient).pad _).drop (Nat.sub_lt (by omega) (by omega))
  exponent_isRun := by simp

theorem ofPositional_unsigned (minus : Bool) {d : Decimal} (h : d.exponent < 0) :
    (ofPositional minus d h).unsigned = NumberFormat.positional d := by
  simp only [unsigned, ofPositional, Option.elim_some, Option.elim_none, List.append_nil, NumberFormat.positional]
  generalize hplaces : (-d.exponent).toNat = places
  split
  · next hshort =>
    have hpadded : padded d = '0' :: (List.replicate (places - d.digits.length) '0' ++ d.digits) := by
      rw [padded, hplaces, Nat.succ_sub hshort, List.replicate_succ, List.cons_append]
    have hone : (padded d).length - places = 1 := by
      rw [hpadded, List.length_cons, List.length_append, List.length_replicate]
      omega
    rw [hone, hpadded]
    rfl
  · next hlong =>
    have hpadded : padded d = d.digits := by
      rw [padded, hplaces, Nat.sub_eq_zero_of_le (by omega), List.replicate_zero, List.nil_append]
    rw [hpadded]

theorem ofPositional_significant_le (minus : Bool) {d : Decimal} (h : d.exponent < 0) :
    (ofPositional minus d h).significant ≤ d.digits.length := by
  have hdigits : (ofPositional minus d h).digits = padded d := List.take_append_drop _ _
  rw [significant, hdigits, padded,
    List.dropWhile_append_of_pos (fun c hc => beq_iff_eq.2 (List.eq_of_mem_replicate hc))]
  exact (List.dropWhile_suffix _).length_le

end Numeral

end ScriptValues
