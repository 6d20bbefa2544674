/-
The texts of numbers. A number's text is a minus, if it has one, and a text that does not begin with one
(`render_eq`); of a finite number that is a numeral, which begins with a digit and has no other signs than
digits, a point and an exponent. As numerals read back, two numbers have one text just if they are equal or
both NaN (`render_eq_iff`).
-/
import ScriptValues.Proofs.Number.Reading

namespace ScriptValues.NumberFormat

variable {x y : Num}

/-! ## Numerals -/

/-- The text begins with a digit. -/
def BeginsWithDigit (cs : List Char) : Prop := ∃ c rest, cs = c :: rest ∧ c.isDigit = true

theorem beginsWithDigit_toDigits (n : Nat) : BeginsWithDigit (Nat.toDigits 10 n) := by
  obtain ⟨c, rest, h⟩ := List.exists_cons_of_ne_nil (Nat.toDigits_ne_nil (b := 10) (n := n))
  exact ⟨c, rest, h, Nat.isDigit_of_mem_toDigits (by decide) (by decide) (h ▸ List.mem_cons_self)⟩

theorem BeginsWithDigit.append {cs : List Char} (h : BeginsWithDigit cs) (ds : List Char) :
    BeginsWithDigit (cs ++ ds) := by
  obtain ⟨c, rest, rfl, hc⟩ := h
  exact ⟨c, rest ++ ds, rfl, hc⟩

theorem beginsWithDigit_mantissa {ds : List Char} (h : BeginsWithDigit ds) : BeginsWithDigit (mantissa ds) := by
  obtain ⟨c, rest, rfl, hc⟩ := h
  cases rest with
  | nil => exact ⟨c, [], rfl, hc⟩
  | cons d rest => exact ⟨c, _, rfl, hc⟩

theorem beginsWithDigit_positional (d : Decimal) : BeginsWithDigit (positional d) := by
  obtain ⟨c, rest, hdigits, hc⟩ := beginsWithDigit_toDigits d.coefficient
  simp only [positional]
  split
  · exact ⟨'0', _, rfl, rfl⟩
  · next hlong =>
    refine BeginsWithDigit.append ?_ _
    obtain ⟨n, hn⟩ : ∃ n, d.digits.length - (-d.exponent).toNat = n + 1 :=
      Nat.exists_eq_succ_of_ne_zero (by omega)
    exact ⟨c, rest.take n, by rw [hn, Decimal.digits, hdigits, List.take_succ_cons], hc⟩

theorem beginsWithDigit_magnitude (x : Num) : BeginsWithDigit (plain.magnitude x) := by
  rcases magnitude_notation x with ⟨-, h⟩ | ⟨-, i, -, h⟩ | ⟨-, -, h⟩ <;> rw [h]
  · exact (beginsWithDigit_mantissa (beginsWithDigit_toDigits _)).append _
  · exact beginsWithDigit_toDigits _
  · exact beginsWithDigit_positional _

/-- The characters that the texts of numbers are made of. -/
def IsNumberChar (c : Char) : Prop := c.isDigit = true ∨ c ∈ "+-.eNaInfinity".toList

theorem isNumberChar_of_mem_mantissa {ds : List Char} (h : ∀ c ∈ ds, c.isDigit = true) :
    ∀ c ∈ mantissa ds, IsNumberChar c := by
  match ds with
  | [] => simp [mantissa]
  | [c] => exact fun d hd => .inl (h d hd)
  | c :: c' :: cs =>
    intro d hd
    have hmantissa : mantissa (c :: c' :: cs) = c :: '.' :: c' :: cs := rfl
    rw [hmantissa, List.mem_cons, List.mem_cons] at hd
    rcases hd with rfl | rfl | hd
    · exact .inl (h d List.mem_cons_self)
    · exact .inr (by decide)
    · exact .inl (h d (List.mem_cons_of_mem _ hd))

theorem isNumberChar_of_mem_toDigits {n : Nat} {c : Char} (h : c ∈ Nat.toDigits 10 n) : IsNumberChar c :=
  .inl (Nat.isDigit_of_mem_toDigits (by decide) (by decide) h)

theorem isNumberChar_of_mem_positional (d : Decimal) : ∀ c ∈ positional d, IsNumberChar c := by
  intro c hc
  simp only [positional] at hc
  split at hc
  · simp only [List.mem_cons, List.mem_append, List.mem_replicate] at hc
    rcases hc with rfl | rfl | ⟨-, rfl⟩ | hc
    · exact .inl rfl
    · exact .inr (by decide)
    · exact .inl rfl
    · exact isNumberChar_of_mem_toDigits hc
  · rw [List.mem_append, List.mem_cons] at hc
    rcases hc with hc | rfl | hc
    · exact isNumberChar_of_mem_toDigits (List.mem_of_mem_take hc)
    · exact .inr (by decide)
    · exact isNumberChar_of_mem_toDigits (List.mem_of_mem_drop hc)

theorem isNumberChar_of_mem_scientific (d : Decimal) : ∀ c ∈ plain.scientific d, IsNumberChar c := by
  intro c hc
  rw [scientific, List.mem_append, List.mem_cons] at hc
  rcases hc with hc | rfl | hc
  · refine isNumberChar_of_mem_mantissa (fun c hc => ?_) c hc
    exact Nat.isDigit_of_mem_toDigits (by decide) (by decide) hc
  · exact .inr (by decide)
  · split at hc <;> rcases List.mem_cons.1 hc with rfl | hc
    · exact .inr (by decide)
    · exact isNumberChar_of_mem_toDigits hc
    · exact .inr (by decide)
    · exact isNumberChar_of_mem_toDigits hc

theorem isNumberChar_of_mem_magnitude (x : Num) : ∀ c ∈ plain.magnitude x, IsNumberChar c := by
  rcases magnitude_notation x with ⟨-, h⟩ | ⟨-, i, -, h⟩ | ⟨-, -, h⟩ <;> rw [h]
  · exact isNumberChar_of_mem_scientific _
  · exact fun _ => isNumberChar_of_mem_toDigits
  · exact isNumberChar_of_mem_positional _

/-! ## Signs -/

/-- The text of a number has a minus. -/
def hasMinus (x : Num) : Bool := !x.isNaN && x.isNegative && x.magnitude != 0

/-- The text of a number without its sign. -/
def unsigned (x : Num) : List Char :=
  if x.isNaN then "NaN".toList
  else if x.isInfinite then plain.infinity
  else if x.magnitude = 0 then plain.zero
  else plain.magnitude x

/-- What a text without a sign stands for. -/
inductive Unsigned (x : Num) : List Char → Prop
  | nan : x.isNaN = true → Unsigned x ['N', 'a', 'N']
  | infinity : x.isInfinite = true → Unsigned x ['I', 'n', 'f', 'i', 'n', 'i', 't', 'y']
  | numeral {c cs} : x.isFinite = true → c.isDigit = true →
      x.Encloses (Text.decimalValue (c :: cs) * (4 * Num.one)) → Unsigned x (c :: cs)

theorem unsigned_stands (x : Num) : Unsigned x (unsigned x) := by
  rw [unsigned]
  split
  · next hnan => exact .nan hnan
  split
  · next hinfinite => exact .infinity hinfinite
  have hfinite : x.isFinite = true := x.isFinite_or.resolve_left ‹_› |>.resolve_left ‹_›
  split
  · next hzero =>
    refine .numeral hfinite rfl ?_
    have hquarters : x.quarters = 0 := by rw [Num.quarters, hzero]
    have hself := x.encloses_quarters
    have hvalue : Text.decimalValue ['0'] = (0 : Nat) := decimalValue_toDigits 0
    rwa [hvalue, Nat.cast_zero, zero_mul, ← Nat.cast_zero, ← hquarters]
  · next hpos =>
    have hencloses := encloses_magnitude (Nat.pos_of_ne_zero hpos) hfinite
    obtain ⟨c, cs, htext, hc⟩ := beginsWithDigit_magnitude x
    rw [htext] at hencloses ⊢
    exact .numeral hfinite hc hencloses

theorem render_eq (x : Num) :
    plain.render x = if hasMinus x then '-' :: unsigned x else unsigned x := by
  simp only [render, hasMinus, unsigned]
  split
  · next hnan => simp [hnan]
  · next hnan =>
    split
    · next hinfinite => simp [hnan, Num.magnitude_ne_zero_of_isInfinite hinfinite]
    · split
      · next hzero => simp [hzero, plain]
      · next hpos => simp [hnan, hpos]

theorem unsigned_ne_minus (x : Num) (cs : List Char) : unsigned x ≠ '-' :: cs := by
  intro h
  have hstands := unsigned_stands x
  rw [h] at hstands
  cases hstands with
  | numeral _ hdigit _ => exact absurd hdigit (by decide)

/-- Numbers of one magnitude whose texts have the same sign are equal. -/
theorem eq_of_hasMinus_eq (hx : x.isNaN = false) (hy : y.isNaN = false) (hmagnitude : x.magnitude = y.magnitude)
    (hminus : hasMinus x = hasMinus y) : x.eq y = true := by
  have hscaled : x.scaled = y.scaled := by
    simp only [hasMinus, hx, hy, ← hmagnitude, Bool.not_false, Bool.true_and] at hminus
    by_cases hzero : x.magnitude = 0
    · simp [Num.scaled, ← hmagnitude, hzero]
    · have hpos : (x.magnitude != 0) = true := bne_iff_ne.2 hzero
      have hsign : x.isNegative = y.isNegative := by simpa [hpos] using hminus
      rw [Num.scaled, Num.scaled, hsign, hmagnitude]
  simp [Num.eq, hx, hy, hscaled]

/-- Texts without a sign tell magnitudes apart. -/
theorem magnitude_eq_of_unsigned_eq {cs : List Char} (hx : Unsigned x cs) (hy : Unsigned y cs) :
    x.isNaN = true ∧ y.isNaN = true ∨
      x.isNaN = false ∧ y.isNaN = false ∧ x.magnitude = y.magnitude := by
  cases hx with
  | nan hnan =>
    cases hy with
    | nan hnan' => exact .inl ⟨hnan, hnan'⟩
    | numeral _ hdigit _ => exact absurd hdigit (by decide)
  | infinity hinfinite =>
    cases hy with
    | infinity hinfinite' =>
      refine .inr ⟨Num.isNaN_of_isInfinite hinfinite, Num.isNaN_of_isInfinite hinfinite', ?_⟩
      obtain ⟨hsignificand, hscale⟩ := Num.significand_scale_of_isInfinite hinfinite
      obtain ⟨hsignificand', hscale'⟩ := Num.significand_scale_of_isInfinite hinfinite'
      rw [Num.magnitude, Num.magnitude, hsignificand, hscale, hsignificand', hscale']
    | numeral _ hdigit _ => exact absurd hdigit (by decide)
  | numeral hfinite hdigit hencloses =>
    cases hy with
    | nan _ => exact absurd hdigit (by decide)
    | infinity _ => exact absurd hdigit (by decide)
    | numeral hfinite' _ hencloses' =>
      exact .inr ⟨Num.isNaN_of_isFinite hfinite, Num.isNaN_of_isFinite hfinite',
        Num.magnitude_eq_of_encloses hencloses hencloses'⟩

theorem render_of_isNaN (h : x.isNaN = true) : plain.render x = "NaN".toList := by
  rw [render]
  simp [h]

theorem render_of_magnitude_eq_zero (h : x.magnitude = 0) : plain.render x = ['0'] := by
  have hfinite := Num.isFinite_of_magnitude_eq_zero h
  have hnan := Num.isNaN_of_isFinite hfinite
  have hinfinite : x.isInfinite = false :=
    Bool.eq_false_iff.2 fun hinfinite => Num.magnitude_ne_zero_of_isInfinite hinfinite h
  rw [render_eq, hasMinus, unsigned]
  simp [h, hnan, hinfinite, plain]

/-- **Two numbers have one text just if they are equal or both NaN.** -/
theorem render_eq_iff :
    plain.render x = plain.render y ↔ x.eq y = true ∨ x.isNaN = true ∧ y.isNaN = true := by
  constructor
  · intro h
    obtain ⟨hminus, hunsigned⟩ : hasMinus x = hasMinus y ∧ unsigned x = unsigned y := by
      rw [render_eq, render_eq] at h
      cases hx : hasMinus x <;> cases hy : hasMinus y <;> simp only [hx, hy, ↓reduceIte, Bool.false_eq_true] at h
      · exact ⟨rfl, h⟩
      · exact absurd h (unsigned_ne_minus x _)
      · exact absurd h.symm (unsigned_ne_minus y _)
      · exact ⟨rfl, (List.cons.inj h).2⟩
    have hstands := unsigned_stands y
    rw [← hunsigned] at hstands
    rcases magnitude_eq_of_unsigned_eq (unsigned_stands x) hstands with hnan | ⟨hx, hy, hmagnitude⟩
    · exact .inr hnan
    · exact .inl (eq_of_hasMinus_eq hx hy hmagnitude hminus)
  · rintro (heq | ⟨hx, hy⟩)
    · simp only [Num.eq, Bool.and_eq_true, beq_iff_eq] at heq
      rcases Num.eq_or_zero_of_scaled_eq heq.2 with rfl | ⟨hx, hy⟩
      · rfl
      · rw [render_of_magnitude_eq_zero hx, render_of_magnitude_eq_zero hy]
    · rw [render_of_isNaN hx, render_of_isNaN hy]

/-! ## Numbers beside other text -/

theorem isNumberChar_of_mem_render (x : Num) : ∀ c ∈ plain.render x, IsNumberChar c := by
  have hnan : "NaN".toList ⊆ "+-.eNaInfinity".toList := by decide
  have hinfinity : plain.infinity ⊆ "+-.eNaInfinity".toList := by decide
  have hunsigned : ∀ c ∈ unsigned x, IsNumberChar c := by
    rw [unsigned]
    split
    · exact fun c hc => .inr (hnan hc)
    split
    · exact fun c hc => .inr (hinfinity hc)
    split
    · intro c hc
      rw [List.mem_singleton.1 hc]
      exact .inl rfl
    · exact isNumberChar_of_mem_magnitude x
  intro c hc
  rw [render_eq] at hc
  split at hc
  · rcases List.mem_cons.1 hc with rfl | hc
    · exact .inr (by decide)
    · exact hunsigned c hc
  · exact hunsigned c hc

/-- The first character of a number's text. -/
theorem head_render (x : Num) :
    ∃ c cs, plain.render x = c :: cs ∧ (c.isDigit = true ∨ c ∈ ['-', 'N', 'I']) := by
  have hstands := unsigned_stands x
  rw [render_eq]
  split
  · exact ⟨'-', _, rfl, .inr (by decide)⟩
  · generalize unsigned x = cs at hstands
    cases hstands with
    | nan _ => exact ⟨'N', _, rfl, .inr (by decide)⟩
    | infinity _ => exact ⟨'I', _, rfl, .inr (by decide)⟩
    | numeral _ hdigit _ => exact ⟨_, _, rfl, .inl hdigit⟩

end ScriptValues.NumberFormat
