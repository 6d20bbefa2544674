/-
The integer that a text begins with. After white space there may be a sign, and then there must be digits
(`SignedDigits`); a text has such a beginning just if it is read as a number (`signedInteger_eq_none_iff`). However
many digits there are, the number is the one nearest to the integer that they denote.

White space at the ends of a text is of no account (`leadingInteger_trim`): what ends a run of digits may as well be
the end of the text.
-/
import Mathlib.Data.List.TakeWhile
import ScriptValues.Method.Str
import ScriptValues.Proofs.Number.Reading
import ScriptValues.Proofs.Number.Rounding

namespace ScriptValues

namespace Text

/-- The text begins with a sign or none, and then the longest run of digits, one at least. -/
def SignedDigits (minus : Bool) (digits cs : List Char) : Prop :=
  IsRun digits ∧ ∃ sign rest, cs = sign ++ digits ++ rest ∧
    (if minus then sign = ['-'] else sign = [] ∨ sign = ['+']) ∧ ∀ c ∈ rest.head?, c.isDigit = false

/-- The integer that a text begins with, after its white space. -/
def signedInteger : List Char → Option Num
  | '-' :: rest => ofDigits true rest
  | '+' :: rest => ofDigits false rest
  | rest => ofDigits false rest

variable {cs digits rest : List Char} {minus : Bool}

theorem leadingInteger_eq (cs : List Char) : leadingInteger cs = signedInteger (trimStart cs) := rfl

/-! ## Runs of digits -/

theorem takeWhile_append_of_head {α : Type} {p : α → Bool} {front back : List α}
    (hback : ∀ a ∈ back.head?, p a = false) : (front ++ back).takeWhile p = front.takeWhile p := by
  have hnil : back.takeWhile p = [] := by
    cases back with
    | nil => rfl
    | cons a back => exact List.takeWhile_cons_of_neg (Bool.eq_false_iff.1 (hback a rfl))
  rw [List.takeWhile_append, hnil, List.append_nil]
  split
  · next h => exact ((List.takeWhile_prefix p).eq_of_length h).symm
  · rfl

theorem ofDigits_append (hdigits : IsRun digits) (hrest : ∀ c ∈ rest.head?, c.isDigit = false) (negative : Bool) :
    ofDigits negative (digits ++ rest) = some (.ofDecimal negative (Nat.ofDigitChars 10 digits 0) 0) := by
  have hrun : (digits ++ rest).takeWhile Char.isDigit = digits := by
    rw [takeWhile_append_of_head hrest, List.takeWhile_eq_self_iff]
    exact hdigits.2
  have hempty : ¬ digits.isEmpty = true := by simpa using hdigits.1
  simp only [ofDigits, hrun]
  rw [if_neg hempty]
  rfl

theorem exists_run_of_ofDigits {negative : Bool} {x : Num} (h : ofDigits negative cs = some x) :
    ∃ digits rest, IsRun digits ∧ cs = digits ++ rest ∧ ∀ c ∈ rest.head?, c.isDigit = false := by
  simp only [ofDigits, Option.ite_none_left_eq_some] at h
  refine ⟨cs.takeWhile Char.isDigit, cs.dropWhile Char.isDigit, ⟨by simpa using h.1, fun c hc => ?_⟩,
    (List.takeWhile_append_dropWhile).symm, fun c hc => ?_⟩
  · exact List.mem_takeWhile_imp hc
  · have hfalse := List.head?_dropWhile_not Char.isDigit cs
    rw [Option.mem_def.1 hc] at hfalse
    simpa using hfalse

/-! ## Signs -/

theorem signedInteger_of_signedDigits (h : SignedDigits minus digits cs) :
    signedInteger cs = some (.ofDecimal minus (Nat.ofDigitChars 10 digits 0) 0) := by
  obtain ⟨hdigits, sign, rest, rfl, hsign, hrest⟩ := h
  have hread := ofDigits_append hdigits hrest
  cases minus with
  | true =>
    obtain rfl : sign = ['-'] := by simpa using hsign
    exact hread true
  | false =>
    obtain rfl | rfl : sign = [] ∨ sign = ['+'] := by simpa using hsign
    · rw [List.nil_append, ← hread false]
      -- A digit is no sign.
      obtain ⟨c, ds, rfl⟩ := List.exists_cons_of_ne_nil hdigits.1
      have hc := hdigits.2 c List.mem_cons_self
      rw [signedInteger.eq_def]
      split
      · next heq =>
        cases (List.cons.inj heq).1
        cases hc
      · next heq =>
        cases (List.cons.inj heq).1
        cases hc
      · rfl
    · exact hread false

theorem exists_signedDigits {x : Num} (h : signedInteger cs = some x) :
    ∃ minus digits, SignedDigits minus digits cs := by
  rw [signedInteger.eq_def] at h
  split at h <;> obtain ⟨digits, rest, hdigits, rfl, hrest⟩ := exists_run_of_ofDigits h
  · exact ⟨true, digits, hdigits, ['-'], rest, rfl, rfl, hrest⟩
  · exact ⟨false, digits, hdigits, ['+'], rest, rfl, .inr rfl, hrest⟩
  · exact ⟨false, digits, hdigits, [], rest, rfl, .inl rfl, hrest⟩

theorem signedInteger_eq_none_iff :
    signedInteger cs = none ↔ ¬ ∃ minus digits, SignedDigits minus digits cs := by
  constructor
  · rintro hnone ⟨minus, digits, h⟩
    rw [signedInteger_of_signedDigits h] at hnone
    cases hnone
  · intro hno
    rw [Option.eq_none_iff_forall_ne_some]
    exact fun x h => hno (exists_signedDigits h)

/-! ## White space at the ends -/

theorem isDigit_of_isSpace {c : Char} (h : isSpace c = true) : c.isDigit = false := by
  have hdigit : ∀ n < 58, 48 ≤ n → inRanges n spaces = false := by decide
  rw [Bool.eq_false_iff]
  intro hc
  rw [Char.isDigit, Bool.and_eq_true, decide_eq_true_iff, decide_eq_true_iff] at hc
  have hlow : 48 ≤ c.toNat := hc.1
  have hhigh : c.toNat ≤ 57 := hc.2
  rw [isSpace, hdigit _ (by omega) hlow] at h
  cases h

theorem trimStart_eq_append (cs : List Char) :
    ∃ tail, trimStart cs = trim cs ++ tail ∧ ∀ c ∈ tail, isSpace c = true := by
  refine ⟨((trimStart cs).reverse.takeWhile isSpace).reverse, ?_, fun c hc => ?_⟩
  · rw [trim, trimStart, ← List.reverse_append, trimStart, List.takeWhile_append_dropWhile, List.reverse_reverse]
  · exact List.mem_takeWhile_imp (List.mem_reverse.1 hc)

theorem signedInteger_append (hne : cs ≠ []) (hrest : ∀ c ∈ rest.head?, c.isDigit = false) :
    signedInteger (cs ++ rest) = signedInteger cs := by
  have hrun : ∀ negative cs, ofDigits negative (cs ++ rest) = ofDigits negative cs := by
    intro negative cs
    rw [ofDigits, ofDigits, takeWhile_append_of_head hrest]
  obtain ⟨c, cs, rfl⟩ := List.exists_cons_of_ne_nil hne
  rw [List.cons_append, signedInteger.eq_def, signedInteger.eq_def]
  split
  · next heq =>
    obtain ⟨rfl, rfl⟩ := List.cons.inj heq
    exact hrun true cs
  · next heq =>
    obtain ⟨rfl, rfl⟩ := List.cons.inj heq
    exact hrun false cs
  · next hminus hplus =>
    split
    · next heq =>
      cases (List.cons.inj heq).1
      exact absurd rfl (hminus _)
    · next heq =>
      cases (List.cons.inj heq).1
      exact absurd rfl (hplus _)
    · exact hrun false (c :: cs)

/-- **White space at the ends of a text does not change its number.** -/
theorem leadingInteger_trim (cs : List Char) : leadingInteger (trim cs) = leadingInteger cs := by
  obtain ⟨tail, hsplit, htail⟩ := trimStart_eq_append cs
  have hhead : ∀ c ∈ (trim cs ++ tail).head?, isSpace c = false := by
    intro c hc
    have hnot := List.head?_dropWhile_not isSpace cs
    rw [← hsplit, trimStart] at hc
    rw [Option.mem_def.1 hc] at hnot
    simpa using hnot
  rw [leadingInteger_eq, leadingInteger_eq, hsplit]
  generalize trim cs = core at *
  cases core with
  | nil =>
    cases tail with
    | nil => rfl
    | cons c tail => exact absurd (htail c List.mem_cons_self) (Bool.eq_false_iff.1 (hhead c rfl))
  | cons c core =>
    have hstart : trimStart (c :: core) = c :: core :=
      List.dropWhile_cons_of_neg (Bool.eq_false_iff.1 (hhead c rfl))
    have hend : ∀ c ∈ tail.head?, c.isDigit = false := fun c hc =>
      isDigit_of_isSpace (htail c (List.mem_of_mem_head? hc))
    rw [hstart, signedInteger_append (List.cons_ne_nil c core) hend]

end Text

/-! ## The number -/

namespace Num

theorem ofDecimal_zero (negative : Bool) (c : Nat) : ofDecimal negative c 0 = ofRatio negative (c * one) 1 := by
  simp [ofDecimal]

theorem ofRatio_isNegative (negative : Bool) (n : Nat) {d : Nat} (hd : 0 < d) :
    (ofRatio negative n d).isNegative = negative := by
  rcases ofRatio_spec negative n hd with ⟨m, p, hvalid, hmake, -⟩ | ⟨hinfinity, -⟩
  · rw [hmake, make_isNegative hvalid]
  · rw [hinfinity, infinity_isNegative]

theorem ofDecimal_isNegative (negative : Bool) (c : Nat) : (ofDecimal negative c 0).isNegative = negative := by
  rw [ofDecimal_zero, ofRatio_isNegative _ _ Nat.one_pos]

theorem ofDecimal_true (c : Nat) : ofDecimal true c 0 = (ofDecimal false c 0).neg := by
  rw [ofDecimal_zero, ofDecimal_zero, ofRatio_true _ Nat.one_pos]

theorem ofDecimal_false_isNearest (c : Nat) : (ofDecimal false c 0).IsNearest c := by
  have hnearest := ofDecimal_isNearest false c 0
  rwa [zpow_zero, mul_one, signed, if_neg Bool.false_ne_true] at hnearest

/-- A natural number is rounded to the nearest number, and its negative to the negative of that. -/
theorem exists_ofDecimal_eq (n : Nat) : ∃ x : Num, x.isNegative = false ∧ x.IsNearest n ∧
    ∀ minus, ofDecimal minus n 0 = if minus then x.neg else x := by
  refine ⟨ofDecimal false n 0, ofDecimal_isNegative false n, ofDecimal_false_isNearest n, fun minus => ?_⟩
  cases minus with
  | true => rw [if_pos rfl, ofDecimal_true]
  | false => rw [if_neg Bool.false_ne_true]

end Num

/-- **A text is read as the number nearest to the signed integer that it begins with after its white space**, and as
null if it begins with none; white space at its ends does not matter. -/
theorem toNum_reads_integer (s : String) (args : List Value) :
    (∀ minus digits, Text.SignedDigits minus digits (s.toList.dropWhile Text.isSpace) →
      ∃ x : Num, x.isNegative = false ∧ x.IsNearest (Nat.ofDigitChars 10 digits 0) ∧
        StrMethod.answer s .toNum args = .ok (.value (.num (if minus then x.neg else x)))) ∧
    ((¬ ∃ minus digits, Text.SignedDigits minus digits (s.toList.dropWhile Text.isSpace)) →
      StrMethod.answer s .toNum args = .ok (.value .null)) ∧
    ∃ trimmed, StrMethod.answer s .trim args = .ok (.value (.str trimmed)) ∧
      StrMethod.answer trimmed .toNum args = StrMethod.answer s .toNum args := by
  refine ⟨fun minus digits h => ?_, fun h => ?_, String.ofList (Text.trim s.toList), rfl, ?_⟩
  · obtain ⟨x, hpositive, hnearest, hread⟩ := Num.exists_ofDecimal_eq (Nat.ofDigitChars 10 digits 0)
    refine ⟨x, hpositive, hnearest, ?_⟩
    rw [StrMethod.answer, Text.leadingInteger_eq, Text.trimStart, Text.signedInteger_of_signedDigits h, hread]
    rfl
  · rw [StrMethod.answer, Text.leadingInteger_eq, Text.trimStart, Text.signedInteger_eq_none_iff.2 h]
    rfl
  · rw [StrMethod.answer, StrMethod.answer, String.toList_ofList, Text.leadingInteger_trim]

end ScriptValues
