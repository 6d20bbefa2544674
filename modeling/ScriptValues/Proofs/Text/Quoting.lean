/-
Quoted text reads back. A character inside quotes is shown in a form of its own, and no form begins as another
does or as the closing quote: `unquoteChar` takes the first character off again, whatever follows
(`unquoteChar_quoteChar`). So a quoted text tells what was quoted and where it ends (`quote_append_inj`).
-/
import ScriptValues.Proofs.Text.Delimiter
import ScriptValues.Text.Quoted

namespace ScriptValues.Text

/-! ## Hexadecimal digits -/

/-- The number that a hexadecimal digit is. -/
def hexDigitValue (c : Char) : Nat := if c.isDigit then c.toNat - '0'.toNat else c.toNat - 'a'.toNat + 10

/-- The number that hexadecimal digits denote. -/
def hexValue (cs : List Char) : Nat := cs.foldl (fun n c => 16 * n + hexDigitValue c) 0

theorem hexDigitValue_digitChar : ∀ n < 16, hexDigitValue n.digitChar = n := by decide

theorem hexValue_toDigits (n : Nat) : hexValue (Nat.toDigits 16 n) = n := by
  induction n using Nat.strong_induction_on with
  | _ n ih =>
    rw [Nat.toDigits_eq_if (by decide)]
    split
    · next hsmall => simp [hexValue, hexDigitValue_digitChar n hsmall]
    · have hfront : hexValue (Nat.toDigits 16 (n / 16)) = n / 16 := ih _ (by omega)
      have hlast := hexDigitValue_digitChar (n % 16) (Nat.mod_lt _ (by decide))
      rw [hexValue] at hfront
      rw [hexValue, List.foldl_append, hfront, List.foldl_cons, hlast, List.foldl_nil]
      omega

theorem brace_not_mem_toDigits (n : Nat) : '\x7d' ∉ Nat.toDigits 16 n := by
  induction n using Nat.strong_induction_on with
  | _ n ih =>
    have hdigit : ∀ k < 16, '\x7d' ≠ k.digitChar := by decide
    rw [Nat.toDigits_eq_if (by decide)]
    split
    · next hsmall => simp [hdigit n hsmall]
    · rw [List.mem_append, List.mem_singleton, not_or]
      exact ⟨ih _ (by omega), hdigit _ (Nat.mod_lt _ (by decide))⟩

/-! ## Characters -/

/-- The first character of a text inside quotes, and what follows; none at the closing quote. -/
def unquoteChar : List Char → Option (Char × List Char)
  | '\\' :: 'u' :: '\x7b' :: cs =>
    some (.ofNat (hexValue (cs.takeWhile (· != '\x7d'))), (cs.dropWhile (· != '\x7d')).tail)
  | '\\' :: '0' :: cs => some ('\x00', cs)
  | '\\' :: 't' :: cs => some ('\t', cs)
  | '\\' :: 'r' :: cs => some ('\r', cs)
  | '\\' :: 'n' :: cs => some ('\n', cs)
  | '\\' :: c :: cs => some (c, cs)
  | '"' :: _ => none
  | c :: cs => some (c, cs)
  | [] => none

theorem unquoteChar_quoteChar (c : Char) (rest : List Char) :
    unquoteChar (quoteChar c ++ rest) = some (c, rest) := by
  rw [quoteChar]
  split
  · next h => simp [h, unquoteChar]
  split
  · next h => simp [h, unquoteChar]
  split
  · next h => simp [h, unquoteChar]
  split
  · next h => simp [h, unquoteChar]
  split
  · next h => simp [h, unquoteChar]
  split
  · next h => simp [h, unquoteChar]
  split
  · have hbrace := brace_not_mem_toDigits c.toNat
    simp [unquoteChar, takeWhile_bne_append hbrace, dropWhile_bne_append hbrace, hexValue_toDigits]
  · next hquote hbackslash _ =>
    rw [List.singleton_append, unquoteChar.eq_def]
    split <;> simp_all

/-- Quoted text tells what was quoted and where it ends. -/
theorem quote_append_inj {cs ds rest rest' : List Char} (h : quote cs ++ rest = quote ds ++ rest') :
    cs = ds ∧ rest = rest' := by
  simp only [quote, List.cons_append, List.append_assoc, List.nil_append, List.cons.injEq, true_and] at h
  have hclosed : ∀ cs : List Char, unquoteChar ('"' :: cs) = none := fun _ => rfl
  have hread : ∀ (c : Char) (cs rest : List Char),
      unquoteChar ((c :: cs).flatMap quoteChar ++ rest) = some (c, cs.flatMap quoteChar ++ rest) := by
    intro c cs rest
    rw [List.flatMap_cons, List.append_assoc, unquoteChar_quoteChar]
  induction cs generalizing ds with
  | nil =>
    cases ds with
    | nil => simpa using h
    | cons d ds =>
      have hnone := hclosed rest
      rw [List.flatMap_nil, List.nil_append] at h
      rw [h, hread] at hnone
      exact absurd hnone (by simp)
  | cons c cs ih =>
    cases ds with
    | nil =>
      have hnone := hclosed rest'
      rw [List.flatMap_nil, List.nil_append] at h
      rw [← h, hread] at hnone
      exact absurd hnone (by simp)
    | cons d ds =>
      have hboth := congrArg unquoteChar h
      rw [hread, hread, Option.some.injEq, Prod.mk.injEq] at hboth
      obtain ⟨rfl, hrest⟩ := hboth
      obtain ⟨rfl, hsame⟩ := ih hrest
      exact ⟨rfl, hsame⟩

end ScriptValues.Text
