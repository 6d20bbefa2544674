/-
Replacing as splitting and joining. The scan that replaces goes the way of the one that splits, and the new text
stands between the pieces (`replaceFrom_eq`), so what the new text brings with it is never searched again.

To a script there is no difference (`replace_eq_join`): every place of a text is replaced just if the pieces between
them are joined with the new text, and an empty text is replaced between the characters.
-/
import ScriptValues.Proofs.Text.Split

namespace ScriptValues

namespace Text

section

variable {α : Type}

theorem intercalate_cons_append (new front piece : List α) (after : List (List α)) :
    new.intercalate ((front ++ piece) :: after) = front ++ new.intercalate (piece :: after) := by
  cases after with
  | nil => rw [List.intercalate_singleton, List.intercalate_singleton]
  | cons next after => simp only [List.intercalate_cons_cons, List.append_assoc]

theorem insertBetween_eq (new cs : List α) : insertBetween new cs = new.intercalate (cs.map ([·])) := by
  induction cs with
  | nil => rfl
  | cons c cs ih =>
    cases cs with
    | nil => exact List.intercalate_singleton.symm
    | cons d cs =>
      have hstep : insertBetween new (c :: d :: cs) = c :: (new ++ insertBetween new (d :: cs)) := rfl
      rw [hstep, ih]
      simp

/-- **The new text stands between the pieces.** -/
theorem replaceFrom_eq [BEq α] (old new : List α) (skip : Nat) (cs : List α) :
    replaceFrom old new skip cs =
      new.intercalate ((piecesFrom old skip cs).1 :: (piecesFrom old skip cs).2) := by
  induction cs generalizing skip with
  | nil => cases skip <;> exact List.intercalate_singleton.symm
  | cons c cs ih =>
    cases skip with
    | succ skip => exact ih skip
    | zero =>
      simp only [replaceFrom, piecesFrom]
      split
      · rw [List.intercalate_cons_cons, List.nil_append, ih]
      · rw [ih]
        exact (intercalate_cons_append new [c] _ _).symm

theorem replace_eq [BEq α] {old : List α} (hold : old ≠ []) (new cs : List α) :
    replace old new cs = new.intercalate (pieces old cs) := by
  have hempty : ¬ old.isEmpty = true := by simpa using hold
  rw [replace, if_neg hempty, replaceFrom_eq]
  rfl

end

end Text

theorem StrMethod.answer_replace (s a b : String) :
    StrMethod.answer s .replace [.str a, .str b] =
      .ok (.value (.str (.ofList (Text.replace a.toList b.toList s.toList)))) := rfl

/-- **To replace is to split and to join.** An empty text is replaced between the characters. So nothing changes if a
text is replaced by itself, or if it is not there. -/
theorem replace_eq_join (s a b : String) :
    ∃ t, StrMethod.answer s .replace [.str a, .str b] = .ok (.value (.str t)) ∧
      (if a = "" then JoinsTo s .toUnicodeArr [] b t else JoinsTo s .split [.str a] b t) ∧
      (a = b → t = s) ∧
      (a ≠ "" → StrMethod.answer s .incl [.str a] = .ok (.value (.bool false)) → t = s) := by
  refine ⟨_, StrMethod.answer_replace s a b, ?_, ?_, ?_⟩
  · split
    · next ha =>
      have hreplace : Text.replace a.toList b.toList s.toList = b.toList.intercalate (s.toList.map ([·])) := by
        rw [ha, ← Text.insertBetween_eq]
        rfl
      rw [hreplace]
      exact joinsTo_of_texts rfl b
    · next ha =>
      rw [Text.replace_eq (by simpa using ha)]
      exact joinsTo_of_texts (StrMethod.answer_split s ha) b
  · rintro rfl
    by_cases ha : a = ""
    · subst ha
      have hreplace : Text.replace "".toList "".toList s.toList = s.toList := by
        change Text.insertBetween [] s.toList = s.toList
        rw [Text.insertBetween_eq, Text.intercalate_empty, ← List.flatMap_def, List.flatMap_singleton']
      rw [hreplace, String.ofList_toList]
    · have hold : a.toList ≠ [] := by simpa using ha
      rw [Text.replace_eq hold, Text.intercalate_pieces hold, String.ofList_toList]
  · intro ha hincl
    have hnot : ¬ a.toList <:+: s.toList := by
      rw [StrMethod.answer_incl] at hincl
      rw [← Text.occurs_iff]
      simpa using hincl
    rw [Text.replace_eq (by simpa using ha), Text.pieces_of_not_infix hnot, List.intercalate_singleton,
      String.ofList_toList]

end ScriptValues
