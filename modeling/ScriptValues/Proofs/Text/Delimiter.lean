/-
Texts that end where a character stands that is not in them. Such a text is told apart from what follows it,
from that character on (`takeWhile_bne_append`, `append_inj_of_delimited`).
-/
import Mathlib.Data.List.TakeWhile

namespace ScriptValues.Text

theorem bne_of_not_mem {c : Char} {cs : List Char} (h : c ∉ cs) : ∀ d ∈ cs, (d != c) = true := by
  intro d hd
  rw [bne_iff_ne]
  rintro rfl
  exact h hd

theorem takeWhile_bne_append {c : Char} {front : List Char} (h : c ∉ front) (back : List Char) :
    (front ++ c :: back).takeWhile (· != c) = front := by
  rw [List.takeWhile_append_of_pos (bne_of_not_mem h)]
  simp

theorem dropWhile_bne_append {c : Char} {front : List Char} (h : c ∉ front) (back : List Char) :
    (front ++ c :: back).dropWhile (· != c) = c :: back := by
  rw [List.dropWhile_append_of_pos (bne_of_not_mem h)]
  simp

theorem takeWhile_bne_eq {c : Char} {cs : List Char} (h : c ∉ cs) : cs.takeWhile (· != c) = cs :=
  List.takeWhile_eq_self_iff.2 (bne_of_not_mem h)

theorem dropWhile_bne_eq {c : Char} {cs : List Char} (h : c ∉ cs) : cs.dropWhile (· != c) = [] :=
  List.dropWhile_eq_nil_iff.2 (bne_of_not_mem h)

/-- What follows begins with one of the characters, if it is not empty. -/
def BeginsWith (delimiters cs : List Char) : Prop := ∀ c ∈ cs.head?, c ∈ delimiters

/-- Texts without delimiters are told apart from what follows. -/
theorem append_inj_of_delimited {delimiters cs ds rest rest' : List Char} (hcs : ∀ c ∈ cs, c ∉ delimiters)
    (hds : ∀ c ∈ ds, c ∉ delimiters) (hrest : BeginsWith delimiters rest)
    (hrest' : BeginsWith delimiters rest') (h : cs ++ rest = ds ++ rest') : cs = ds ∧ rest = rest' := by
  have htake : ∀ {cs rest : List Char}, (∀ c ∈ cs, c ∉ delimiters) → BeginsWith delimiters rest →
      (cs ++ rest).takeWhile (· ∉ delimiters) = cs := by
    intro cs rest hcs hrest
    rw [List.takeWhile_append_of_pos fun c hc => decide_eq_true (hcs c hc)]
    cases rest with
    | nil => simp
    | cons c rest => simp [hrest c rfl]
  have hsame : cs = ds := by rw [← htake hcs hrest, h, htake hds hrest']
  exact ⟨hsame, List.append_cancel_left (hsame ▸ h)⟩

end ScriptValues.Text
