/-
Where a script finds one text in another. A search begins at a position that any number may give: one that is not
whole, counts from the end, is far outside or is no number at all (`searchFrom`). From there on it finds the first
place where the clusters of the text stand (`indexOf_least_match`), and what is cut out there is that text.
-/
import ScriptValues.Proofs.Number.Position
import ScriptValues.Proofs.Text.Containment
import ScriptValues.Proofs.Text.Slice

namespace ScriptValues

/-! ## The start of a search -/

/-- Where a search is told to begin: at the start if nothing is said, at the integer part of a number, or if that is
negative so far before the end. -/
def searchFrom (length : Nat) : Option Num → ℕ∞
  | none => 0
  | some x =>
    if x.isNaN then 0
    else if x.isInfinite then if x.isNegative then 0 else ⊤
    else if 0 ≤ x.whole then x.whole.toNat else (length + x.whole).toNat

section

variable {length : Nat}

/-- A search begins where its number says, unless both are past the end. -/
theorem min_searchStart (hlength : length < 2 ^ 63 - 1) (x : Num) :
    min (searchStart length x) length =
      min (if 0 ≤ x.truncate then x.truncate.toNat else (length + x.truncate).toNat) length := by
  have hindex : x.toIndex = max (-2 ^ 63) (min (2 ^ 63 - 1) x.truncate) := rfl
  unfold searchStart
  rcases lt_or_ge x.truncate 0 with hneg | hnonneg
  · rw [if_pos (by omega), if_neg (by omega)]
    omega
  · rw [if_neg (by omega), if_pos hnonneg]
    omega

theorem min_searchFrom (hlength : length < 2 ^ 63 - 1) (x : Num) :
    min (searchFrom length (some x)) length = (min (searchStart length x) length : Nat) := by
  rw [min_searchStart hlength, searchFrom]
  split
  · next hnan => simp [Num.truncate, hnan]
  split
  · next hinfinite =>
    have hpart := Num.truncate_of_isInfinite hinfinite
    split at hpart
    · next hnegative =>
      have hstart : (if 0 ≤ x.truncate then x.truncate.toNat else (length + x.truncate).toNat) = 0 := by
        split <;> omega
      rw [if_pos hnegative, hstart]
      simp
    · next hpositive =>
      have hstart : min (if 0 ≤ x.truncate then x.truncate.toNat else (length + x.truncate).toNat) length =
          length := by
        split <;> omega
      rw [if_neg hpositive, hstart, top_inf_eq]
  · next hnan hinfinite =>
    have hfinite := x.isFinite_or.resolve_left hnan |>.resolve_left hinfinite
    rw [Num.truncate_of_isFinite hfinite, Nat.mono_cast.map_min]
    split <;> rfl

theorem min_searchFrom_elim (hlength : length < 2 ^ 63 - 1) (from? : Option Num) :
    min (searchFrom length from?) length = (min (from?.elim 0 (searchStart length)) length : Nat) := by
  cases from? with
  | none => simp [searchFrom]
  | some x => exact min_searchFrom hlength x

/-- Of the positions in a text, those are searched that are not before the start. -/
theorem searchFrom_le_iff (hlength : length < 2 ^ 63 - 1) {from? : Option Num} {i : Nat} (hi : i < length) :
    searchFrom length from? ≤ i ↔ from?.elim 0 (searchStart length) ≤ i := by
  have hin : ¬ (length : ℕ∞) ≤ i := by exact_mod_cast Nat.not_le_of_lt hi
  have hcut : min (searchFrom length from?) length ≤ i ↔ searchFrom length from? ≤ i := by
    rw [min_le_iff, or_iff_left hin]
  rw [← hcut, min_searchFrom_elim hlength, Nat.cast_le, min_le_iff, or_iff_left (Nat.not_le_of_lt hi)]

end

/-! ## What is found -/

namespace Text

variable {cs needle : List Char} {i : Nat}

/-- What stands at a position is cut out there. -/
theorem StandsAt.slice_eq (h : StandsAt (clusters needle) (clusters cs) i) :
    slice cs i (i + (clusters needle).length) = needle := by
  rw [Text.slice_eq, h, flatten_clusters]

theorem slice_infix (cs : List Char) (start stop : Nat) : slice cs start stop <:+: cs := by
  obtain ⟨before, after, hparts⟩ : ((clusters cs).take stop).drop start <:+: clusters cs :=
    (List.drop_suffix _ _).isInfix.trans (List.take_prefix _ _).isInfix
  refine ⟨before.flatten, after.flatten, ?_⟩
  rw [slice_eq, ← List.flatten_append, ← List.flatten_append, hparts, flatten_clusters]

end Text

theorem StrMethod.answer_indexOf_from (s t : String) (from? : Option Num) :
    StrMethod.answer s .indexOf (.str t :: (from?.map Value.num).toList) =
      .ok (.value (.num ((Text.indexOf s.toList t.toList
        (from?.elim 0 (searchStart (Text.clusters s.toList).length))).elim (.ofInt (-1)) .ofNat))) := by
  rw [← Text.length_eq]
  cases from? <;> rfl

theorem StrMethod.answer_slice_of_is {s : String} {b e : Num} {i j : Nat} (hb : b.Is i) (he : e.Is j)
    (hi : i < 2 ^ 63) (hj : j < 2 ^ 63) :
    StrMethod.answer s .slice [.num b, .num e] = .ok (.value (.str (.ofList (Text.slice s.toList i j)))) := by
  rw [answer_slice, Num.clampIndex_of_is hb hi, Num.clampIndex_of_is he hj]

/-- To a script `t` is found in `s` at a position, by a search from a number on. -/
structure IsFoundAt (s t : String) (from? : Option Num) (parts pin : List (List Char)) (i : Nat) : Prop where
  first : if t = "" then (i : ℕ∞) = min (searchFrom parts.length from?) parts.length
    else IsLeast {i : ℕ | searchFrom parts.length from? ≤ i ∧ Text.StandsAt pin parts i} i
  slice : ∀ b e : Num, b.Is i → e.Is (i + pin.length) →
    StrMethod.answer s .slice [.num b, .num e] = .ok (.value (.str t))
  incl : StrMethod.answer s .incl [.str t] = .ok (.value (.bool true))

/-- All else that is said of the position that is found is so because the text stands there. -/
theorem isFoundAt_of_standsAt {s t : String} {from? : Option Num} {i : Nat}
    (hs : (Text.clusters s.toList).length < 2 ^ 53)
    (hstands : Text.StandsAt (Text.clusters t.toList) (Text.clusters s.toList) i)
    (hroom : i + (Text.clusters t.toList).length ≤ (Text.clusters s.toList).length)
    (hfirst : if t = "" then (i : ℕ∞) = min (searchFrom (Text.clusters s.toList).length from?)
        (Text.clusters s.toList).length
      else IsLeast {i : ℕ | searchFrom (Text.clusters s.toList).length from? ≤ i ∧
        Text.StandsAt (Text.clusters t.toList) (Text.clusters s.toList) i} i) :
    IsFoundAt s t from? (Text.clusters s.toList) (Text.clusters t.toList) i := by
  have hslice := hstands.slice_eq
  refine ⟨hfirst, fun b e hb he => ?_, ?_⟩
  · rw [StrMethod.answer_slice_of_is hb he (by omega) (by omega), hslice, String.ofList_toList]
  · rw [StrMethod.answer_incl, Text.occurs_iff.2 (hslice ▸ Text.slice_infix ..)]

/-- **A search finds the first place where the clusters of a text stand**, and answers -1 if there is none; an empty
text is found where the search begins. No step of it is refused, whatever is looked for and from where. -/
theorem indexOf_least_match (s t : String) (from? : Option Num) (hs : Text.length s.toList < 2 ^ 53) :
    ∃ parts pin found n, Text.IsClustering s.toList parts ∧ Text.IsClustering t.toList pin ∧
      (Text.Indexed.ofChars s.toList).indexOf (.ofChars t.toList)
        (from?.elim 0 (searchStart (Text.length s.toList))) = .ok found ∧
      StrMethod.answer s .indexOf (.str t :: (from?.map Value.num).toList) = .ok (.value (.num n)) ∧
      match found with
      | some i => n.Is i ∧ IsFoundAt s t from? parts pin i
      | none => (n.isFinite = true ∧ n.value = -1) ∧ t ≠ "" ∧
        ∀ i : ℕ, searchFrom parts.length from? ≤ i → ¬ Text.StandsAt pin parts i := by
  rw [Text.length_eq] at hs ⊢
  let start := from?.elim 0 (searchStart (Text.clusters s.toList).length)
  have hfar : (Text.clusters s.toList).length < 2 ^ 63 - 1 := by omega
  refine ⟨_, _, Text.indexOf s.toList t.toList start, _, Text.clusters_isClustering _, Text.clusters_isClustering _,
    Text.indexed_indexOf .., StrMethod.answer_indexOf_from s t from?, ?_⟩
  by_cases ht : t = ""
  · subst ht
    rw [String.toList_empty, Text.indexOf_nil, Option.elim_some]
    have hin : min start (Text.clusters s.toList).length ≤ (Text.clusters s.toList).length := Nat.min_le_right _ _
    refine ⟨Num.ofNat_is (by omega), isFoundAt_of_standsAt hs Text.standsAt_nil hin ?_⟩
    rw [if_pos rfl]
    exact (min_searchFrom_elim hfar from?).symm
  · have hneedle : t.toList ≠ [] := by simpa using ht
    have hpin : Text.clusters t.toList ≠ [] := mt Text.clusters_eq_nil_iff.1 hneedle
    have hpos : 0 < (Text.clusters t.toList).length := List.length_pos_iff.2 hpin
    -- What stands somewhere begins within the text, and there it does not matter how far outside a start is.
    have hsearched : ∀ i, Text.StandsAt (Text.clusters t.toList) (Text.clusters s.toList) i →
        (searchFrom (Text.clusters s.toList).length from? ≤ i ↔ start ≤ i) := by
      intro i hstands
      have hroom := hstands.le hpin
      exact searchFrom_le_iff hfar (Nat.lt_of_lt_of_le (Nat.lt_add_of_pos_right hpos) hroom)
    rcases Text.indexOf_spec s.toList start hneedle with ⟨i, hindex, hleast⟩ | ⟨hindex, hnone⟩
    · rw [hindex, Option.elim_some]
      have hroom := hleast.1.2.le hpin
      have hlt : i < (Text.clusters s.toList).length := Nat.lt_of_lt_of_le (Nat.lt_add_of_pos_right hpos) hroom
      refine ⟨Num.ofNat_is (by omega), isFoundAt_of_standsAt hs hleast.1.2 hroom ?_⟩
      have hsame : {i : ℕ | searchFrom (Text.clusters s.toList).length from? ≤ i ∧
          Text.StandsAt (Text.clusters t.toList) (Text.clusters s.toList) i} = {i | start ≤ i ∧ _} :=
        Set.ext fun i => and_congr_left (hsearched i)
      rw [if_neg ht]
      exact hsame ▸ hleast
    · rw [hindex, Option.elim_none]
      exact ⟨⟨Num.ofInt_neg_one.1, Num.value_ofInt_neg_one⟩, ht, fun i hi hstands =>
        hnone i ((hsearched i hstands).1 hi) hstands⟩

/-- Searched for from the third cluster before the end on, the second of two flags that are alike is found. -/
theorem indexOf_finds_later_flag :
    let s := "x🇩🇪🇫🇷🇩🇪y"
    let t := "🇩🇪"
    let last := Num.ofInt (-3)
    Text.length s.toList < 2 ^ 53 ∧
      ∃ parts pin n, StrMethod.answer s .indexOf [.str t, .num last] = .ok (.value (.num n)) ∧ n.Is 3 ∧
        IsFoundAt s t (some last) parts pin 3 := by
  intro s t last
  have hlength : Text.length s.toList = 5 := by decide +kernel
  have hlt : Text.length s.toList < 2 ^ 53 := by
    rw [hlength]
    decide
  have hsearch : (Text.Indexed.ofChars s.toList).indexOf (.ofChars t.toList)
      (searchStart (Text.length s.toList) last) = .ok (some 3) := by decide +kernel
  obtain ⟨parts, pin, found, n, -, -, hsteps, hanswer, hfound⟩ := indexOf_least_match s t (some last) hlt
  cases hsearch.symm.trans hsteps
  exact ⟨hlt, parts, pin, n, hanswer, hfound⟩

end ScriptValues
