/-
Slices of a text. What is cut out of a text at its own cluster boundaries has the clusters that it had there
(`clusters_flatten_take`, `clusters_flatten_drop`), although the rules look back without bound. So a script
may count, cut and search in clusters without noticing where a text came from (`slice_keeps_clusters`).
-/
import ScriptValues.Method.Str
import ScriptValues.Property
import ScriptValues.Proofs.Number.Exact
import ScriptValues.Proofs.Text.BreakRules
import ScriptValues.Proofs.Text.Search

namespace ScriptValues

namespace Text

/-! ## Cutting -/

theorem clustersFrom_append_take (x : Context) (cs : List Char) (k : Nat) :
    clustersFrom x ((clustersFrom x cs).1 ++ ((clustersFrom x cs).2.take k).flatten) =
      ((clustersFrom x cs).1, (clustersFrom x cs).2.take k) := by
  induction cs generalizing x k with
  | nil => simp [clustersFrom]
  | cons c cs ih =>
    cases hc : x.continues (breakClass c) with
    | true =>
      rw [clustersFrom_of_continues hc, List.cons_append, clustersFrom_of_continues hc, ih]
    | false =>
      rw [clustersFrom_of_not_continues hc]
      cases k with
      | zero => rfl
      | succ k =>
        rw [List.take_succ_cons, List.flatten_cons, List.nil_append, List.cons_append,
          clustersFrom_of_not_continues hc, ih]

/-- The clusters of the first clusters of a text. -/
theorem clusters_flatten_take (cs : List Char) (k : Nat) :
    clusters ((clusters cs).take k).flatten = (clusters cs).take k := by
  cases cs with
  | nil => simp [clusters]
  | cons c cs =>
    cases k with
    | zero => rfl
    | succ k =>
      rw [clusters_cons, List.take_succ_cons, List.flatten_cons, List.cons_append, clusters_cons,
        clustersFrom_append_take]

theorem clusters_flatten_after (x : Context) (cs : List Char) :
    clusters (clustersFrom x cs).2.flatten = (clustersFrom x cs).2 := by
  induction cs generalizing x with
  | nil => rfl
  | cons c cs ih =>
    cases hc : x.continues (breakClass c) with
    | true => rw [clustersFrom_of_continues hc, ih]
    | false =>
      rw [clustersFrom_of_not_continues hc, List.flatten_cons, List.cons_append, clustersFrom_append,
        clusters_cons]

/-- The clusters of what follows the first clusters of a text. -/
theorem clusters_flatten_drop (cs : List Char) (k : Nat) :
    clusters ((clusters cs).drop k).flatten = (clusters cs).drop k := by
  induction k generalizing cs with
  | zero => rw [List.drop_zero, flatten_clusters]
  | succ k ih =>
    cases cs with
    | nil => simp [clusters]
    | cons c cs =>
      rw [clusters_cons, List.drop_succ_cons]
      have hrest := ih (clustersFrom (.start (breakClass c)) cs).2.flatten
      rwa [clusters_flatten_after] at hrest

/-- **A slice has the clusters that it had in its text.** -/
theorem clusters_slice (cs : List Char) (start stop : Nat) :
    clusters (slice cs start stop) = ((clusters cs).take stop).drop start := by
  have htake := clusters_flatten_take cs stop
  have hdrop := clusters_flatten_drop ((clusters cs).take stop).flatten start
  rwa [htake, ← slice_eq] at hdrop

variable {cs : List Char} {b e : Nat}

theorem length_slice (he : e ≤ length cs) : length (slice cs b e) = e - b := by
  rw [length_eq] at he
  rw [length_eq, clusters_slice, List.length_drop, List.length_take]
  omega

/-- A slice of a slice. -/
theorem slice_slice {b' e' : Nat} (hb : b ≤ e) (he : e' ≤ e - b) :
    slice (slice cs b e) b' e' = slice cs (b + b') (b + e') := by
  have hcut : ((((clusters cs).take e).drop b).take e').drop b' =
      ((clusters cs).take (b + e')).drop (b + b') := by
    rw [List.take_drop, List.take_take, List.drop_drop, Nat.min_eq_left]
    omega
  rw [slice_eq, clusters_slice, hcut, slice_eq]

theorem standsAt_slice (hb : b ≤ e) (he : e ≤ length cs) : StandsAt (clusters (slice cs b e)) (clusters cs) b := by
  have hlength : (clusters (slice cs b e)).length = e - b := (length_eq _).symm.trans (length_slice he)
  rw [StandsAt, hlength, Nat.add_sub_cancel' hb, clusters_slice]

/-- A slice is found where it was cut out. -/
theorem indexOf_slice (hb : b < e) (he : e ≤ length cs) : indexOf cs (slice cs b e) b = some b := by
  have hstands := standsAt_slice (Nat.le_of_lt hb) he
  have hneedle : slice cs b e ≠ [] := by
    intro hnil
    have hlength : length (slice cs b e) = e - b := length_slice he
    rw [hnil, length_eq] at hlength
    change 0 = e - b at hlength
    omega
  rcases indexOf_spec cs b hneedle with ⟨i, hfound, hleast⟩ | ⟨-, hnone⟩
  · rw [hfound, hleast.unique ⟨⟨Nat.le_refl b, hstands⟩, fun j hj => hj.1⟩]
  · exact absurd hstands (hnone b (Nat.le_refl b))

end Text

/-! ## Scripts -/

theorem StrMethod.answer_toArr (s : String) (args : List Value) :
    StrMethod.answer s .toArr args = .ok (.texts (Text.clusters s.toList)) := by
  rw [← Text.parts_eq]
  rfl

theorem StrMethod.answer_slice (s : String) (x y : Num) :
    StrMethod.answer s .slice [.num x, .num y] =
      .ok (.value (.str (.ofList (Text.slice s.toList x.clampIndex y.clampIndex)))) := rfl

theorem StrMethod.answer_slice_ofNat {s : String} {b e : Nat} (hb : b ≤ 2 ^ 53) (he : e ≤ 2 ^ 53) :
    StrMethod.answer s .slice [.ofNat b, .ofNat e] =
      .ok (.value (.str (.ofList (Text.slice s.toList b e)))) := by
  rw [Value.ofNat, Value.ofNat, answer_slice, Num.clampIndex_ofNat hb, Num.clampIndex_ofNat he]

theorem StrMethod.answer_indexOf (s t : String) (x : Num) :
    StrMethod.answer s .indexOf [.str t, .num x] =
      .ok (.value (.num ((Text.indexOf s.toList t.toList
        (searchStart (Text.length s.toList) x)).elim (.ofInt (-1)) .ofNat))) := rfl

theorem searchStart_ofNat {b : Nat} (hb : b ≤ 2 ^ 53) (length : Nat) : searchStart length (.ofNat b) = b := by
  have hnonneg : ¬ (b : Int) < 0 := by omega
  rw [searchStart, Num.toIndex_ofNat hb, if_neg hnonneg, Int.toNat_natCast]

/-- To a script `t` is the text of the clusters of `s` from `b` up to `e`. -/
structure IsSlice (s t : String) (b e : Nat) : Prop where
  clusters : ∃ parts, Text.IsClustering s.toList parts ∧
    StrMethod.answer s .toArr [] = .ok (.texts parts) ∧
    StrMethod.answer t .toArr [] = .ok (.texts ((parts.take e).drop b))
  length : ∀ k : Machine, ∃ k', resolve (.str t) "len" k = .done k' (.ofNat (e - b))
  again : ∀ b' e', b' ≤ e' → e' ≤ e - b → StrMethod.answer t .slice [.ofNat b', .ofNat e'] =
    StrMethod.answer s .slice [.ofNat (b + b'), .ofNat (b + e')]
  found : b < e → StrMethod.answer s .indexOf [.str t, .ofNat b] = .ok (.value (.ofNat b))

/-- **A slice keeps its clusters.** A piece cut at cluster boundaries out of any text has the clusters that
stood there, as its array of clusters, its length and its own slices show, and is found where it was cut out. -/
theorem slice_keeps_clusters (s : String) (b e : Nat) (hb : b ≤ e) (he : e ≤ Text.length s.toList)
    (hs : Text.length s.toList < 2 ^ 53) :
    ∃ t, StrMethod.answer s .slice [.ofNat b, .ofNat e] = .ok (.value (.str t)) ∧ IsSlice s t b e := by
  let t := String.ofList (Text.slice s.toList b e)
  have ht : t.toList = Text.slice s.toList b e := String.toList_ofList
  refine ⟨t, StrMethod.answer_slice_ofNat (by omega) (by omega), ?_, fun k => ?_, fun b' e' hb' he' => ?_,
    fun hlt => ?_⟩
  · refine ⟨Text.clusters s.toList, Text.clusters_isClustering s.toList, StrMethod.answer_toArr s [], ?_⟩
    rw [← Text.clusters_slice, ← ht, StrMethod.answer_toArr]
  · rw [← Text.length_slice he, ← ht]
    exact ⟨_, rfl⟩
  · rw [StrMethod.answer_slice_ofNat (by omega) (by omega),
      StrMethod.answer_slice_ofNat (by omega) (by omega), ht, Text.slice_slice hb he']
  · rw [Value.ofNat, StrMethod.answer_indexOf, searchStart_ofNat (by omega), ht, Text.indexOf_slice hlt he,
      Option.elim_some]

/-- Here one flag is cut from another, and the piece ends in a conjunct. -/
theorem slice_keeps_clusters_flags :
    let s := "x🇩🇪🇫🇷\u0915\u094D\u0937"
    2 ≤ 4 ∧ 4 ≤ Text.length s.toList ∧ Text.length s.toList < 2 ^ 53 ∧
      ∃ t, StrMethod.answer s .slice [.ofNat 2, .ofNat 4] = .ok (.value (.str t)) ∧ IsSlice s t 2 4 := by
  intro s
  have hlength : Text.length s.toList = 4 := by decide +kernel
  have hle : 4 ≤ Text.length s.toList := hlength.ge
  have hlt : Text.length s.toList < 2 ^ 53 := by
    rw [hlength]
    decide
  exact ⟨by decide, hle, hlt, slice_keeps_clusters s 2 4 (by decide) hle hlt⟩

end ScriptValues
