/-
The grapheme clusters of a text are one partition of it, whichever way a script asks for them: as an array, by
their number, one at a time or in a slice (`clusters_partition`). Positions are given as numbers of any kind.
A slice takes the clusters between the reaches of two numbers, and a single cluster is picked by the number
that is its position exactly; that 64 bits cut positions off is never noticed, as no text is that long.
-/
import ScriptValues.Proofs.Number.Position
import ScriptValues.Proofs.Text.Slice

namespace ScriptValues

namespace Text

/-- The parts at such positions, in order. -/
def partsAt (positions : Nat → Prop) [DecidablePred positions] (parts : List (List Char)) : List (List Char) :=
  (parts.zipIdx.filter fun q => positions q.2).map Prod.fst

theorem partsAt_congr {p q : Nat → Prop} [DecidablePred p] [DecidablePred q] {parts : List (List Char)}
    (h : ∀ i < parts.length, (p i ↔ q i)) : partsAt p parts = partsAt q parts := by
  refine congrArg (List.map Prod.fst) (List.filter_congr fun x hx => ?_)
  have hlt := List.snd_lt_of_mem_zipIdx hx
  exact decide_eq_decide.2 (h x.2 (by omega))

theorem partsFrom_between (parts : List (List Char)) (start stop k : Nat) :
    (((parts.zipIdx k).filter fun q => start ≤ q.2 ∧ q.2 < stop).map Prod.fst) =
      (parts.take (stop - k)).drop (start - k) := by
  induction parts generalizing k with
  | nil => simp
  | cons part parts ih =>
    have hrest := ih (k + 1)
    rw [List.zipIdx_cons, List.filter_cons]
    rcases Nat.lt_or_ge k stop with hstop | hstop
    · obtain ⟨n, hn⟩ : ∃ n, stop - k = n + 1 := ⟨stop - k - 1, by omega⟩
      have hn' : stop - (k + 1) = n := by omega
      rw [hn'] at hrest
      rw [hn, List.take_succ_cons]
      rcases Nat.lt_or_ge k start with hstart | hstart
      · obtain ⟨m, hm⟩ : ∃ m, start - k = m + 1 := ⟨start - k - 1, by omega⟩
        have hm' : start - (k + 1) = m := by omega
        rw [hm'] at hrest
        rw [hm, List.drop_succ_cons, ← hrest, if_neg (by simp; omega)]
      · have hzero : start - (k + 1) = 0 := by omega
        have hzero' : start - k = 0 := by omega
        rw [hzero, List.drop_zero] at hrest
        rw [hzero', List.drop_zero, ← hrest, if_pos (by simp; omega), List.map_cons]
    · have hzero : stop - (k + 1) = 0 := by omega
      have hzero' : stop - k = 0 := by omega
      rw [hzero, List.take_zero, List.drop_nil] at hrest
      rw [hzero', List.take_zero, List.drop_nil, if_neg (by simp; omega), hrest]

/-- The parts between two positions. -/
theorem partsAt_between (parts : List (List Char)) (start stop : Nat) :
    partsAt (fun p => start ≤ p ∧ p < stop) parts = (parts.take stop).drop start :=
  partsFrom_between parts start stop 0

end Text

theorem StrMethod.answer_pick (s : String) (x : Num) :
    StrMethod.answer s .pick [.num x] =
      .ok (.value ((x.exactIndex.bind (Text.cluster? s.toList)).elim .null .ofChars)) := rfl

/-- To a script the text consists of the parts, by whatever it asks for them. -/
structure IsPartition (s : String) (parts : List (List Char)) : Prop where
  flatten : parts.flatten = s.toList
  nonempty : ∀ part ∈ parts, part ≠ []
  toArr : ∀ args, StrMethod.answer s .toArr args = .ok (.texts parts)
  length : ∀ k : Machine, ∃ k' n, resolve (.str s) "len" k = .done k' (.num n) ∧ n.Is parts.length
  split : StrMethod.answer s .split [] = .ok (.texts parts)
  splitEmpty : StrMethod.answer s .split [.str ""] = .ok (.texts parts)
  slice : ∀ b e : Num, StrMethod.answer s .slice [.num b, .num e] =
    .ok (.ofChars (Text.partsAt (fun p => b.reach ≤ p ∧ p < e.reach) parts).flatten)
  pick : ∀ (x : Num) n part, x.Is n → parts[n]? = some part →
    StrMethod.answer s .pick [.num x] = .ok (.ofChars part)
  pickNone : ∀ x : Num, (∀ n < parts.length, ¬ x.Is n) → StrMethod.answer s .pick [.num x] = .ok (.value .null)

/-- **All that a script can ask of a text by clusters shows one partition of it.** -/
theorem clusters_partition (s : String) (hs : Text.length s.toList < 2 ^ 53) :
    ∃ parts, IsPartition s parts := by
  have hpositions : ∀ n < (Text.clusters s.toList).length, n < 2 ^ 63 - 1 := by
    intro n hn
    rw [← Text.length_eq] at hn
    omega
  refine ⟨Text.clusters s.toList, Text.flatten_clusters _, fun _ => Text.ne_nil_of_mem_clusters,
    StrMethod.answer_toArr s, fun k => ⟨_, _, rfl, ?_⟩, ?_, ?_, fun b e => ?_, fun x n part hx hpart => ?_,
    fun x hx => ?_⟩
  · rw [← Text.length_eq]
    exact Num.ofNat_is hs.le
  · rw [← Text.parts_eq]
    rfl
  · rw [← Text.parts_eq]
    rfl
  · -- Positions of the text are far from where 64 bits cut the two numbers off.
    have hcut : Text.partsAt (fun p => b.reach ≤ p ∧ p < e.reach) (Text.clusters s.toList) =
        ((Text.clusters s.toList).take e.clampIndex).drop b.clampIndex := by
      rw [← Text.partsAt_between]
      refine Text.partsAt_congr fun p hp => ?_
      have hb := Num.reach_le_iff (x := b) (hpositions p hp)
      have he := Num.reach_le_iff (x := e) (hpositions p hp)
      rw [hb, ← not_le, he, not_le]
    rw [StrMethod.answer_slice, Text.slice_eq, hcut]
    rfl
  · obtain ⟨hn, -⟩ := List.getElem?_eq_some_iff.1 hpart
    have hindex := (Num.exactIndex_eq_some_iff (by have := hpositions n hn; omega)).2 hx
    rw [StrMethod.answer_pick, hindex, Option.bind_some, Text.cluster?_eq, hpart]
    rfl
  · have hnone : x.exactIndex.bind (Text.cluster? s.toList) = none := by
      rw [Option.bind_eq_none_iff]
      intro n hindex
      rw [Text.cluster?_eq]
      refine List.getElem?_eq_none_iff.2 (Nat.le_of_not_lt fun hn => hx n hn ?_)
      exact (Num.exactIndex_eq_some_iff (by have := hpositions n hn; omega)).1 hindex
    rw [StrMethod.answer_pick, hnone]
    rfl

/-- A letter with its accent, a flag and a line end. -/
theorem clusters_partition_flag :
    let s := "e\u0301🇩🇪\r\n"
    Text.length s.toList < 2 ^ 53 ∧ ∃ parts, IsPartition s parts := by
  intro s
  have hlength : Text.length s.toList = 3 := by decide +kernel
  have hlt : Text.length s.toList < 2 ^ 53 := by
    rw [hlength]
    decide
  exact ⟨hlt, clusters_partition s hlt⟩

end ScriptValues
